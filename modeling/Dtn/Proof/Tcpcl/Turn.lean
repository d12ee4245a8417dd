import Dtn.Spec.Tcpcl.Peer

/-!
# What one turn of the session loop can do

The inversion lemmas that every invariant over runs of sessions starts from.
`turn_eq_ok` takes a turn apart into a branch of the `select!` and the loop
before the next one, which leaves the machine alone (`loopTop_eq_ok`).
`decodeMessage_cases` lists what reading does to a machine that reads,
`sendMessage_cases` what writing does, and the `branch_…_eq_ok` say what each
branch does.
-/

namespace Dtn.Tcpcl

open Outcome StateMachine Effect

variable {ε ρ : Type}

/-! ## Effects by kind -/

namespace Effect

def writes (es : List (Effect ρ)) : List Messages :=
  es.filterMap fun | .write m => some m | _ => none

def passedUp (es : List (Effect ρ)) : List Transfer :=
  es.filterMap fun | .passUp t => some t | _ => none

/-- The requests that were answered with `Ok(())`. -/
def granted (es : List (Effect ρ)) : List ρ :=
  es.filterMap fun | .answer r none => some r | _ => none

variable (es es' : List (Effect ρ))

@[simp] lemma writes_append : writes (es ++ es') = writes es ++ writes es' := List.filterMap_append
@[simp] lemma passedUp_append : passedUp (es ++ es') = passedUp es ++ passedUp es' := List.filterMap_append
@[simp] lemma granted_append : granted (es ++ es') = granted es ++ granted es' := List.filterMap_append

end Effect

lemma StateMachine.isEstablished_iff {sm : StateMachine} :
    sm.isEstablished = true ↔ sm.state = .sessionEstablished := by
  simp [isEstablished]

/-! ## Reading -/

/-- Everything that `decode_message` does in a state that reads. -/
inductive Reading (sm : StateMachine) :
    Except Errors Messages → StateMachine → Except SessionErrors Messages → Prop where
  | activeHeader (hst : sm.state = .activeWaitContactHeader) : Reading sm (.ok (.contactHeader ch))
      { sm with peerContactHeader := some ch, state := .activeSendSessInit } (.ok (.contactHeader ch))
  | passiveHeader (hst : sm.state = .passiveWaitContactHeader) : Reading sm (.ok (.contactHeader ch))
      { sm with peerContactHeader := some ch, state := .passiveSendContactHeader } (.ok (.contactHeader ch))
  | noHeader : Reading sm (.error .invalidHeader) sm (.error .doesNotSpeakTCPCL)
  | activeInit (hst : sm.state = .activeWaitSessInit) : Reading sm (.ok (.sessInit si))
      { sm with peerSessInit := some si, state := .sessionEstablished } (.ok (.sessInit si))
  | passiveInit (hst : sm.state = .passiveWaitSessInit) : Reading sm (.ok (.sessInit si))
      { sm with peerSessInit := some si, state := .passiveSendSessInit } (.ok (.sessInit si))
  | unknownType : Reading sm (.error (.invalidMessageType n))
      { sm with state := .sendMsgReject .messageTypeUnkown n } (.error (.messageError (.invalidMessageType n)))
  | unexpected (hm : sm.state.accepts m = false) : Reading sm (.ok m)
      { sm with state := .sendMsgReject .messageUnexpected t.toU8 } (.error (.messageTypeInappropriate t))
  | terminated (hst : sm.state = .waitSessTerm) : Reading sm (.ok (.sessTerm st))
      { sm with state := .connectionClose } (.ok (.sessTerm st))
  | terminate (hst : sm.state = .sessionEstablished ∨ ∃ tt, sm.state = .sendXferSegments tt) :
      Reading sm (.ok (.sessTerm st)) { sm with state := .sendSessTerm (some st.reason), terminating := true }
        (.ok (.sessTerm st))
  | segment (hst : sm.state = .sessionEstablished ∨ ∃ tt, sm.state = .sendXferSegments tt) :
      Reading sm (.ok (.xferSegment x)) sm (.ok (.xferSegment x))
  | badAck (hst : sm.state = .sendXferSegments tt)
      (hid : xa.transferId = tt.transfer.id) (hpos : tt.pos < xa.acknowlegedLength.toNat) : Reading sm
        (.ok (.xferAck xa))
        { sm with state := .sendXferSegments { tt with posAcked := xa.acknowlegedLength.toNat } }
        (.error (.messageError .invalidACKValue))
  | lastAck (hst : sm.state = .sendXferSegments tt)
      (hid : xa.transferId = tt.transfer.id) (hpos : xa.acknowlegedLength.toNat ≤ tt.pos)
      (hlen : xa.acknowlegedLength.toNat = tt.transfer.data.length) : Reading sm (.ok (.xferAck xa))
        { sm with state := .sessionEstablished } (.ok (.xferAck xa))
  | ack (hst : sm.state = .sendXferSegments tt)
      (hid : xa.transferId = tt.transfer.id) (hpos : xa.acknowlegedLength.toNat ≤ tt.pos)
      (hlen : xa.acknowlegedLength.toNat ≠ tt.transfer.data.length) : Reading sm (.ok (.xferAck xa))
        { sm with state := .sendXferSegments { tt with posAcked := xa.acknowlegedLength.toNat } } (.ok (.xferAck xa))
  | keepalive : Reading sm (.ok (.keepalive k)) sm (.ok (.keepalive k))
  | rejected : Reading sm (.ok (.msgReject x)) sm (.ok (.msgReject x))
  | failed (he : ∀ n, e ≠ .invalidMessageType n) (hst : ∀ ch, sm.state.accepts (.contactHeader ch) = false) :
      Reading sm (.error e) sm (.error (.messageError e))

/-! ## Writing -/

/-- Everything that `send_message` does if it appends a message: the machine with the
message in the buffer, and the one behind `send_complete`. -/
inductive Writing (sm : StateMachine) : Messages → StateMachine → StateMachine → Prop where
  | activeHeader (hst : sm.state = .activeSendContactHeader) : Writing sm (.contactHeader (.new sm.canTls))
      { sm with myContactHeader := some (.new sm.canTls) }
      { sm with myContactHeader := some (.new sm.canTls), state := .activeWaitContactHeader }
  | passiveHeader (hst : sm.state = .passiveSendContactHeader) : Writing sm (.contactHeader (.new sm.canTls))
      { sm with myContactHeader := some (.new sm.canTls) }
      { sm with myContactHeader := some (.new sm.canTls), state := .passiveWaitSessInit }
  | activeInit (hst : sm.state = .activeSendSessInit) : Writing sm (.sessInit (.new sm.myNodeId))
      { sm with mySessInit := some (.new sm.myNodeId) }
      { sm with mySessInit := some (.new sm.myNodeId), state := .activeWaitSessInit }
  | passiveInit (hst : sm.state = .passiveSendSessInit) : Writing sm (.sessInit (.new sm.myNodeId))
      { sm with mySessInit := some (.new sm.myNodeId) }
      { sm with mySessInit := some (.new sm.myNodeId), state := .sessionEstablished }
  | ack (hst : sm.state = .sendXferAck a) : Writing sm (.xferAck a) sm { sm with state := .sessionEstablished }
  | segmentsAck (hst : sm.state = .sendXferSegmentsAndAck tt a) :
      Writing sm (.xferAck a) sm { sm with state := .sendXferSegments tt }
  | segment {tt : TransferTracker} {si : SessInit} {x : XferSegment} {e : Nat} (hst : sm.state = .sendXferSegments tt)
      (hsi : sm.peerSessInit = some si) (hpos : tt.pos ≠ tt.transfer.data.length)
      (hx : ∀ {ε : Type}, (nextSegment si.segmentMru tt : Outcome ε _) = .ok (x, e)) :
      Writing sm (.xferSegment x) { sm with state := .sendXferSegments { tt with pos := e } }
        { sm with state := Peer.afterSegment tt e }
  | keepalive (hst : sm.state = .sendKeepalive s) : Writing sm (.keepalive ⟨⟩) sm { sm with state := s }
  | term (hst : sm.state = .sendSessTerm r) : Writing sm (.sessTerm ⟨sm.terminating, r.getD .unkown⟩) sm
        { sm with state := if sm.terminating then .connectionClose else .waitSessTerm, terminating := true }
  | reject (hst : sm.state = .sendMsgReject r t) :
      Writing sm (.msgReject ⟨r, t⟩) sm { sm with state := .connectionClose, terminating := true }

namespace StateMachine

/-- The segment size of the peer. -/
def peerMru (sm : StateMachine) : UInt64 := (sm.peerSessInit.map (·.segmentMru)).getD 0

variable {sm sm' : StateMachine} {r : Except Errors Messages} {res : Except SessionErrors Messages} {i : Interest}

lemma inappropriate_eq_ok (h : (sm.inappropriate m : Outcome ε _) = .ok (sm', res))
    (hm : sm.state.accepts m = false) : Reading sm (.ok m) sm' res := by
  obtain ⟨_, -, h⟩ := bind_eq_ok.mp h
  cases h
  exact .unexpected hm

lemma acknowledge_eq_ok (hst : sm.state = .sendXferSegments tt)
    (h : (sm.acknowledge xa tt .sendXferSegments .sessionEstablished : Outcome ε _) = .ok (sm', res)) :
    Reading sm (.ok (.xferAck xa)) sm' res := by
  unfold acknowledge at h
  split at h
  · cases h
  · rename_i hid
    have hid : xa.transferId = tt.transfer.id := (not_not.mp hid).symm
    dsimp only at h
    split at h
    · rename_i hpos
      cases h
      exact .badAck hst hid hpos
    · rename_i hpos
      split at h
      · rename_i hlen
        cases h
        exact .lastAck hst hid (Nat.le_of_not_lt hpos) hlen
      · rename_i hlen
        cases h
        exact .ack hst hid (Nat.le_of_not_lt hpos) hlen

lemma decodeContactHeader_eq_ok (h : (sm.decodeContactHeader r next : Outcome ε _) = .ok (sm', res))
    (hhead : ∀ ch, Reading sm (.ok (.contactHeader ch)) { sm with peerContactHeader := some ch, state := next }
      (.ok (.contactHeader ch))) : Reading sm r sm' res := by
  unfold decodeContactHeader at h
  split at h
  · cases h
    exact hhead _
  · cases h
    exact .noHeader
  · cases h

lemma decodeInSession_cases (hread : ∀ tt ack, sm.state ≠ .sendXferSegmentsAndAck tt ack)
    (hhead : ∀ ch, sm.state.accepts (.contactHeader ch) = false)
    (h : (sm.decodeInSession r : Outcome ε _) = .ok (sm', res)) : Reading sm r sm' res := by
  rcases r with e | m
  · by_cases hn : ∃ n, e = .invalidMessageType n
    · obtain ⟨n, rfl⟩ := hn
      cases h
      exact .unknownType
    · have hsame : (sm.decodeInSession (.error e) : Outcome ε _) = .ok (sm, .error (.messageError e)) := by
        cases e with
        | invalidMessageType n => exact absurd ⟨n, rfl⟩ hn
        | _ => rfl
      rw [hsame] at h
      cases h
      exact .failed (fun n he => hn ⟨n, he⟩) hhead
  · cases m with
    | contactHeader ch => exact inappropriate_eq_ok h (hhead ch)
    | keepalive =>
      cases h
      exact .keepalive
    | msgReject =>
      cases h
      exact .rejected
    | xferRefuse =>
      refine inappropriate_eq_ok h ?_
      cases sm.state <;> rfl
    | sessInit =>
      simp only [decodeInSession] at h
      split at h
      · cases h
        exact .activeInit ‹_›
      · cases h
        exact .passiveInit ‹_›
      · rename_i h1 h2
        refine inappropriate_eq_ok h ?_
        cases hst : sm.state <;> first | rfl | exact absurd hst h1 | exact absurd hst h2
    | sessTerm =>
      simp only [decodeInSession] at h
      split at h
      · cases h
        exact .terminated ‹_›
      · cases h
        exact .terminate (.inl ‹_›)
      · cases h
        exact .terminate (.inr ⟨_, ‹_›⟩)
      · exact absurd ‹_› (hread _ _)
      · rename_i h1 h2 h3 h4
        refine inappropriate_eq_ok h ?_
        cases hst : sm.state <;> first | rfl | exact absurd hst h1 | exact absurd hst h2 | exact absurd hst (h3 _)
    | xferSegment =>
      simp only [decodeInSession] at h
      split at h
      · cases h
        exact .segment (.inl ‹_›)
      · cases h
        exact .segment (.inr ⟨_, ‹_›⟩)
      · exact absurd ‹_› (hread _ _)
      · rename_i h1 h2 h3
        refine inappropriate_eq_ok h ?_
        cases hst : sm.state <;> first | rfl | exact absurd hst h1 | exact absurd hst (h2 _)
    | xferAck =>
      simp only [decodeInSession] at h
      split at h
      · exact acknowledge_eq_ok ‹_› h
      · exact absurd ‹_› (hread _ _)
      · rename_i h1 h2
        refine inappropriate_eq_ok h ?_
        cases hst : sm.state <;> first | rfl | exact absurd hst (h1 _)

/-- A machine that reads does one of the things of `Reading`. -/
lemma decodeMessage_cases (hi : (sm.getInterests : Outcome Exit _) = .ok i) (hread : i.readable = true)
    (h : (sm.decodeMessage r : Outcome ε _) = .ok (sm', res)) : Reading sm r sm' res := by
  unfold decodeMessage at h
  split at h
  · exact decodeContactHeader_eq_ok h fun _ => .passiveHeader ‹_›
  · exact decodeContactHeader_eq_ok h fun _ => .activeHeader ‹_›
  all_goals
    first
    | (rename_i hst
       refine decodeInSession_cases (fun tt ack h' => ?_) (fun ch => by rw [hst]; rfl) h
       rw [getInterests, h'] at hi
       cases hi
       cases hread)
    | cases h

/-- A machine that appends a message does one of the things of `Writing`. -/
lemma sendMessage_cases (h : (sm.sendMessage : Outcome ε _) = .ok (sm', some m)) :
    ∃ sm'', (∀ {ε : Type}, (sm'.sendComplete : Outcome ε _) = .ok sm'') ∧ Writing sm m sm' sm'' := by
  obtain ⟨st, _, _, _, _, _, _, peerSi, terminating⟩ := sm
  cases st with
  | activeSendContactHeader => cases h; exact ⟨_, rfl, .activeHeader rfl⟩
  | passiveSendContactHeader => cases h; exact ⟨_, rfl, .passiveHeader rfl⟩
  | activeSendSessInit => cases h; exact ⟨_, rfl, .activeInit rfl⟩
  | passiveSendSessInit => cases h; exact ⟨_, rfl, .passiveInit rfl⟩
  | sendXferAck => cases h; exact ⟨_, rfl, .ack rfl⟩
  | sendXferSegmentsAndAck => cases h; exact ⟨_, rfl, .segmentsAck rfl⟩
  | sendKeepalive => cases h; exact ⟨_, rfl, .keepalive rfl⟩
  | sendMsgReject => cases h; exact ⟨_, rfl, .reject rfl⟩
  | sendSessTerm =>
    cases h
    refine ⟨_, fun {ε} => ?_, .term rfl⟩
    cases terminating <;> rfl
  | sendXferSegments =>
    obtain ⟨si, hsi, h⟩ := bind_eq_ok.mp h
    obtain rfl : peerSi = some si := by
      cases peerSi with
      | none => cases hsi
      | some => cases hsi; rfl
    split at h <;> [cases h; rename_i hpos]
    obtain ⟨⟨_, _⟩, _, h⟩ := bind_eq_ok.mp h
    cases h
    refine ⟨_, fun {ε} => ?_, .segment rfl rfl hpos fun {ε} => ?_⟩
    · simp only [sendComplete, Peer.afterSegment]
      split <;> rfl
    · grind [nextSegment]
  | _ => cases h

/-- There is nothing to append only if all of a transfer has been. -/
lemma sendMessage_none (h : sm.sendMessage = (.ok (sm', none) : Outcome Exit _)) : sm' = sm := by
  obtain ⟨st, _, _, _, _, _, _, _, _⟩ := sm
  cases st with
  | sendXferSegments =>
    obtain ⟨_, -, h⟩ := bind_eq_ok.mp h
    split at h
    · cases h
      rfl
    · obtain ⟨_, -, h⟩ := bind_eq_ok.mp h
      cases h
  | _ => cases h

end StateMachine

/-! ## The loop before the `select!` -/

namespace Session

variable {s s' : Session ρ} {tls : Tls} {es : List (Effect ρ)} {i : Interest}

lemma initTls_eq_ok (h : s.initTls tls = .ok s') : s' = s ∨ s' = { s with initializedTls := true } := by
  grind [initTls]

lemma notifyEstablished_eq_ok (h : s.notifyEstablished = .ok (s', es)) :
    (s' = s ∧ es = []) ∨ ∃ a b, s' = { s with establishedChannel := false } ∧ es = [.established a b] := by
  grind [notifyEstablished]

lemma initKeepalive_eq_ok (h : s.initKeepalive = .ok s') : s' = s ∨ ∃ t, s.statemachine.isEstablished = true ∧
    s' = { s with keepaliveTimer := t, initializedKeepalive := true } := by grind [initKeepalive]

/-- What a session can do to others before its `select!`: answer the request whose transfer is over. -/
structure Settled (s s' : Session ρ) (es : List (Effect ρ)) : Prop where
  statemachine : s'.statemachine = s.statemachine
  receivingTransfer : s'.receivingTransfer = s.receivingTransfer
  initializedKeepalive : s'.initializedKeepalive = true →
    s.initializedKeepalive = true ∨ s.statemachine.isEstablished = true
  writes : writes es = []
  passedUp : passedUp es = []
  sender : s'.transferResultSender = if s.statemachine.isEstablished then none else s.transferResultSender
  granted : granted es = if s.statemachine.isEstablished then s.transferResultSender.toList else []

lemma answerTransfer_settled (s : Session ρ) : Settled s s.answerTransfer.1 s.answerTransfer.2 := by
  unfold answerTransfer
  have hsame : s.statemachine.couldSendTransfer = s.statemachine.isEstablished := rfl
  rw [hsame]
  split
  · rename_i hest
    split
    · rename_i r hr
      exact ⟨rfl, rfl, .inl, rfl, rfl, by rw [if_pos hest], by rw [if_pos hest, hr]; rfl⟩
    · rename_i hr
      exact ⟨rfl, rfl, .inl, rfl, rfl, by rw [if_pos hest, hr], by rw [if_pos hest, hr]; rfl⟩
  · rename_i hest
    exact ⟨rfl, rfl, .inl, rfl, rfl, by rw [if_neg hest], by rw [if_neg hest]; rfl⟩

lemma loopTop_eq_ok (h : s.loopTop tls = .ok (s', es)) : Settled s s' es := by
  obtain ⟨_, h1, h⟩ := bind_eq_ok.mp h
  obtain ⟨⟨_, es2⟩, h2, h⟩ := bind_eq_ok.mp h
  obtain ⟨s3, h3, h⟩ := bind_eq_ok.mp h
  have ha := answerTransfer_settled s3
  generalize s3.answerTransfer = a at ha h
  obtain ⟨_, _⟩ := a
  cases h
  obtain ⟨hes, hsm, hrt, hts, hik⟩ : (es2 = [] ∨ ∃ a b, es2 = [.established a b]) ∧
      s3.statemachine = s.statemachine ∧ s3.receivingTransfer = s.receivingTransfer ∧
      s3.transferResultSender = s.transferResultSender ∧
      (s3.initializedKeepalive = true → s.initializedKeepalive = true ∨ s.statemachine.isEstablished = true) := by
    rcases initTls_eq_ok h1 with rfl | rfl <;>
    rcases notifyEstablished_eq_ok h2 with ⟨rfl, rfl⟩ | ⟨a, b, rfl, rfl⟩ <;>
    rcases initKeepalive_eq_ok h3 with rfl | ⟨t, hest, rfl⟩
    all_goals
      refine ⟨?_, rfl, rfl, rfl, ?_⟩
      · first | exact .inl rfl | exact .inr ⟨_, _, rfl⟩
      · first | exact .inl | exact fun _ => .inr hest
  have hw : writes es2 = [] := by rcases hes with rfl | ⟨a, b, rfl⟩ <;> rfl
  have hp : passedUp es2 = [] := by rcases hes with rfl | ⟨a, b, rfl⟩ <;> rfl
  have hg : granted es2 = [] := by rcases hes with rfl | ⟨a, b, rfl⟩ <;> rfl
  refine ⟨ha.statemachine.trans hsm, ha.receivingTransfer.trans hrt, fun hk => ?_, ?_, ?_, ?_, ?_⟩
  · grind [ha.initializedKeepalive]
  · rw [writes_append, hw, ha.writes]
    rfl
  · rw [passedUp_append, hp, ha.passedUp]
    rfl
  · rw [ha.sender, hsm, hts]
  · rw [granted_append, hg, ha.granted, hsm, hts]
    rfl

/-- A turn is a branch of the `select!` and the loop before the next one. -/
lemma turn_eq_loopTop (h : s.turn tls ev = .ok (some (s', es))) :
    ∃ i s1 es1 es2, (∀ {ε : Type}, (s.statemachine.getInterests : Outcome ε _) = .ok i) ∧
      s.branch tls i ev = .ok (some (s1, es1)) ∧ s1.loopTop tls = .ok (s', es2) ∧ es = es1 ++ es2 := by
  obtain ⟨o, hsel, h⟩ := bind_eq_ok.mp h
  cases o with
  | none => cases h
  | some o =>
    obtain ⟨s1, es1⟩ := o
    obtain ⟨⟨_, es2⟩, htop, h⟩ := bind_eq_ok.mp h
    cases h
    unfold select at hsel
    split at hsel
    · cases hsel
    · obtain ⟨i, hi, hb⟩ := bind_eq_ok.mp hsel
      refine ⟨i, s1, es1, es2, ?_, hb, htop, rfl⟩
      intro ε
      unfold getInterests at hi ⊢
      split at hi <;> cases hi <;> rfl

lemma turn_eq_ok (h : s.turn tls ev = .ok (some (s', es))) :
    ∃ i s1 es1 es2, (∀ {ε : Type}, (s.statemachine.getInterests : Outcome ε _) = .ok i) ∧
      s.branch tls i ev = .ok (some (s1, es1)) ∧ Settled s1 s' es2 ∧ es = es1 ++ es2 := by
  obtain ⟨i, s1, es1, es2, hi, hb, htop, hes⟩ := turn_eq_loopTop h
  exact ⟨i, s1, es1, es2, hi, hb, loopTop_eq_ok htop, hes⟩

/-! ## The branches -/

variable {s1 : Session ρ}

lemma branch_send_eq_ok (h : s.branch tls i .send = .ok (some (s1, es))) : i.writable = true ∧
    ((∃ sm, s.statemachine.sendMessage = (.ok (sm, none) : Outcome Exit _) ∧ s1 = { s with statemachine := sm } ∧
      es = []) ∨
      ∃ sm m sm', s.statemachine.sendMessage = (.ok (sm, some m) : Outcome Exit _) ∧
        sm.sendComplete = (.ok sm' : Outcome Exit _) ∧ s1 = { s with statemachine := sm' } ∧ es = [.write m]) := by
  simp only [branch] at h
  split at h
  · grind
  · cases h

lemma closeIfIdle_eq_ok (h : closeIfIdle sm idle = .ok sm') :
    sm' = sm ∨ sm.isEstablished = true ∧ idle = true ∧ sm' =
    { sm with state := .sendSessTerm (some .idleTimeout) } := by
  unfold closeIfIdle at h
  split at h
  · grind [closeConnection]
  · cases h
    exact .inl rfl

lemma branch_tick_eq_ok (h : s.branch tls i (.tick idle) = .ok (some (s1, es))) :
    ∃ sm, closeIfIdle s.statemachine idle = .ok sm ∧ es = [] ∧
      s1 = { s with statemachine := if s.initializedKeepalive then sm.sendKeepalive else sm } := by
  grind [branch]

lemma sendTransfer_eq_ok {sm sm' : StateMachine} {data : List UInt8} (hest : sm.isEstablished = true)
    (h : sm.sendTransfer data = .ok sm') : (∃ si, sm.peerSessInit = some si ∧ data.length ≤ si.transferMru.toNat) ∧
      sm' = { sm with lastUsedTransferId := sm.lastUsedTransferId + 1,
                      state := .sendXferSegments ⟨⟨sm.lastUsedTransferId, data⟩, 0, 0⟩ } := by
  have hst := isEstablished_iff.mp hest
  obtain ⟨si, hsi, h⟩ := bind_eq_ok.mp h
  have hsi' : sm.peerSessInit = some si := by
    cases hp : sm.peerSessInit with
    | none => rw [hp] at hsi; cases hsi
    | some => rw [hp] at hsi; cases hsi; rfl
  split at h
  · cases h
  · grind

lemma branch_transfer_eq_ok (h : s.branch tls i (.transfer data r) = .ok (some (s1, es))) :
    s.statemachine.isEstablished = true ∧
      ((∃ sm, s.statemachine.sendTransfer data = .ok sm ∧ es = [] ∧
          s1 = { s with statemachine := sm, transferResultSender := some r }) ∨
        ∃ e, s.statemachine.sendTransfer data = .err e ∧ s1 = s ∧ es = [.answer r (some e)]) := by
  simp only [branch] at h
  split at h
  · rename_i hest
    refine ⟨hest, ?_⟩
    split at h
    · grind
    · grind
    · cases h
  · cases h

lemma branch_close_eq_ok (h : s.branch tls i .close = .ok (some (s1, es))) : s.statemachine.isEstablished = true ∧
    es = [] ∧
    s1 = { s with statemachine := { s.statemachine with state := .sendSessTerm (some .resourceExhaustion) } } := by
  simp only [branch] at h
  split at h
  · simp_all [closeConnection]
  · cases h

/-- What a session makes of a segment: drop it, or add it to its transfer and acknowledge it. -/
lemma receiveSegment_eq_ok (h : s.receiveSegment x = .ok (s1, es)) :
    (∃ t, s.receivingTransfer = some t ∧ t.id ≠ x.transferId ∧ s1 = s ∧ es = []) ∨
      ∃ t sm, ((s.receivingTransfer = none ∧ t = ⟨x.transferId, x.data⟩) ∨
          ∃ t', s.receivingTransfer = some t' ∧ t'.id = x.transferId ∧ t = ⟨t'.id, t'.data ++ x.data⟩) ∧
        s.statemachine.sendAck (x.toXferAck (UInt64.ofNat t.data.length)) = (.ok sm : Outcome SessionErrors _) ∧
        ((x.flags.fin = true ∧ s1 = { s with statemachine := sm, receivingTransfer := none } ∧ es = [.passUp t]) ∨
          (x.flags.fin = false ∧ s1 = { s with statemachine := sm, receivingTransfer := some t } ∧ es = [])) := by
  have hack : ∀ t, s.acknowledge x t = .ok (s1, es) → ∃ sm,
      s.statemachine.sendAck (x.toXferAck (UInt64.ofNat t.data.length)) = (.ok sm : Outcome SessionErrors _) ∧
        ((x.flags.fin = true ∧ s1 = { s with statemachine := sm, receivingTransfer := none } ∧ es = [.passUp t]) ∨
          (x.flags.fin = false ∧ s1 = { s with statemachine := sm, receivingTransfer := some t } ∧ es = [])) := by
    intro t h
    obtain ⟨sm, hsm, h⟩ := bind_eq_ok.mp h
    refine ⟨sm, hsm, ?_⟩
    split at h <;> simp_all
  unfold receiveSegment at h
  split at h
  · rename_i t ht
    split at h
    · rename_i hid
      obtain ⟨sm, hsm, h⟩ := hack _ h
      exact .inr ⟨_, sm, .inr ⟨t, ht, hid, rfl⟩, hsm, h⟩
    · grind
  · rename_i ht
    obtain ⟨sm, hsm, h⟩ := hack _ h
    exact .inr ⟨_, sm, .inl ⟨ht, rfl⟩, hsm, h⟩

/-- A read that the session survives: a segment, or something that only the machine cares about. -/
lemma branch_read_eq_ok (h : s.branch tls i (.read r) = .ok (some (s1, es))) :
    i.readable = true ∧ ∃ sm res, s.statemachine.decodeMessage r = (.ok (sm, res) : Outcome SessionErrors _) ∧
      ((∃ x, res = .ok (.xferSegment x) ∧ ({ s with statemachine := sm } : Session ρ).receiveSegment x = .ok (s1, es)) ∨
        ((∀ x, res ≠ .ok (.xferSegment x)) ∧ (∀ x, res ≠ .ok (.msgReject x)) ∧
          res ≠ .error (.messageError .invalidACKValue) ∧ res ≠ .error .doesNotSpeakTCPCL ∧
          s1 = { s with statemachine := sm } ∧ es = [])) := by
  simp only [branch] at h
  split at h
  · rename_i hread
    refine ⟨hread, ?_⟩
    obtain ⟨⟨_, _⟩, h2, h⟩ := bind_eq_ok.mp (show (s.readMessage tls r).mapErr Exit.tcpclError >>=
      (fun a => pure (some a)) = .ok (some (s1, es)) from h)
    cases h
    obtain ⟨⟨sm, res⟩, hd, h⟩ := bind_eq_ok.mp (mapErr_eq_ok.mp h2)
    refine ⟨sm, res, hd, ?_⟩
    have hkept (hx : ∀ x, res ≠ .ok (.xferSegment x)) (hr : ∀ x, res ≠ .ok (.msgReject x))
        (ha : res ≠ .error (.messageError .invalidACKValue)) (hv : res ≠ .error .doesNotSpeakTCPCL)
        (h : (.ok ({ s with statemachine := sm }, []) : Outcome SessionErrors _) = .ok (s1, es)) :
        (∃ x, res = .ok (.xferSegment x) ∧
            ({ s with statemachine := sm } : Session ρ).receiveSegment x = .ok (s1, es)) ∨
          ((∀ x, res ≠ .ok (.xferSegment x)) ∧ (∀ x, res ≠ .ok (.msgReject x)) ∧
            res ≠ .error (.messageError .invalidACKValue) ∧ res ≠ .error .doesNotSpeakTCPCL ∧
            s1 = { s with statemachine := sm } ∧ es = []) := by
      cases h
      exact .inr ⟨hx, hr, ha, hv, rfl, rfl⟩
    rcases res with e | m
    · cases e with
      | messageError e =>
        cases e with
        | invalidMessageType => exact hkept nofun nofun nofun nofun h
        | _ => cases h
      | doesNotSpeakTCPCL => cases h
      | _ => exact hkept nofun nofun nofun nofun h
    · cases m with
      | sessInit =>
        obtain ⟨_, -, h⟩ := bind_eq_ok.mp h
        split at h
        · cases h
        · exact hkept nofun nofun nofun nofun h
      | xferSegment x => exact .inl ⟨x, rfl, h⟩
      | msgReject => cases h
      | _ => exact hkept nofun nofun nofun nofun h
  · cases h

end Session

end Dtn.Tcpcl
