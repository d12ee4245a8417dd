import Dtn.Proof.Tcpcl.Safety
import Mathlib.Data.List.Count

/-!
# Sends that are dropped while they wait for the flush

`Sending` is a session whose `send_message` is taken apart: `feed` appends the
message to the writer's buffer, `flushed` runs `send_complete`, and any other
branch of the `select!` drops a send that still waits. It keeps a log: the
messages appended (`output`), those the machine has decided to send
(`decided`), and the segments it will not send any more because the session
ends (`withdrawn`).

`owed` is what the machine's state still asks it to send. If sends are dropped
in `SendXferSegments` only, each message decided on is appended, owed or
withdrawn, and once only (`decided_perm`).
-/

namespace Dtn.Tcpcl

open List Outcome StateMachine

variable {ρ : Type}
variable {ev : Event ρ}

/-! ## What a machine has to send -/

namespace StateMachine

def owedSegment (sm : StateMachine) (tt : TransferTracker) : List Messages :=
  if tt.pos < tt.transfer.data.length then [.xferSegment (segmentOf sm.peerMru tt)] else []

def owedIn (sm : StateMachine) : States → List Messages
  | .activeSendContactHeader | .passiveSendContactHeader => [.contactHeader (.new sm.canTls)]
  | .activeSendSessInit | .passiveSendSessInit => [.sessInit (.new sm.myNodeId)]
  | .sendXferAck ack => [.xferAck ack]
  | .sendXferSegments tt => sm.owedSegment tt
  | .sendXferSegmentsAndAck tt ack => .xferAck ack :: sm.owedSegment tt
  | .sendKeepalive s => .keepalive ⟨⟩ :: sm.owedIn s
  | .sendSessTerm r => [.sessTerm ⟨sm.terminating, r.getD .unkown⟩]
  | .sendMsgReject r t => [.msgReject ⟨r, t⟩]
  | _ => []

/-- The messages the state asks for: its own, the next segment, and what a keepalive has put off. -/
def owed (sm : StateMachine) : List Messages := sm.owedIn sm.state

/-- The machine is sending a transfer and nothing else. -/
def inSegments (sm : StateMachine) : Bool :=
  match sm.state with
  | .sendXferSegments _ => true
  | _ => false

/-- The session ends, by the peer's wish or by its fault. -/
def ending (sm : StateMachine) : Bool :=
  match sm.state with
  | .sendSessTerm _ | .sendMsgReject _ _ => true
  | _ => false

end StateMachine

/-- A session and its log. -/
structure Sending (ρ : Type) where
  session : Session ρ
  codec : Codec
  flushing : Bool
  output : List Messages
  decided : List Messages
  withdrawn : List Messages

/-- The send is polled, its flush is done, or another branch is taken. -/
inductive Action (ρ : Type) where
  | feed
  | flushed
  | branch (ev : Event ρ)

namespace Sending

variable {p p' : Sending ρ} {tls : Tls} {c' : Codec}

def new (sm : StateMachine) : Sending ρ := ⟨.new sm, .default, false, [], sm.owed, []⟩

/-- What is still to be appended. A message that waits for its flush has been; the position
of a transfer is past it already, in the other states it is the first one owed. -/
def outstanding (p : Sending ρ) : List Messages :=
  if p.flushing && !p.session.statemachine.inSegments then p.session.statemachine.owed.tail
  else p.session.statemachine.owed

/-- The segment that a machine gives up when it ends the session. -/
def withdraws (sm sm' : StateMachine) : List Messages := if sm.inSegments && sm'.ending then sm.owed else []

def step (tls : Tls) (p : Sending ρ) (c' : Codec) : Action ρ → Outcome Exit (Option (Sending ρ))
  | .feed =>
    if p.flushing || p.session.statemachine.shouldClose then .ok none
    else do
      let interest ← p.session.statemachine.getInterests
      if interest.writable then do
        let (sm, m) ← p.session.statemachine.sendMessage
        match m with
        | none => do
          let (s, _) ← ({ p.session with statemachine := sm } : Session ρ).loopTop tls
          .ok (some { p with session := s })
        | some m => .ok (some { p with
            session := { p.session with statemachine := sm }
            flushing := true
            output := p.output ++ [m]
            -- with a segment appended, the machine goes on to the next one
            decided := p.decided ++ if sm.inSegments then sm.owed else [] })
      else .ok none
  | .flushed =>
    if p.flushing then do
      let sm ← p.session.statemachine.sendComplete
      let (s, _) ← ({ p.session with statemachine := sm } : Session ρ).loopTop tls
      .ok (some { p with session := s, flushing := false })
    else .ok none
  | .branch .send | .branch .sendFailed => .ok none
  | .branch ev => do
    match ← p.session.turn tls ev with
    | none => .ok none
    | some (s, _) => .ok (some { p with
        session := s
        codec := c'
        flushing := false
        decided := p.decided ++ s.statemachine.owed.diff p.session.statemachine.owed
        withdrawn := p.withdrawn ++ withdraws p.session.statemachine s.statemachine })

/-- A send that waits for its flush is dropped in `SendXferSegments` only. -/
def Careful (p : Sending ρ) : Action ρ → Prop
  | .branch _ => p.flushing = true → p.session.statemachine.inSegments = true
  | _ => True

/-- The runs of a session from the start of the connection on. -/
def system (tls : Tls) : System (Sending ρ) (Action ρ) where
  init p := ∃ nodeId canTls, p = .new (.newActive nodeId canTls) ∨ p = .new (.newPassive nodeId canTls)
  step p a p' := p.step tls p'.codec a = .ok (some p') ∧
    match a with
    | .branch ev => Session.CodecAfter p.codec ev p'.codec
    | _ => p'.codec = p.codec

end Sending

/-! ## What the methods do to what is owed -/

namespace StateMachine

variable {sm sm' : StateMachine} {done : Bool} {m : Messages}

/-- What a state asks for depends on the machine around it only by its fixed data. -/
lemma owedIn_with_state (sm : StateMachine) (st s : States) :
    ({ sm with state := st } : StateMachine).owedIn s = sm.owedIn s := by
  induction s with
  | sendKeepalive _ ih => exact congrArg (Messages.keepalive ⟨⟩ :: ·) ih
  | _ => rfl

/-- A machine that has appended a message is as sound as before, and has moved on only within a transfer. -/
lemma sendMessage_owed (hs : Sound sm.exchanged done sm.state)
    (h : sm.sendMessage = (.ok (sm', some m) : Outcome Exit _)) :
    Sound sm'.exchanged done sm'.state ∧ (Inits sm.exchanged done → Inits sm'.exchanged done) ∧
      ((sm'.inSegments = true ∧ sm.owed = [m]) ∨
        (sm'.inSegments = false ∧ sm'.owed = sm.owed ∧ sm.owed = m :: sm.owed.tail)) := by
  obtain ⟨st, _, _, _, _, _, _, peerSi, _⟩ := sm
  cases st with
  | activeSendContactHeader | passiveSendContactHeader =>
    cases h
    exact ⟨hs, fun hi => ⟨⟨hi.done, rfl, hi.peer⟩, hi.mySessInit, hi.peerSessInit⟩, .inr ⟨rfl, rfl, rfl⟩⟩
  | activeSendSessInit =>
    cases h
    exact ⟨⟨hs.done, hs.my, hs.peer⟩, fun hi => ⟨⟨hi.done, hi.my, hi.peer⟩, rfl, hi.peerSessInit⟩, .inr ⟨rfl, rfl, rfl⟩⟩
  | passiveSendSessInit =>
    cases h
    exact ⟨⟨⟨hs.1.done, hs.1.my, hs.1.peer⟩, hs.2⟩, fun hi => ⟨⟨hi.done, hi.my, hi.peer⟩, rfl, hi.peerSessInit⟩,
      .inr ⟨rfl, rfl, rfl⟩⟩
  | sendXferSegments tt =>
    obtain ⟨si, rfl⟩ : ∃ si, peerSi = some si := Option.isSome_iff_exists.mp hs.1.peerSessInit
    have hok : tt.Ok si.segmentMru := hs.2 si rfl
    have hsi : (unwrap (some si) : Outcome Exit _) = .ok si := rfl
    simp only [sendMessage, hsi, ok_bind] at h
    split at h
    · cases h
    · rename_i hne
      rw [nextSegment_eq_ok hok hne, ok_bind] at h
      cases h
      have hlt : tt.pos < tt.transfer.data.length := Nat.lt_of_le_of_ne hok.pos_le hne
      refine ⟨⟨hs.1, ?_⟩, id, .inl ⟨rfl, ?_⟩⟩
      · rintro si' ⟨⟩
        exact endPos_ok hok
      · exact if_pos hlt
  | sendXferAck | sendXferSegmentsAndAck | sendKeepalive | sendSessTerm
  | sendMsgReject => cases h; exact ⟨hs, id, .inr ⟨rfl, rfl, rfl⟩⟩
  | _ => cases h

/-- `send_complete` takes the message that was sent off what is owed. -/
lemma sendComplete_owed (h : sm.sendComplete = (.ok sm' : Outcome Exit _)) :
    sm'.owed = if sm.inSegments then sm.owed else sm.owed.tail := by
  obtain ⟨st, canTls, nodeId, lastId, myCh, peerCh, mySi, peerSi, terminating⟩ := sm
  cases st with
  | sendXferSegments =>
    simp only [sendComplete] at h
    split at h
    · rename_i hend
      cases h
      exact (if_neg (by rw [hend.1]; exact Nat.lt_irrefl _)).symm
    · cases h
      rfl
  | sendKeepalive s =>
    cases h
    exact owedIn_with_state ⟨.sendKeepalive s, canTls, nodeId, lastId, myCh, peerCh, mySi, peerSi, terminating⟩ s s
  | sendSessTerm => cases terminating <;> cases h <;> rfl
  | _ => cases h <;> rfl

/-- A machine that reads owes nothing but the next segment. -/
lemma owed_of_readable (hi : (sm.getInterests : Outcome Exit _) = .ok i) (hr : i.readable = true) :
    sm.owed = [] ∨ sm.inSegments = true := by
  obtain ⟨st, _, _, _, _, _, _, _, _⟩ := sm
  cases st with
  | sendXferSegments => exact .inr rfl
  | passiveWaitContactHeader | activeWaitContactHeader | activeWaitSessInit | passiveWaitSessInit | sessionEstablished
  | waitSessTerm => exact .inl rfl
  | connectionClose | shouldNeverExist => cases hi
  | _ =>
    cases hi
    cases hr

lemma owed_of_inSegments (h : sm.inSegments = true) : ∀ m ∈ sm.owed, ∃ x, m = .xferSegment x := by
  obtain ⟨st, _, _, _, _, _, _, _, _⟩ := sm
  cases st with
  | sendXferSegments tt =>
    intro m hm
    change m ∈ owedSegment _ tt at hm
    unfold owedSegment at hm
    split at hm
    · exact ⟨_, mem_singleton.mp hm⟩
    · cases hm
  | _ => cases h

lemma owed_of_ending (h : sm.ending = true) : ∀ m ∈ sm.owed, ∀ x, m ≠ .xferSegment x := by
  obtain ⟨st, _, _, _, _, _, _, _, _⟩ := sm
  cases st with
  | sendSessTerm | sendMsgReject => rintro m hm x rfl; cases mem_singleton.mp hm
  | _ => cases h

lemma owed_of_established (h : sm.isEstablished = true) : sm.owed = [] := by
  have hst := isEstablished_iff.mp h
  rw [owed, hst]
  rfl

/-- What a branch other than the send may do: the machine owes what it owed and more, or
ends the session in the middle of a transfer. -/
def Keeps (sm sm' : StateMachine) : Prop :=
  (sm.owed.Sublist sm'.owed ∧ (sm.inSegments = true → sm'.ending = false)) ∨ (sm.inSegments = true ∧ sm'.ending = true)

lemma Keeps.refl (sm : StateMachine) : Keeps sm sm := by
  by_cases h : sm.inSegments = true ∧ sm.ending = true
  · exact .inr h
  · exact .inl ⟨.refl _, fun hs => Bool.not_eq_true _ ▸ fun he => h ⟨hs, he⟩⟩

lemma keeps_of_owed_nil (h : sm.owed = []) : Keeps sm sm' := by
  by_cases he : sm.inSegments = true ∧ sm'.ending = true
  · exact .inr he
  · exact .inl ⟨h ▸ nil_sublist _, fun hs => Bool.not_eq_true _ ▸ fun he' => he ⟨hs, he'⟩⟩

lemma reading_keeps (hi : (sm.getInterests : Outcome Exit _) = .ok i) (hread : i.readable = true)
    (h : Reading sm r sm' res) (hres : res ≠ .error (.messageError .invalidACKValue)) : Keeps sm sm' := by
  rcases owed_of_readable hi hread with hnil | hseg
  · exact keeps_of_owed_nil hnil
  · obtain ⟨st, _, _, _, _, _, _, _, _⟩ := sm
    cases st with
    | sendXferSegments =>
      cases h with
      | unknownType | unexpected | terminate => exact .inr ⟨rfl, rfl⟩
      | badAck => exact absurd rfl hres
      | lastAck hst =>
        cases hst
        -- all of the transfer has been sent before
        refine keeps_of_owed_nil (if_neg ?_)
        omega
      | ack hst => cases hst; exact .inl ⟨.refl _, fun _ => rfl⟩
      | activeHeader hst | passiveHeader hst | activeInit hst | passiveInit hst | terminated hst => cases hst
      | _ => exact Keeps.refl _
    | _ => cases hseg

lemma sendAck_keeps (h : sm.sendAck a = (.ok sm' : Outcome SessionErrors _)) : Keeps sm sm' := by
  obtain ⟨st, _, _, _, _, _, _, _, _⟩ := sm
  cases st with
  | sendXferSegments => cases h; exact .inl ⟨sublist_cons_self _ _, fun _ => rfl⟩
  | sessionEstablished => cases h; exact keeps_of_owed_nil rfl
  | _ => cases h

lemma sendKeepalive_keeps (sm : StateMachine) : Keeps sm sm.sendKeepalive := by
  refine .inl ⟨?_, fun _ => rfl⟩
  change sm.owed.Sublist (.keepalive ⟨⟩ :: sm.sendKeepalive.owedIn sm.state)
  rw [sendKeepalive, owedIn_with_state]
  exact sublist_cons_self _ _

end StateMachine

namespace Session

variable {s s' : Session ρ} {tls : Tls} {es : List (Effect ρ)}

lemma turn_keeps (hev : ev ≠ .send) (h : s.turn tls ev = .ok (some (s', es))) :
    s.statemachine.Keeps s'.statemachine := by
  obtain ⟨_, _, _, _, hi, hb, hset, -⟩ := turn_eq_ok h
  rw [hset.statemachine]
  cases ev with
  | send => exact absurd rfl hev
  | read =>
    obtain ⟨hread, sm, _, hd, hres⟩ := branch_read_eq_ok hb
    have hr := decodeMessage_cases hi hread hd
    rcases hres with ⟨_, rfl, hx⟩ | ⟨-, -, hne, -, rfl, -⟩
    · have hsame : sm = s.statemachine := by
        cases hr with
        | segment => rfl
      subst hsame
      rcases receiveSegment_eq_ok hx with ⟨-, -, -, rfl, -⟩ | ⟨_, sm, -, hack, ⟨-, rfl, -⟩ | ⟨-, rfl, -⟩⟩
      · exact .refl _
      · exact sendAck_keeps hack
      · exact sendAck_keeps hack
    · exact reading_keeps hi hread hr hne
  | transfer =>
    have hest := (branch_transfer_eq_ok hb).1
    exact keeps_of_owed_nil (owed_of_established hest)
  | tick =>
    obtain ⟨_, hsm, -, rfl⟩ := branch_tick_eq_ok hb
    rcases closeIfIdle_eq_ok hsm with rfl | ⟨hest, -, -⟩
    · dsimp only
      split
      · exact sendKeepalive_keeps _
      · exact .refl _
    · exact keeps_of_owed_nil (owed_of_established hest)
  | close =>
    have hest := (branch_close_eq_ok hb).1
    exact keeps_of_owed_nil (owed_of_established hest)
  | eof | sendFailed => simp only [branch] at hb; split at hb <;> cases hb

end Session

/-! ## Runs -/

namespace Sending

variable {p p' : Sending ρ} {tls : Tls}
variable {c' : Codec}

/-- Every message decided on is in one place. -/
structure Inv (p : Sending ρ) : Prop where
  session : p.session.Inv p.codec.contactHeaderDone
  flushing : p.flushing = true → ∃ sm, p.session.statemachine.sendComplete = (.ok sm : Outcome Exit _) ∧
    ({ p.session with statemachine := sm } : Session ρ).Inv p.codec.contactHeaderDone
  decided : p.decided.Perm (p.output ++ p.outstanding ++ p.withdrawn)
  withdrawn : ∀ m ∈ p.withdrawn, ∃ x, m = .xferSegment x

lemma loopTop_session_inv {s s' : Session ρ} (h : s.Inv done)
    (hs : s.loopTop tls = .ok (s', es)) : s'.Inv done := by grind [Session.loopTop_inv]

lemma outstanding_of_not_flushing (h : p.flushing = false) : p.outstanding = p.session.statemachine.owed := by
  rw [outstanding, h]
  rfl

/-- The log of a branch that drops no send, or one in `SendXferSegments`. -/
lemma perm_of_keeps {decided output withdrawn : List Messages} (hk : sm.Keeps sm')
    (h : decided.Perm (output ++ sm.owed ++ withdrawn)) :
    (decided ++ sm'.owed.diff sm.owed).Perm (output ++ sm'.owed ++ (withdrawn ++ withdraws sm sm')) := by
  rw [perm_iff_count] at h ⊢
  intro m
  have hm := h m
  rcases hk with ⟨hsub, hend⟩ | ⟨hseg, hend⟩
  · have hnone : withdraws sm sm' = [] := by grind [withdraws]
    have hle := hsub.count_le m
    simp only [count_append, count_diff, hnone, count_nil] at hm ⊢
    omega
  · have hall : withdraws sm sm' = sm.owed := by rw [withdraws, hseg, hend]; rfl
    have hzero : sm.owed.count m = 0 ∨ sm'.owed.count m = 0 := by
      grind [owed_of_inSegments, count_eq_zero, owed_of_ending]
    simp only [count_append, count_diff, hall] at hm ⊢
    omega

/-- The session and its log after a branch other than the send. -/
def branched (p : Sending ρ) (c' : Codec) (s : Session ρ) : Sending ρ :=
  { p with
    session := s
    codec := c'
    flushing := false
    decided := p.decided ++ s.statemachine.owed.diff p.session.statemachine.owed
    withdrawn := p.withdrawn ++ withdraws p.session.statemachine s.statemachine }

lemma step_branch_eq_ok (h : p.step tls c' (.branch ev) = .ok (some p')) :
    ev ≠ .send ∧ ∃ s es, p.session.turn tls ev = .ok (some (s, es)) ∧ p' = p.branched c' s := by
  cases ev with
  | send | sendFailed => cases h
  | _ =>
    obtain ⟨_ | ⟨s, es⟩, ht, h⟩ := bind_eq_ok.mp h
    · cases h
    · cases h
      exact ⟨nofun, s, es, ht, rfl⟩

lemma feed_inv (h : p.Inv) (hs : p.step tls p.codec .feed = .ok (some p')) : p'.Inv := by
  simp only [step] at hs
  split at hs
  · cases hs
  · rename_i hcond
    rw [Bool.or_eq_true, not_or, Bool.not_eq_true] at hcond
    have hout := outstanding_of_not_flushing hcond.1
    obtain ⟨_, hi, hs⟩ := bind_eq_ok.mp hs
    split at hs
    · rename_i hw
      obtain ⟨⟨_, m⟩, hm, hs⟩ := bind_eq_ok.mp hs
      cases m with
      | none =>
        cases sendMessage_none hm
        obtain ⟨⟨_, _⟩, htop, hs⟩ := bind_eq_ok.mp hs
        cases hs
        have hset := Session.loopTop_eq_ok htop
        refine ⟨loopTop_session_inv h.session htop, fun hf => ?_, ?_, h.withdrawn⟩
        · cases hcond.1.symm.trans hf
        · grind [h.decided, hset.statemachine, outstanding_of_not_flushing]
      | some =>
        cases hs
        obtain ⟨_, _, sm2, hm1, hc, hsound, hinits⟩ := sendMessage_sound h.session.sound hi hw
        cases hm.symm.trans hm1
        obtain ⟨hsound1, hinits1, howed⟩ := sendMessage_owed h.session.sound hm
        refine ⟨⟨hsound1, fun hk => hinits1 (h.session.keepalive hk)⟩,
          fun _ => ⟨sm2, hc, hsound, fun hk => hinits (h.session.keepalive hk)⟩, ?_, h.withdrawn⟩
        have hdec := h.decided
        rw [hout, perm_iff_count] at hdec
        rw [perm_iff_count]
        intro m'
        rcases howed with ⟨_, _⟩ | ⟨_, _, _⟩ <;> grind [outstanding]
    · cases hs

lemma flushed_inv (h : p.Inv) (hs : p.step tls p.codec .flushed = .ok (some p')) : p'.Inv := by
  simp only [step] at hs
  split at hs
  · rename_i hf
    obtain ⟨_, hc, hs⟩ := bind_eq_ok.mp hs
    obtain ⟨⟨_, _⟩, htop, hs⟩ := bind_eq_ok.mp hs
    cases hs
    obtain ⟨_, hc', hinv⟩ := h.flushing hf
    cases hc.symm.trans hc'
    refine ⟨loopTop_session_inv hinv htop, nofun, ?_, h.withdrawn⟩
    have hdec := h.decided
    rw [outstanding, hf, Bool.true_and] at hdec
    rw [outstanding_of_not_flushing rfl, (Session.loopTop_eq_ok htop).statemachine, sendComplete_owed hc]
    cases hseg : p.session.statemachine.inSegments <;> rw [hseg] at hdec <;> exact hdec
  · cases hs

lemma branch_inv (h : p.Inv) (hc : Session.CodecAfter p.codec ev c')
    (hcare : p.flushing = true → p.session.statemachine.inSegments = true)
    (hs : p.step tls c' (.branch ev) = .ok (some p')) : p'.Inv := by
  obtain ⟨hev, _, _, ht, rfl⟩ := step_branch_eq_ok hs
  have hkeeps := Session.turn_keeps hev ht
  refine ⟨Session.turn_inv h.session hc ht, nofun, ?_, ?_⟩
  · grind [h.decided, perm_of_keeps, outstanding, branched]
  · grind [h.withdrawn, owed_of_inSegments, withdraws, branched]

lemma reaches_inv (h : (system tls).Reaches Careful p) : p.Inv := by
  refine System.Reaches.invariant Inv ?_ ?_ h
  · rintro p ⟨nodeId, canTls, rfl | rfl⟩ <;> exact ⟨⟨rfl, nofun⟩, nofun, .refl _, nofun⟩
  · rintro p a p' hinv hcare ⟨hs, hc⟩
    cases a with
    | feed => exact feed_inv hinv (hc ▸ hs)
    | flushed => exact flushed_inv hinv (hc ▸ hs)
    | branch => exact branch_inv hinv hc hcare hs

/-- If a send is dropped in `SendXferSegments` only, a message that was decided on has been appended once, is
still to be appended, or is a segment of a transfer that ended with the session. -/
theorem decided_perm (h : (system tls).Reaches Careful p) :
    p.decided.Perm (p.output ++ p.outstanding ++ p.withdrawn) ∧ ∀ m ∈ p.withdrawn, ∃ x, m = .xferSegment x :=
  ⟨(reaches_inv h).decided, (reaches_inv h).withdrawn⟩

section Runs

variable {allowed : Sending ρ → Action ρ → Prop}

lemma Reaches.send (h : (system tls).Reaches allowed p) (ha : allowed p .feed)
    (hs : p.step tls p.codec .feed = .ok (some p')) (hc : p'.codec = p.codec) : (system tls).Reaches allowed p' :=
  .step h ha ⟨hc.symm ▸ hs, hc⟩

lemma Reaches.flush (h : (system tls).Reaches allowed p) (ha : allowed p .flushed)
    (hs : p.step tls p.codec .flushed = .ok (some p')) (hc : p'.codec = p.codec) : (system tls).Reaches allowed p' :=
  .step h ha ⟨hc.symm ▸ hs, hc⟩

lemma Reaches.branch (h : (system tls).Reaches allowed p) (ev : Event ρ) (hy : Session.CodecAfter p.codec ev c')
    (ha : allowed p (.branch ev)) (hs : p.step tls c' (.branch ev) = .ok (some p'))
    (hc : p'.codec = c') : (system tls).Reaches allowed p' :=
  .step h ha ⟨hc.symm ▸ hs, hc.symm ▸ hy⟩

/-- An active session after the handshake with a peer that takes segments of one byte. -/
def established : Sending ρ where
  session := ⟨⟨.sessionEstablished, false, "dtn://a", 0, some (.new false), some ⟨4, false⟩, some (.new "dtn://a"),
    some ⟨60, 1, 10, "", []⟩, false⟩, none, false, true, true, true, none⟩
  codec := ⟨true, none⟩
  flushing := false
  output := [.contactHeader (.new false), .sessInit (.new "dtn://a")]
  decided := [.contactHeader (.new false), .sessInit (.new "dtn://a")]
  withdrawn := []

lemma reaches_established (hsend : ∀ p, allowed p .feed ∧ allowed p .flushed)
    (hidle : ∀ p ev, p.flushing = false → (∀ x, ev ≠ .read (.ok (.xferSegment x))) → allowed p (.branch ev)) :
    (system tls).Reaches allowed established := by
  have h0 : (system tls).Reaches allowed (.new (.newActive "dtn://a" false)) := .init ⟨_, _, .inl rfl⟩
  have h1 := Reaches.send h0 (hsend _).1 rfl rfl
  have h2 := Reaches.flush h1 (hsend _).2 rfl rfl
  have h3 := Reaches.branch h2 (.read (.ok (.contactHeader ⟨4, false⟩))) Session.yields_contactHeader
    (hidle _ _ rfl nofun) rfl rfl
  have h4 := Reaches.send h3 (hsend _).1 rfl rfl
  have h5 := Reaches.flush h4 (hsend _).2 rfl rfl
  exact Reaches.branch h5 (.read (.ok (.sessInit ⟨60, 1, 10, "", []⟩))) Session.yields_sessInit
    (hidle _ _ rfl nofun) rfl rfl

/-- The first segment of a transfer is appended once, although a tick drops its send. -/
theorem decided_perm_dropped_segment : ∃ p : Sending Unit, (system ⟨true, fun _ => true⟩).Reaches Careful p ∧
    p.output.length = 3 ∧ p.decided.Perm (p.output ++ p.outstanding ++ p.withdrawn) := by
  have h0 : (system ⟨true, fun _ => true⟩).Reaches Careful (established : Sending Unit) :=
    reaches_established (fun _ => ⟨trivial, trivial⟩) fun _ _ hf _ hf' => nomatch hf.symm.trans hf'
  have hdata : Session.CodecAfter ⟨true, none⟩ (.transfer [1, 2] ()) ⟨true, none⟩ := ⟨by decide, rfl⟩
  have h1 := Reaches.branch h0 (.transfer [1, 2] ()) hdata nofun rfl rfl
  have h2 := Reaches.send h1 trivial rfl rfl
  have h3 := Reaches.branch h2 (.tick false) rfl (fun _ => rfl) rfl rfl
  exact ⟨_, h3, rfl, (decided_perm h3).1⟩

/-- A tick that drops the send of a contact header or of an acknowledgement has it appended twice. -/
theorem output_count_dropped :
    (∃ p : Sending Unit, (system ⟨true, fun _ => true⟩).Reaches (fun _ _ => True) p ∧
      p.output.count (.contactHeader (.new false)) = 2 ∧ p.decided.count (.contactHeader (.new false)) = 1) ∧
    (∃ p : Sending Unit, (system ⟨true, fun _ => true⟩).Reaches (fun _ _ => True) p ∧
      p.output.count (.xferAck ⟨⟨true, true⟩, 0, 1⟩) = 2 ∧ p.decided.count (.xferAck ⟨⟨true, true⟩, 0, 1⟩) = 1) := by
  constructor
  · have h0 : (system ⟨true, fun _ => true⟩).Reaches (fun _ _ => True)
        (.new (.newActive "dtn://a" false) : Sending Unit) := .init ⟨_, _, .inl rfl⟩
    have h1 := Reaches.send h0 trivial rfl rfl
    have h2 := Reaches.branch h1 (.tick false) rfl trivial rfl rfl
    have h3 := Reaches.send h2 trivial rfl rfl
    exact ⟨_, h3, by decide, by decide⟩
  · have hx : Codec.Yields ⟨true, none⟩ (.ok (.xferSegment ⟨⟨true, true⟩, 0, [], [5]⟩)) ⟨true, none⟩ := .message
      (show Codec.decode _ [1, 3, 0, 0, 0, 0, 0, 0, 0, 0, 0, 0, 0, 0, 0, 0, 0, 0, 0, 0, 0, 1, 5] =
        .ok (some _, _, []) by decide)
    have h0 : (system ⟨true, fun _ => true⟩).Reaches (fun _ _ => True) (established : Sending Unit) :=
      reaches_established (fun _ => ⟨trivial, trivial⟩) fun _ _ _ _ => trivial
    have h1 := Reaches.branch h0 (.read (.ok (.xferSegment ⟨⟨true, true⟩, 0, [], [5]⟩))) hx trivial rfl rfl
    have h2 := Reaches.send h1 trivial rfl rfl
    have h3 := Reaches.branch h2 (.tick false) rfl trivial rfl rfl
    have h4 := Reaches.send h3 trivial rfl rfl
    have h5 := Reaches.flush h4 trivial rfl rfl
    have h6 := Reaches.send h5 trivial rfl rfl
    exact ⟨_, h6, by decide, by decide⟩

end Runs

end Sending

end Dtn.Tcpcl
