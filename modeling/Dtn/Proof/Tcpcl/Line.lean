import Dtn.Proof.Tcpcl.Keepalive

/-!
# A session with its stream

A `Line` is a session with its stream: the reader's codec and buffer, the layer
that the stream is on, and a log of what was sent, read and published on which
layer. The upgrade to TLS in `drive_statemachine` replaces the reader by a new
one with the old codec and an empty buffer.

Before both contact headers are there, nothing but contact headers is sent or
read (`branch_early`). From then on the headers stay, and with them what was
agreed about TLS (`run_late`), keepalives wait only behind the handshake
(`run_wrapped`), and the head of the loop publishes only the node id of a
SESS_INIT that it has accepted (`loopTop_tls`).
-/

namespace Dtn.Tcpcl

open List Outcome StateMachine

variable {ρ : Type}

inductive Layer where
  | plain
  | tls
  deriving DecidableEq

inductive Entry where
  | sent (m : Messages)
  | read (r : Except Errors Messages)
  | established (peerEndpoint : String) (maxBundleSize : UInt64)
  deriving DecidableEq

/-- A contact header that is sent or read. -/
def Entry.isHeader : Entry → Bool
  | .sent (.contactHeader _) | .read (.ok (.contactHeader _)) => true
  | _ => false

/-- A session, the reader of its stream with all the bytes that this reader has got, and what has happened on each
layer. -/
structure Line (ρ : Type) where
  session : Session ρ
  codec : Codec
  buffer : List UInt8
  layer : Layer
  arrived : List UInt8
  log : List (Layer × Entry)

namespace Line

def new (sm : StateMachine) : Line ρ := ⟨.new sm, .default, [], .plain, [], []⟩

/-- The connection info that was published. -/
def published (es : List (Effect ρ)) : List Entry :=
  es.filterMap fun | .established n mru => some (.established n mru) | _ => none

/-- What a turn reads and writes, before it comes back to the head of the loop. -/
def exchanged (ev : Event ρ) (es : List (Effect ρ)) : List Entry :=
  ev.message.toList.map .read ++ (Effect.writes es).map .sent

/-- The head of the loop has replaced the stream. -/
def upgrades (s s' : Session ρ) : Bool :=
  !s.initializedTls && s'.initializedTls && ((s'.statemachine.shouldUseTls : Outcome Exit _) == .ok true)

/-- The line after a turn that leaves the session `s'`, the codec `c` and the buffer `buf`. -/
def after (p : Line ρ) (ev : Event ρ) (s' : Session ρ) (es : List (Effect ρ)) (c : Codec) (buf : List UInt8) : Line ρ :=
  let log := p.log ++ (exchanged ev es).map (p.layer, ·)
  if upgrades p.session s' then ⟨s', c, [], .tls, [], log ++ (published es).map (.tls, ·)⟩
  else ⟨s', c, buf, p.layer, p.arrived, log ++ (published es).map (p.layer, ·)⟩

/-- What the reader gives for an event, with the codec and the buffer it leaves behind. -/
inductive Reads (p : Line ρ) : Event ρ → Codec → List UInt8 → Prop where
  | message (h : p.codec.decode p.buffer = .ok (some m, c, buf)) : Reads p (.read (.ok m)) c buf
  | error (h : p.codec.decode p.buffer = .err e) : Reads p (.read (.error e)) p.codec p.buffer
  | io : Reads p (.read (.error .ioError)) p.codec p.buffer
  | other (h : ev.message = none) : Reads p ev p.codec p.buffer

inductive Act (ρ : Type) where
  | fill (w : List UInt8)
  | wait
  | drop
  | turn (ev : Event ρ)

/-- What can happen: bytes arrive, the reader finds no message in them, a `send_message` is dropped before its end, or
the loop goes round. -/
inductive Step (tls : Tls) (p : Line ρ) : Act ρ → Line ρ → Prop where
  | fill (w : List UInt8) : Step tls p (.fill w) { p with buffer := p.buffer ++ w, arrived := p.arrived ++ w }
  | wait
      (hi : (p.session.statemachine.getInterests : Outcome Exit _) = .ok i)
      (hr : i.readable = true) (h : p.codec.decode p.buffer = .ok (none, c, buf)) :
      Step tls p .wait { p with codec := c, buffer := buf }
  | drop
      (hi : (p.session.statemachine.getInterests : Outcome Exit _) = .ok i) (hw : i.writable = true)
      (h : (p.session.statemachine.sendMessage : Outcome Exit _) = .ok (sm, some m)) :
      Step tls p .drop { p with session := { p.session with statemachine := sm }, log := p.log ++ [(p.layer, .sent m)] }
  | turn {ev : Event ρ} {s' : Session ρ} {es : List (Effect ρ)} {c : Codec} {buf : List UInt8} (hr : Reads p ev c buf)
      (h : p.session.turn tls ev = .ok (some (s', es))) : Step tls p (.turn ev) (p.after ev s' es c buf)

/-- A session from the start of the connection on. -/
def system (tls : Tls) : System (Line ρ) (Act ρ) where
  init p := ∃ nodeId canTls, p = .new (.newActive nodeId canTls) ∨ p = .new (.newPassive nodeId canTls)
  step := Step tls

/-- What the reader has given, of some entries. -/
def results (es : List Entry) : List (Except Errors Messages) :=
  es.filterMap fun | .read r => some r | _ => none

/-- The entries of a layer. -/
def entriesOn (l : Layer) (log : List (Layer × Entry)) : List Entry :=
  (log.filter (·.1 == l)).map (·.2)

end Line

/-- A reader that starts behind the contact header, with nothing in its buffer, and gets `bytes`: it has given `rs`. -/
inductive Replay : List UInt8 → List (Except Errors Messages) → Codec → List UInt8 → Prop where
  | start : Replay [] [] ⟨true, none⟩ []
  | fill (h : Replay bytes rs c buf) (w : List UInt8) : Replay (bytes ++ w) rs c (buf ++ w)
  | wait (h : Replay bytes rs c buf) (hd : c.decode buf = .ok (none, c', buf')) : Replay bytes rs c' buf'
  | message (h : Replay bytes rs c buf) (hd : c.decode buf = .ok (some m, c', buf')) :
      Replay bytes (rs ++ [.ok m]) c' buf'
  | error (h : Replay bytes rs c buf) (hd : c.decode buf = .err e) : Replay bytes (rs ++ [.error e]) c buf
  | io (h : Replay bytes rs c buf) : Replay bytes (rs ++ [.error .ioError]) c buf

/-! ## The machine behind the contact headers -/

variable {sm sm' : StateMachine} {c : Call} {cs : List Call}

/-- What was agreed about TLS stays. -/
structure Settles (sm sm' : StateMachine) : Prop where
  progress : 2 ≤ sm'.state.progress
  canTls : sm'.canTls = sm.canTls
  my : sm'.myContactHeader = sm.myContactHeader
  peer : sm'.peerContactHeader = sm.peerContactHeader

lemma Called.headers_eq (h : Called sm c sm') (hp : 2 ≤ sm.state.progress) :
    sm'.myContactHeader = sm.myContactHeader ∧ sm'.peerContactHeader = sm.peerContactHeader := by
  cases h with
  | sent h | dropped h | decoded _ h =>
    cases h with
    | activeHeader hst | passiveHeader hst =>
      rw [hst] at hp
      exact absurd hp (by decide)
    | _ => exact ⟨rfl, rfl⟩
  | _ => exact ⟨rfl, rfl⟩

lemma Called.settles (h : Called sm c sm') (hp : 2 ≤ sm.state.progress) : Settles sm sm' :=
  have hheaders := h.headers_eq hp
  ⟨hp.trans h.progress_le, h.settings_eq.2, hheaders.1, hheaders.2⟩

lemma run_late (h : calls.Run sm cs sm') (hp : 2 ≤ sm.state.progress) : Settles sm sm' := by
  refine h.keeps (Settles sm) ?_ ⟨hp, rfl, rfl, rfl⟩
  intro s c s' hs hc
  have hc' := (Calls.called hc).settles hs.progress
  exact ⟨hc'.progress, hc'.canTls.trans hs.canTls, hc'.my.trans hs.my, hc'.peer.trans hs.peer⟩

lemma Settles.shouldUseTls {ε : Type} (h : Settles sm sm') : (sm'.shouldUseTls : Outcome ε _) = sm.shouldUseTls := by
  rw [StateMachine.shouldUseTls, StateMachine.shouldUseTls, h.my, h.peer]

lemma StateMachine.shouldUseTls_iff {ε : Type} : (sm.shouldUseTls : Outcome ε _) = .ok b ↔
    ∃ my peer, sm.myContactHeader = some my ∧ sm.peerContactHeader = some peer ∧ b = (my.canTls && peer.canTls) := by
  rw [shouldUseTls]
  cases sm.myContactHeader <;> cases sm.peerContactHeader <;> simp [unwrap, eq_comm]

/-- Only a SESS_INIT brings session parameters. -/
lemma Called.peerSessInit_eq (h : Called sm c sm') : sm'.peerSessInit = sm.peerSessInit ∨
    ∃ si, c = .decoded (.ok (.sessInit si)) (.ok (.sessInit si)) ∧ sm'.peerSessInit = some si := by
  cases h with
  | sent h | dropped h => cases h <;> exact .inl rfl
  | decoded _ h =>
    cases h with
    | activeInit | passiveInit => exact .inr ⟨_, rfl, rfl⟩
    | _ => exact .inl rfl
  | _ => exact .inl rfl

lemma run_peerSessInit (h : calls.Run sm cs sm') : sm'.peerSessInit = sm.peerSessInit ∨
    ∃ si, .decoded (.ok (.sessInit si)) (.ok (.sessInit si)) ∈ cs ∧ sm'.peerSessInit = some si := by
  induction h with
  | nil => exact .inl rfl
  | cons hc _ ih =>
    rcases ih with ih | ⟨si, hmem, hsi⟩
    · rcases (Calls.called hc).peerSessInit_eq with heq | ⟨si, rfl, hsi⟩
      · exact .inl (ih.trans heq)
      · exact .inr ⟨si, mem_cons_self, ih.trans hsi⟩
    · exact .inr ⟨si, mem_cons_of_mem _ hmem, hsi⟩

/-- Keepalives wait only behind the handshake, if they are put there only then. -/
lemma Called.wrapped_past (h : Called sm c sm') (hw : sm.state.wrapped = true → sm.state.progress = 4)
    (hk : c = .keptAlive → sm.state.progress = 4) (hw' : sm'.state.wrapped = true) : sm'.state.progress = 4 := by
  have hc : c.isKeepalive = true := by
    by_contra hc
    rw [h.not_wrapped (Bool.not_eq_true _ ▸ hc)] at hw'
    cases hw'
  have hp : sm.state.progress = 4 := by
    cases h with
    | sent h | dropped h =>
      cases h with
      | keepalive hst => exact hw (by rw [hst]; rfl)
      | _ => cases hc
    | keptAlive => exact hk rfl
    | _ => cases hc
  exact Nat.le_antisymm sm'.state.progress_le (hp ▸ h.progress_le)

lemma run_wrapped (h : calls.Run sm cs sm') (hw : sm.state.wrapped = true → sm.state.progress = 4)
    (hk : .keptAlive ∈ cs → sm.state.progress = 4) (hw' : sm'.state.wrapped = true) : sm'.state.progress = 4 := by
  induction h with
  | nil => exact hw hw'
  | @cons _ s1 _ _ _ hc _ ih =>
    have hc := Calls.called hc
    refine ih (hc.wrapped_past hw fun h => hk (h ▸ mem_cons_self)) (fun hmem => ?_) hw'
    have hp := hk (mem_cons_of_mem _ hmem)
    exact Nat.le_antisymm s1.state.progress_le (hp ▸ hc.progress_le)

lemma run_known (h : calls.Run sm cs sm') (hack : ∀ c ∈ cs, c.invalidAck = false)
    (hk : Known sm.exchanged sm.state) : Known sm'.exchanged sm'.state := by
  induction h with
  | nil => exact hk
  | cons hc _ ih =>
    obtain ⟨ha, has⟩ := forall_mem_cons.mp hack
    exact ih has ((Calls.called hc).known ha hk)

/-! ## The turns of a session -/

namespace Session

variable {s s' s1 : Session ρ} {tls : Tls} {ev : Event ρ} {es : List (Effect ρ)} {i : Interest}

/-- The branches of the `select!` leave alone what the head of the loop is responsible for. -/
lemma branch_frame (hb : s.branch tls i ev = .ok (some (s1, es))) : s1.initializedTls = s.initializedTls ∧
    s1.initializedKeepalive = s.initializedKeepalive ∧ Line.published es = [] := by
  cases ev with
  | read =>
    obtain ⟨-, sm, _, -, hres⟩ := branch_read_eq_ok hb
    rcases hres with ⟨_, -, hseg⟩ | ⟨-, -, -, -, rfl, rfl⟩
    · rcases receiveSegment_eq_ok hseg with ⟨_, -, -, rfl, rfl⟩ | ⟨_, sm', -, -, ⟨-, rfl, rfl⟩ | ⟨-, rfl, rfl⟩⟩ <;>
        exact ⟨rfl, rfl, rfl⟩
    · exact ⟨rfl, rfl, rfl⟩
  | send =>
    obtain ⟨-, ⟨sm, -, rfl, rfl⟩ | ⟨sm, _, _, -, -, rfl, rfl⟩⟩ := branch_send_eq_ok hb <;> exact ⟨rfl, rfl, rfl⟩
  | transfer =>
    obtain ⟨-, ⟨sm, -, rfl, rfl⟩ | ⟨_, -, rfl, rfl⟩⟩ := branch_transfer_eq_ok hb <;> exact ⟨rfl, rfl, rfl⟩
  | tick =>
    obtain ⟨_, -, rfl, rfl⟩ := branch_tick_eq_ok hb
    exact ⟨rfl, rfl, rfl⟩
  | close =>
    obtain ⟨-, rfl, rfl⟩ := branch_close_eq_ok hb
    exact ⟨rfl, rfl, rfl⟩
  | eof | sendFailed => simp only [branch] at hb; split at hb <;> cases hb

/-- A SESS_INIT whose session parameters are taken over has passed the check of the certificate. -/
lemma branch_peerSessInit (hi : (s.statemachine.getInterests : Outcome Exit _) = .ok i)
    (hb : s.branch tls i ev = .ok (some (s1, es))) : s1.statemachine.peerSessInit = s.statemachine.peerSessInit ∨
      ∃ si b, s1.statemachine.peerSessInit = some si ∧
        (s1.statemachine.shouldUseTls : Outcome SessionErrors _) = .ok b ∧
        (b = true → tls.validatePeerCertificate si.nodeId = true) := by
  obtain ⟨_, hcs⟩ := branch_calls hi hb
  rcases run_peerSessInit hcs.run with heq | ⟨si, hmem, hsi⟩
  · exact .inl heq
  have hev : ev = .read (.ok (.sessInit si)) := by
    have := hcs.decoded _ _ hmem
    cases ev <;> cases this
    rfl
  subst hev
  simp only [branch] at hb
  split at hb
  · rename_i hread
    obtain ⟨⟨_, _⟩, h2, h⟩ := bind_eq_ok.mp (show (s.readMessage tls (.ok (.sessInit si))).mapErr
      Exit.tcpclError >>= (fun a => pure (some a)) = .ok (some (s1, es)) from hb)
    cases h
    obtain ⟨⟨_, _⟩, hd, h⟩ := bind_eq_ok.mp (mapErr_eq_ok.mp h2)
    cases decodeMessage_cases hi hread hd with
    | activeInit | passiveInit => grind
    | unexpected =>
      cases h
      exact .inl rfl
  · cases hb

/-- The head of the loop turns to TLS when both contact headers are there, and publishes the node id of the peer. -/
lemma loopTop_tls (h : s.loopTop tls = .ok (s', es)) :
    s'.initializedTls = (s.initializedTls || s.statemachine.contactHeaderDone) ∧
    ∀ e ∈ Line.published es, ∃ si mru, s.statemachine.peerSessInit = some si ∧ e = .established si.nodeId mru := by
  obtain ⟨s1, h1, h⟩ := bind_eq_ok.mp h
  obtain ⟨⟨s2, es2⟩, h2, h⟩ := bind_eq_ok.mp h
  obtain ⟨s3, h3, h⟩ := bind_eq_ok.mp h
  have hinit : s1.initializedTls = (s.initializedTls || s.statemachine.contactHeaderDone) ∧
      s1.statemachine = s.statemachine := by
    unfold initTls at h1
    split at h1
    · rename_i hcond
      rw [Bool.and_eq_true] at hcond
      obtain ⟨_, -, h1⟩ := bind_eq_ok.mp h1
      split at h1
      · cases h1
      · cases h1
        exact ⟨by simp [hcond.2], rfl⟩
    · grind
  have hpub : s2.initializedTls = s1.initializedTls ∧ ∀ e ∈ Line.published es2, ∃ si mru,
      s1.statemachine.peerSessInit = some si ∧ e = .established si.nodeId mru := by
    unfold notifyEstablished at h2
    split at h2
    · obtain ⟨_, hn, h2⟩ := bind_eq_ok.mp h2
      obtain ⟨mru, -, h2⟩ := bind_eq_ok.mp h2
      cases h2
      refine ⟨rfl, ?_⟩
      intro e he
      obtain rfl := mem_singleton.mp he
      unfold StateMachine.getPeerNodeId at hn
      split at hn
      · obtain ⟨si, hsi, hn⟩ := bind_eq_ok.mp hn
        cases hn
        refine ⟨si, mru, ?_, rfl⟩
        cases hp : s1.statemachine.peerSessInit with
        | none => rw [hp] at hsi; cases hsi
        | some => rw [hp] at hsi; cases hsi; rfl
      · cases hn
    · cases h2
      exact ⟨rfl, nofun⟩
  have hkeep : s3.initializedTls = s2.initializedTls := by
    rcases initKeepalive_eq_ok h3 with rfl | ⟨t, -, rfl⟩ <;> rfl
  have hans : s3.answerTransfer.1.initializedTls = s3.initializedTls ∧ Line.published s3.answerTransfer.2 = [] := by
    unfold answerTransfer
    split
    · split <;> exact ⟨rfl, rfl⟩
    · exact ⟨rfl, rfl⟩
  generalize s3.answerTransfer = a at hans h
  obtain ⟨_, _⟩ := a
  cases h
  refine ⟨by rw [hans.1, hkeep, hpub.1, hinit.1], ?_⟩
  rw [Line.published, filterMap_append, ← Line.published, ← Line.published, hans.2, append_nil, ← hinit.2]
  exact hpub.2

/-- What a branch does before both contact headers are there. -/
inductive Early (sm sm' : StateMachine) : Option (Except Errors Messages) → List Messages → Prop where
  | same (h : sm' = sm) : Early sm sm' none []
  | sent (hst : sm.state = .activeSendContactHeader ∧ st = .activeWaitContactHeader ∨
        sm.state = .passiveSendContactHeader ∧ st = .passiveWaitSessInit)
      (h : sm' = { sm with myContactHeader := some (.new sm.canTls), state := st }) :
      Early sm sm' none [.contactHeader (.new sm.canTls)]
  | read {ch : ContactHeader} {st : States} (hst : sm.state = .activeWaitContactHeader ∧ st = .activeSendSessInit ∨
        sm.state = .passiveWaitContactHeader ∧ st = .passiveSendContactHeader)
      (h : sm' = { sm with peerContactHeader := some ch, state := st }) :
      Early sm sm' (some (.ok (.contactHeader ch))) []

namespace Early

variable {sm sm' : StateMachine} {msg : Option (Except Errors Messages)} {ws : List Messages}
  (h : Early sm sm' msg ws)

include h

lemma canTls : sm'.canTls = sm.canTls := by
  cases h <;> subst sm' <;> rfl

lemma peerSessInit : sm'.peerSessInit = sm.peerSessInit := by
  cases h <;> subst sm' <;> rfl

lemma not_wrapped (hw : sm.state.wrapped = false) : sm'.state.wrapped = false := by
  cases h with
  | same h => rwa [h]
  | sent hst h | read hst h =>
    subst h
    rcases hst with ⟨-, rfl⟩ | ⟨-, rfl⟩ <;> rfl

lemma progress_le (hp : sm.state.progress < 2) : sm'.state.progress ≤ 2 := by
  cases h with
  | same h => rw [h]; omega
  | sent hst h | read hst h =>
    subst h
    rcases hst with ⟨-, rfl⟩ | ⟨-, rfl⟩ <;> exact of_decide_eq_true rfl

lemma my (hmy : ∀ ch ∈ sm.myContactHeader, ch = .new sm.canTls) :
    ∀ ch ∈ sm'.myContactHeader, ch = .new sm.canTls := by
  cases h with
  | same h => rwa [h]
  | sent _ h =>
    subst h
    rintro ch ⟨⟩
    rfl
  | read _ h =>
    subst h
    exact hmy

lemma peer : (msg = none ∧ sm'.peerContactHeader = sm.peerContactHeader) ∨
    ∃ ch, msg = some (.ok (.contactHeader ch)) ∧ sm'.peerContactHeader = some ch ∧
      sm.state ≠ .passiveSendContactHeader := by
  cases h with
  | same h | sent _ h =>
    subst h
    exact .inl ⟨rfl, rfl⟩
  | read => grind

lemma awaited (hpeer : sm.state ≠ .passiveSendContactHeader → sm.peerContactHeader = none)
    (hp : sm'.state.progress < 2) (hst' : sm'.state ≠ .passiveSendContactHeader) : sm'.peerContactHeader = none := by
  cases h with
  | same h =>
    subst h
    exact hpeer hst'
  | sent hst h =>
    subst h
    rcases hst with ⟨hst, -⟩ | ⟨-, rfl⟩
    · exact hpeer (by rw [hst]; nofun)
    · exact absurd hp (Nat.lt_irrefl 2)
  | read hst h =>
    subst h
    rcases hst with ⟨-, rfl⟩ | ⟨-, rfl⟩
    · exact absurd hp (Nat.lt_irrefl 2)
    · exact absurd rfl hst'

lemma writes (hm : m ∈ ws) : m = .contactHeader (.new sm.canTls) := by
  cases h with
  | same | read => cases hm
  | sent => exact mem_singleton.mp hm

end Early

lemma decode_early (hst : sm.state = .activeWaitContactHeader ∨ sm.state = .passiveWaitContactHeader)
    (h : (sm.decodeMessage r : Outcome SessionErrors _) = .ok (sm', res)) :
    res = .error .doesNotSpeakTCPCL ∨ (∃ ch, res = .ok (.contactHeader ch)) ∧ Early sm sm' (some r) [] := by
  have hdec : ∀ next, (sm.decodeContactHeader r next : Outcome SessionErrors _) = .ok (sm', res) →
      res = .error .doesNotSpeakTCPCL ∨ ∃ ch, r = .ok (.contactHeader ch) ∧ res = .ok (.contactHeader ch) ∧
        sm' = { sm with peerContactHeader := some ch, state := next } := by
    intro next h
    unfold StateMachine.decodeContactHeader at h
    split at h
    · cases h
      exact .inr ⟨_, rfl, rfl, rfl⟩
    · cases h
      exact .inl rfl
    · cases h
  rcases hst with hst | hst <;>
  · rw [StateMachine.decodeMessage, hst] at h
    rcases hdec _ h with hres | ⟨ch, rfl, hres, hsm⟩
    · exact .inl hres
    · refine .inr ⟨⟨ch, hres⟩, .read ?_ hsm⟩
      first | exact .inl ⟨hst, rfl⟩ | exact .inr ⟨hst, rfl⟩

/-- Before both contact headers are there, a party sends and reads contact headers. -/
lemma branch_early (hi : (s.statemachine.getInterests : Outcome Exit _) = .ok i)
    (hb : s.branch tls i ev = .ok (some (s1, es))) (hp : s.statemachine.state.progress < 2)
    (hw : s.statemachine.state.wrapped = false) (hk : s.initializedKeepalive = false) :
    Early s.statemachine s1.statemachine ev.message (Effect.writes es) := by
  have hest : s.statemachine.isEstablished ≠ true := by
    intro hest
    rw [isEstablished_iff.mp hest] at hp
    exact absurd hp (by decide)
  cases ev with
  | read =>
    obtain ⟨hread, sm, _, hd, hres⟩ := branch_read_eq_ok hb
    have hst : s.statemachine.state = .activeWaitContactHeader ∨ s.statemachine.state = .passiveWaitContactHeader := by
      have hreads := States.reads_of_interests hi hread
      generalize s.statemachine.state = st at hp hreads
      cases st with
      | activeWaitContactHeader => exact .inl rfl
      | passiveWaitContactHeader => exact .inr rfl
      | activeWaitSessInit | passiveWaitSessInit | sessionEstablished | waitSessTerm | sendXferSegments =>
        exact absurd hp (by simp [States.progress])
      | _ => cases hreads
    rcases decode_early hst hd with rfl | ⟨⟨ch, rfl⟩, hearly⟩
    · grind
    · rcases hres with ⟨_, hx, -⟩ | ⟨-, -, -, -, rfl, rfl⟩
      · cases hx
      · exact hearly
  | send =>
    obtain ⟨-, ⟨sm, hsm, rfl, rfl⟩ | ⟨sm, _, _, hsm, hc, rfl, rfl⟩⟩ := branch_send_eq_ok hb
    · cases sendMessage_none hsm
      exact .same rfl
    · obtain ⟨_, hc', hwr⟩ := sendMessage_cases hsm
      cases hc.symm.trans hc'
      cases hwr with
      | activeHeader hst => exact .sent (.inl ⟨hst, rfl⟩) rfl
      | passiveHeader hst => exact .sent (.inr ⟨hst, rfl⟩) rfl
      | keepalive hst =>
        rw [hst] at hw
        cases hw
      | _ => grind [States.progress]
  | transfer => grind [branch_transfer_eq_ok]
  | tick =>
    obtain ⟨_, hsm, rfl, rfl⟩ := branch_tick_eq_ok hb
    rcases closeIfIdle_eq_ok hsm with rfl | ⟨h, -⟩
    · rw [hk]
      exact .same rfl
    · exact absurd h hest
  | close => grind [branch_close_eq_ok]
  | eof | sendFailed => simp only [branch] at hb; split at hb <;> cases hb

end Session

end Dtn.Tcpcl
