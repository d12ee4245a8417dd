import Dtn.Proof.Tcpcl.Pair

/-!
# Closing a session

Two sessions that start with the handshake stay in one of its stages
(`Early`, `Late`) or are a `Pair`, so neither of them breaks the protocol: if
nobody closes while a segment of the other is unread, and nobody sends a segment
to a party that closes, no one enters `SendMsgReject`
(`state_ne_sendMsgReject`).
-/

namespace Dtn.Tcpcl

/-! ## The handshake -/

/-- How far the handshake is before the passive party is established: the state of the active
party and what is on its way to it, then the same of the passive party, and the segment size it knows. -/
inductive Early : States → List Messages → States → List Messages → UInt64 → Prop where
  | start : Early .activeSendContactHeader [] .passiveWaitContactHeader [] n
  | headerSent {n : UInt64} {ch : ContactHeader} :
      Early .activeWaitContactHeader [] .passiveWaitContactHeader [.contactHeader ch] n
  | headerRead : Early .activeWaitContactHeader [] .passiveSendContactHeader [] n
  | headerAnswered {n : UInt64} {ch : ContactHeader} :
      Early .activeWaitContactHeader [.contactHeader ch] .passiveWaitSessInit [] n
  | init : Early .activeSendSessInit [] .passiveWaitSessInit [] n
  | initSent {n : UInt64} {id : String} : Early .activeWaitSessInit [] .passiveWaitSessInit [.sessInit (.new id)] n
  | initRead (id : String) : Early .activeWaitSessInit [] .passiveSendSessInit [] (SessInit.new id).segmentMru

/-- A party before its first transfer. -/
structure Peer.Blank (x : Peer) : Prop where
  terminating : x.terminating = false
  receiving : x.receiving = none
  accepted : x.accepted = []
  passedUp : x.passedUp = []

/-- The active party has still to read the session parameters; then it is one of a pair. -/
structure Late (x y : Peer) : Prop where
  state : x.state = .activeWaitSessInit
  inbox : y.inbox = []
  pair : ∃ id ms, x.inbox = .sessInit (.new id) :: ms ∧
    Pair { x with state := .sessionEstablished, mru := (SessInit.new id).segmentMru, inbox := ms } y

/-- Every stage of a session between the active party `x` and the passive party `y`. -/
inductive Joined (x y : Peer) : Prop where
  | early (hx : x.Blank) (hy : y.Blank) (h : Early x.state x.inbox y.state y.inbox y.mru)
  | late (h : Late x y)
  | pair (h : Pair x y)

variable {x y x' y' : Peer} {l : Label}

lemma mru_pos (id : String) : 0 < (SessInit.new id).segmentMru.toNat := by
  change 0 < (UInt64.ofNat maxSegmentMru).toNat
  decide

/-- Both parties are established and nothing has happened yet. -/
lemma pair_of_blank (hx : x.Blank) (hy : y.Blank) (hxs : x.state = .sessionEstablished)
    (hys : y.state = .sessionEstablished) (hxi : x.inbox = []) (hyi : y.inbox = []) (hxm : 0 < x.mru.toNat)
    (hym : 0 < y.mru.toNat) : Pair x y := by
  have hhalf : ∀ {x y : Peer}, x.Blank → y.Blank → x.state = .sessionEstablished → y.state = .sessionEstablished →
      x.inbox = [] → y.inbox = [] → 0 < x.mru.toNat → Half x.aspect y.aspect := by
    rintro ⟨st, terminating, mru, receiving, inbox, accepted, passedUp⟩ ⟨st', terminating', mru', receiving', inbox',
      accepted', passedUp'⟩ ⟨ht, hr, ha, hp⟩ ⟨ht', hr', ha', hp'⟩ hxs hys hxi hyi hm
    subst ht hr ha hp ht' hr' ha' hp' hxs hys hxi hyi
    exact ⟨⟨nofun, nofun⟩, hm, trivial, nofun, nofun, nofun, nofun, fun _ => rfl, fun _ => .idle rfl rfl rfl rfl rfl,
      fun h => absurd rfl h⟩
  exact ⟨hhalf hx hy hxs hys hxi hyi hxm, hhalf hy hx hys hxs hyi hxi hym⟩

lemma Peer.Blank.congr {mru : UInt64} {inbox : List Messages} (h : x.Blank) :
    ({ x with state := st, mru := mru, inbox := inbox } : Peer).Blank := ⟨h.1, h.2, h.3, h.4⟩

lemma Early.step_active (hx : x.Blank) (hy : y.Blank) (h : Early x.state x.inbox y.state y.inbox y.mru)
    (hs : Peer.Step l x y x' y') : Joined x' y' := by
  obtain ⟨_, _, _, _, _, _, _⟩ := x
  obtain ⟨_, _, _, _, _, _, _⟩ := y
  have hidle := Joined.early hx hy h
  cases h with
  | start =>
    cases hs with
    | idle => exact hidle
    | sendHeaderActive => exact .early hx.congr hy.congr .headerSent
    | _ => contradiction
  | headerAnswered =>
    cases hs with
    | idle => exact hidle
    | readHeaderActive _ hin => cases hin; exact .early hx.congr hy .init
    | reject _ hin hm => cases hin; cases hm
    | readKeepalive _ hin | readTerm _ hin | dropSegment hin | readSegment hin => cases hin
    | _ => contradiction
  | init =>
    cases hs with
    | idle => exact hidle
    | sendInitActive => exact .early hx.congr hy.congr .initSent
    | _ => contradiction
  | _ =>
    cases hs with
    | idle => exact hidle
    | _ => contradiction

lemma Early.step_passive (hx : x.Blank) (hy : y.Blank) (h : Early x.state x.inbox y.state y.inbox y.mru)
    (hs : Peer.Step l y x y' x') : Joined x' y' := by
  obtain ⟨_, _, _, _, _, _, _⟩ := x
  obtain ⟨_, _, _, _, _, _, _⟩ := y
  have hidle := Joined.early hx hy h
  cases h with
  | headerSent =>
    cases hs with
    | idle => exact hidle
    | readHeaderPassive _ hin => cases hin; exact .early hx hy.congr .headerRead
    | reject _ hin hm => cases hin; cases hm
    | readKeepalive _ hin | readTerm _ hin | dropSegment hin | readSegment hin => cases hin
    | _ => contradiction
  | headerRead =>
    cases hs with
    | idle => exact hidle
    | sendHeaderPassive => exact .early hx.congr hy.congr .headerAnswered
    | _ => contradiction
  | @initSent _ id =>
    cases hs with
    | idle => exact hidle
    | readInitPassive _ hin => cases hin; exact .early hx hy.congr (.initRead id)
    | reject _ hin hm => cases hin; cases hm
    | readKeepalive _ hin | readTerm _ hin | dropSegment hin | readSegment hin => cases hin
    | _ => contradiction
  | initRead id =>
    cases hs with
    | idle => exact hidle
    | sendInitPassive _ id' =>
      exact .late ⟨rfl, rfl, id', [], rfl, pair_of_blank hx.congr hy.congr rfl rfl rfl rfl (mru_pos id') (mru_pos id)⟩
    | _ => contradiction
  | _ =>
    cases hs with
    | idle => exact hidle
    | _ => contradiction

/-! ## From the handshake to the pair -/

/-- A step does not look at the other party. -/
lemma Peer.Step.frame (h : Step l x y x' y') : (y' = y ∧ ∀ z, Step l x z x' z) ∨
    ∃ m, y' = y.push m ∧ ∀ z, Step l x z x' (z.push m) := by
  cases h with
  | dropSegment hx ht hid => exact .inl ⟨rfl, fun _ => .dropSegment hx ht hid⟩
  | _ =>
    first
    | exact .inl ⟨rfl, fun _ => by constructor <;> assumption⟩
    | exact .inr ⟨_, rfl, fun _ => by constructor <;> assumption⟩

/-- A step leaves what is on its way to the party, or takes the first message. -/
lemma Peer.Step.inbox_nil (h : Step l x y x' y') (hx : x.inbox = []) : x'.inbox = [] := by
  cases h <;> first | exact hx | (rename_i hin; cases hin.symm.trans hx) | (rename_i hin _; cases hin.symm.trans hx) |
    (rename_i hin _ _; cases hin.symm.trans hx)

lemma Late.step_active (h : Late x y) (hs : Peer.Step l x y x' y') : Joined x' y' := by
  obtain ⟨_, _, _, _, _, _, _⟩ := x
  obtain ⟨hst, hy, id, ms, hin, hpair⟩ := h
  subst hst hin
  cases hs with
  | idle => exact .late ⟨rfl, hy, id, ms, rfl, hpair⟩
  | readInitActive _ hin =>
    cases hin
    exact .pair hpair
  | reject _ hin hm =>
    cases hin
    cases hm
  | readKeepalive _ hin | readTerm _ hin | dropSegment hin | readSegment hin => cases hin
  | _ => contradiction

lemma Late.step_passive (h : Late x y) (hl : y.Polite x l) (hs : Peer.Step l y x y' x') : Joined x' y' := by
  obtain ⟨hst, hy, id, ms, hin, hpair⟩ := h
  have hl' : y.Polite { x with state := .sessionEstablished, mru := (SessInit.new id).segmentMru, inbox := ms } l := by
    cases l with
    | segment => exact ⟨nofun, nofun⟩
    | _ => exact hl
  rcases hs.frame with ⟨rfl, hz⟩ | ⟨m, rfl, hz⟩
  · exact .late ⟨hst, hs.inbox_nil hy, id, ms, hin, (hpair.swap.step hl' (hz _)).swap⟩
  · refine .late ⟨hst, hs.inbox_nil hy, id, ms ++ [m], ?_, (hpair.swap.step hl' (hz _)).swap⟩
    rw [Peer.push, hin]
    rfl

/-! ## Runs -/

lemma Joined.step_active (h : Joined x y) (hl : x.Polite y l) (hs : Peer.Step l x y x' y') : Joined x' y' := by
  cases h with
  | early hx hy h => exact h.step_active hx hy hs
  | late h => exact h.step_active hs
  | pair h => exact .pair (h.step hl hs)

lemma Joined.step_passive (h : Joined x y) (hl : y.Polite x l) (hs : Peer.Step l y x y' x') : Joined x' y' := by
  cases h with
  | early hx hy h => exact h.step_passive hx hy hs
  | late h => exact h.step_passive hl hs
  | pair h => exact .pair (h.swap.step hl hs).swap

lemma Early.phase (h : Early st ms st' ms' n) : st.phase = .opening ∧ st'.phase = .opening := by
  cases h <;> exact ⟨rfl, rfl⟩

lemma Joined.not_broken (h : Joined x y) : x.state.phase ≠ .broken ∧ y.state.phase ≠ .broken := by
  cases h with
  | early _ _ h => rw [h.phase.1, h.phase.2]; exact ⟨nofun, nofun⟩
  | late h =>
    obtain ⟨hst, -, _, _, -, hpair⟩ := h
    rw [hst]
    exact ⟨nofun, hpair.snd.phase.2⟩
  | pair h => exact ⟨h.fst.phase.2, h.snd.phase.2⟩

namespace End

variable {ρ : Type} {tls : Tls} {p : End ρ × End ρ}

def new (sm : StateMachine) : End ρ := ⟨.new sm, [], [], [], []⟩

/-- A connection that has just been opened. -/
def Connected (p : End ρ × End ρ) : Prop :=
  ∃ nodeId nodeId' canTls canTls', p = (new (.newActive nodeId canTls), new (.newPassive nodeId' canTls'))

/-- An end closes only while no segment of the other one is unread, and sends a segment only while the other
one is not about to close: in `SendSessTerm` or `WaitSessTerm`, a keepalive to be sent first aside. -/
def Polite (p : End ρ × End ρ) (a : Bool × Act ρ) : Prop :=
  ((mover a.1 p).Closes a.2 → segmentsIn (mover a.1 p).inbox = []) ∧
    ((mover a.1 p).SendsSegment a.2 → (mover (!a.1) p).session.statemachine.state.phase ≠ .leaving ∧
      (mover (!a.1) p).session.statemachine.state.phase ≠ .waiting)

lemma joined_of_connected (h : Connected p) : Joined p.1.peer p.2.peer := by
  obtain ⟨_, _, _, _, rfl⟩ := h
  exact .early ⟨rfl, rfl, rfl, rfl⟩ ⟨rfl, rfl, rfl, rfl⟩ .start

lemma reaches_joined (h : (system tls Connected).Reaches Polite p) : Joined p.1.peer p.2.peer := by
  have hpeer := reaches_peer (fun q a => (mover a.1 q).Polite (mover (!a.1) q) a.2) (fun p hp => ?_) ?_ h
  · refine System.Reaches.invariant (fun q : Peer × Peer => Joined q.1 q.2) ?_ ?_ hpeer
    · rintro q ⟨p, hp, rfl⟩
      exact joined_of_connected hp
    · rintro ⟨x, y⟩ ⟨b, l⟩ ⟨x', y'⟩ hj hl hs
      cases b with
      | true => exact hj.step_active hl hs
      | false => exact hj.step_passive hl hs
  · obtain ⟨_, _, _, _, rfl⟩ := hp
    exact ⟨nofun, nofun⟩
  · rintro ⟨x, y⟩ b a l ⟨hclose, hsegment⟩ hc hs
    cases l with
    | quiet => trivial
    | close => cases b <;> exact hclose (hc rfl)
    | segment => cases b <;> exact hsegment (hs rfl)

/-- Neither of two sessions enters `SendMsgReject`. -/
theorem state_ne_sendMsgReject (h : (system tls Connected).Reaches Polite p) (r : MsgReject.ReasonCode) (t : UInt8) :
    p.1.session.statemachine.state ≠ .sendMsgReject r t ∧ p.2.session.statemachine.state ≠ .sendMsgReject r t := by
  obtain ⟨h1, h2⟩ := (reaches_joined h).not_broken
  exact ⟨fun h => h1 (congrArg States.phase h), fun h => h2 (congrArg States.phase h)⟩

/-- A session between `dtn://a` and `dtn://b` after its handshake. -/
def handshaken : End ρ × End ρ :=
  (⟨⟨⟨.sessionEstablished, false, "dtn://a", 0, some (.new false), some (.new false), some (.new "dtn://a"),
      some (.new "dtn://b"), false⟩, none, false, true, true, true, none⟩, [], [], [], []⟩,
   ⟨⟨⟨.sessionEstablished, false, "dtn://b", 0, some (.new false), some (.new false), some (.new "dtn://b"),
      some (.new "dtn://a"), false⟩, none, false, true, true, true, none⟩, [], [], [], []⟩)

lemma reaches_handshaken {allowed : End ρ × End ρ → Bool × Act ρ → Prop} (hread : ∀ p b, allowed p (b, .read))
    (hsend : ∀ p b, (mover b p).session.statemachine.state.tracker = none → allowed p (b, .send)) :
    (system tls Connected).Reaches allowed handshaken := by
  have h0 : (system tls Connected).Reaches allowed
      (new (.newActive "dtn://a" false), new (.newPassive "dtn://b" false)) := .init ⟨_, _, _, _, rfl⟩
  have h1 := Reaches.fst h0 .send (hsend _ _ rfl) trivial rfl
  have h2 := Reaches.snd h1 .read (hread _ _) trivial rfl
  have h3 := Reaches.snd h2 .send (hsend _ _ rfl) trivial rfl
  have h4 := Reaches.fst h3 .read (hread _ _) trivial rfl
  have h5 := Reaches.fst h4 .send (hsend _ _ rfl) trivial rfl
  have h6 := Reaches.snd h5 .read (hread _ _) trivial rfl
  have h7 := Reaches.snd h6 .send (hsend _ _ rfl) trivial rfl
  exact Reaches.fst h7 .read (hread _ _) trivial rfl

/-- A transfer is sent and acknowledged before the session is closed. -/
theorem state_ne_sendMsgReject_close : ∃ p : End Unit × End Unit,
    (system ⟨true, fun _ => true⟩ Connected).Reaches Polite p ∧ p.1.passedUp = [⟨0, [5]⟩] ∧
      p.1.session.statemachine.state = .waitSessTerm ∧
      p.2.session.statemachine.state = .sendSessTerm (some .resourceExhaustion) ∧
      ∀ r t, p.1.session.statemachine.state ≠ .sendMsgReject r t ∧
        p.2.session.statemachine.state ≠ .sendMsgReject r t := by
  have hread (p : End Unit × End Unit) (b : Bool) : Polite p (b, .read) := ⟨fun h => h.elim, nofun⟩
  have hsend (p : End Unit × End Unit) (b : Bool) (ht : (mover b p).session.statemachine.state.tracker = none) :
      Polite p (b, .send) := by
    refine ⟨fun h => h.elim, ?_⟩
    rintro ⟨-, tt, hst⟩
    rw [show (mover b p).session.statemachine.state = _ from hst] at ht
    cases ht
  have h0 : (system ⟨true, fun _ => true⟩ Connected).Reaches Polite handshaken := reaches_handshaken hread hsend
  have h1 := Reaches.snd h0 (.transfer [5] ()) ⟨fun h => h.elim, nofun⟩ (show [5].length ≤ isizeMax by decide) rfl
  have h2 := Reaches.snd h1 .send ⟨fun h => h.elim, fun _ => ⟨nofun, nofun⟩⟩ trivial rfl
  have h3 := Reaches.fst h2 .read (hread _ _) trivial rfl
  have h4 := Reaches.fst h3 .send (hsend _ _ rfl) trivial rfl
  have h5 := Reaches.snd h4 .read (hread _ _) trivial rfl
  have h6 := Reaches.fst h5 .close ⟨fun _ => rfl, nofun⟩ trivial rfl
  have h7 := Reaches.fst h6 .send (hsend _ _ rfl) trivial rfl
  have h8 := Reaches.snd h7 .read (hread _ _) trivial rfl
  exact ⟨_, h8, rfl, rfl, rfl, state_ne_sendMsgReject h8⟩

/-- A segment that the other end sends before it has read the `SESS_TERM` is taken for a fault of the protocol. -/
theorem reaches_sendMsgReject : ∃ p : End Unit × End Unit,
    (system ⟨true, fun _ => true⟩ Connected).Reaches (fun _ _ => True) p ∧ p.2.taken = [(⟨0, [5]⟩, ())] ∧
      p.1.session.statemachine.state = .sendMsgReject .messageUnexpected MessageType.xferSegment.toU8 := by
  have h0 : (system ⟨true, fun _ => true⟩ Connected).Reaches (fun _ _ => True) (handshaken : End Unit × End Unit) :=
    reaches_handshaken (fun _ _ => trivial) fun _ _ _ => trivial
  have h1 := Reaches.snd h0 (.transfer [5] ()) trivial (show [5].length ≤ isizeMax by decide) rfl
  have h2 := Reaches.snd h1 .send trivial trivial rfl
  have h3 := Reaches.fst h2 .close trivial trivial rfl
  have h4 := Reaches.fst h3 .send trivial trivial rfl
  have h5 := Reaches.fst h4 .read trivial trivial rfl
  exact ⟨_, h5, rfl, rfl⟩

end End

end Dtn.Tcpcl
