import Dtn.Proof.Tcpcl.Stream
import Dtn.Proof.Tcpcl.Transfer

/-!
# Two sessions joined by byte streams

A `Port` is an end of a connection with its reader: the codec, the bytes it
has buffered, and the bytes still on their way. `FramedRead` calls the codec on
its buffer until that gives nothing (`decode`), and only then takes more bytes
(`fill`). The messages on their way, which the end logs, are what these bytes
encode (`Synced`); so each step on bytes is a turn of the ends or none at all,
and transfers between two ports are faithful too, if no read ends where a decoder
panics (`transfers_faithful`).
-/

namespace Dtn.Tcpcl

variable {ρ : Type}

/-- The state machine waits for messages. -/
def Session.reads (s : Session ρ) : Bool :=
  match (s.statemachine.getInterests : Outcome Exit Interest) with
  | .ok i => i.readable
  | _ => false

/-- An end with its `FramedRead`: `primed` is its `is_readable`. -/
structure Port (ρ : Type) where
  point : End ρ
  codec : Codec
  buffer : List UInt8
  primed : Bool
  channel : List UInt8

/-- What happens at a port: `n` bytes arrive, the buffer is decoded, or something that is no read. -/
inductive PortAct (ρ : Type) where
  | fill (n : Nat)
  | decode
  | act (a : Act ρ)
  deriving DecidableEq

namespace Port

/-- Both ports after a turn of `x` that leaves the codec `c` and the buffer `buf`. -/
def turn (tls : Tls) (x y : Port ρ) (c : Codec) (buf : List UInt8) (ev : Event ρ) :
    Outcome Exit (Option (Port ρ × Port ρ)) := do
  match ← x.point.session.turn tls ev with
  | none => .ok none
  | some (s, es) => do
    let bytes ← Outcome.concat Codec.encode (Effect.writes es)
    let (px, py) := x.point.after y.point ev s es
    .ok (some ({ x with point := px, codec := c, buffer := buf },
      { y with point := py, channel := y.channel ++ bytes }))

def move (tls : Tls) (x y : Port ρ) : PortAct ρ → Outcome Exit (Option (Port ρ × Port ρ))
  | .fill n =>
    if x.point.session.reads && !x.primed && decide (0 < n) && decide (n ≤ x.channel.length) then
      .ok (some ({ x with buffer := x.buffer ++ x.channel.take n, channel := x.channel.drop n, primed := true }, y))
    else .ok none
  | .decode =>
    if x.point.session.reads && x.primed then
      match x.codec.decode x.buffer with
      | .ok (none, c, buf) => .ok (some ({ x with codec := c, buffer := buf, primed := false }, y))
      | .ok (some m, c, buf) => x.turn tls y c buf (.read (.ok m))
      -- the reader gives nothing more after an error, so what is left in it does not matter
      | .err e => x.turn tls y x.codec [] (.read (.error e))
      | .panic => .panic
    else .ok none
  | .act .read => .ok none
  | .act a =>
    match x.point.event a with
    | none => .ok none
    | some ev => x.turn tls y x.codec x.buffer ev

/-- The bytes taken off the stream that no message has been made of. -/
def pending (x : Port ρ) : Nat := x.buffer.length + if x.codec.currMessageType.isSome then 1 else 0

/-- What the environment does: nobody closes, the peer is not silent for too long, and a
transfer is not empty and not larger than the peer takes. -/
def Permitted (x : Port ρ) : PortAct ρ → Prop
  | .act (.transfer data _) => data ≠ [] ∧ data.length ≤ isizeMax ∧
      ∀ si ∈ x.point.session.statemachine.peerSessInit, data.length ≤ si.transferMru.toNat
  | .act a => End.Busy a
  | _ => True

/-- A session that has just been established, with nothing on its way. -/
structure Established (x : Port ρ) : Prop where
  state : x.point.session.statemachine.state = .sessionEstablished
  inits : Inits x.point.session.statemachine.exchanged true
  terminating : x.point.session.statemachine.terminating = false
  mru : ∀ si ∈ x.point.session.statemachine.peerSessInit, 1 ≤ si.segmentMru.toNat ∧ si.segmentMru.toNat ≤ maxSegmentMru
  receiving : x.point.session.receivingTransfer = none
  sender : x.point.session.transferResultSender = none
  blank : x.point.inbox = [] ∧ x.point.taken = [] ∧ x.point.passedUp = [] ∧ x.point.granted = []
  codec : x.codec = ⟨true, none⟩
  bytes : x.buffer = [] ∧ x.channel = []

/-- Two established sessions, each doing something in any order: the first one if the action says `true`. -/
def system (tls : Tls) : System (Port ρ × Port ρ) (Bool × PortAct ρ) where
  init w := w.1.Established ∧ w.2.Established
  step w a w' := (End.mover a.1 w).Permitted a.2 ∧ match a.1 with
    | true => move tls w.1 w.2 a.2 = .ok (some w')
    | false => move tls w.2 w.1 a.2 = .ok (some w'.swap)

/-- No bytes arrive such that they end inside a message where its decoder panics. -/
def Whole (w : Port ρ × Port ρ) (a : Bool × PortAct ρ) : Prop :=
  match a.2 with
  | .fill n => badCutAt Messages.encodedLength Messages.badAt (End.mover a.1 w).point.inbox
      ((End.mover a.1 w).pending + n) = false
  | _ => True

end Port

/-! ## Runs of two ports -/

lemma Flowing.plain (h : Flowing x y) (hm : m ∈ y.inbox) : m.Plain := by
  rcases h.inbox hm with rfl | ⟨a, rfl⟩ | ⟨fl, id, data, rfl, hlen⟩
  · exact ⟨⟨_, rfl⟩, trivial, rfl, ⟨_, rfl⟩⟩
  · exact ⟨⟨_, rfl⟩, trivial, rfl, ⟨_, rfl⟩⟩
  · exact plain_segment fl id hlen

namespace Port

variable {tls : Tls} {x y x' y' : Port ρ} {a : PortAct ρ}

/-- What a port knows of itself. -/
structure Good (x : Port ρ) : Prop where
  synced : Synced x.codec x.buffer x.channel x.point.inbox
  session : x.point.session.Inv true

/-- Two ports between which transfers flow. -/
structure Linked (x y : Port ρ) : Prop where
  working : End.Working x.point y.point
  fst : x.Good
  snd : y.Good

lemma Linked.swap (h : Linked x y) : Linked y x := ⟨h.working.swap, h.snd, h.fst⟩

lemma Established.mru_eq (h : x.Established) : 1 ≤ x.point.peer.mru.toNat ∧ x.point.peer.mru.toNat ≤
    maxSegmentMru := by
  obtain ⟨si, hsi⟩ := Option.isSome_iff_exists.mp h.inits.peerSessInit
  have hsi : x.point.session.statemachine.peerSessInit = some si := hsi
  have hmru : x.point.peer.mru = si.segmentMru := by
    change x.point.session.statemachine.peerMru = _
    rw [StateMachine.peerMru, hsi]
    rfl
  rw [hmru]
  exact h.mru si hsi

lemma Established.blank_peer (h : x.Established) : x.point.peer.Blank where
  terminating := h.terminating
  receiving := h.receiving
  accepted := congrArg (List.map Prod.fst) h.blank.2.1
  passedUp := h.blank.2.2.1

lemma Established.answers (h : x.Established) : x.point.Answers where
  log := by rw [h.blank.2.1, h.blank.2.2.2, h.sender]; rfl
  busy := by rw [h.state]; nofun
  free _ := h.sender

lemma Established.good (h : x.Established) : x.Good where
  synced := by
    rw [h.codec, h.bytes.1, h.bytes.2, h.blank.1]
    exact ⟨[], .fresh [], rfl, rfl⟩
  session := by
    refine ⟨?_, fun _ => h.inits⟩
    rw [h.state]
    exact h.inits

lemma Established.linked (hx : x.Established) (hy : y.Established) : Linked x y := by
  have hready : ∀ {x : Port ρ}, x.Established → x.point.Ready := fun h _ => by rw [h.state]; rfl
  have hempty : ∀ {x : Port ρ}, x.Established → ∀ t ∈ x.point.taken, t.1.data ≠ [] := fun h => by
    rw [h.blank.2.1]
    nofun
  refine ⟨⟨⟨pair_of_blank hx.blank_peer hy.blank_peer hx.state hy.state hx.blank.1 hy.blank.1 hx.mru_eq.1 hy.mru_eq.1,
    congrArg States.phase hx.state, congrArg States.phase hy.state, hx.mru_eq.2, hy.mru_eq.2⟩,
    ⟨hready hx, hready hy⟩, ⟨hx.answers, hy.answers⟩, ⟨hempty hx, hempty hy⟩⟩, hx.good, hy.good⟩

/-- What can come of a step: both ports stay linked, or the session ends, but not for a wrong acknowledgement. -/
def Goes (o : Outcome Exit (Option (Port ρ × Port ρ))) : Prop :=
  (∃ e, o = .err e ∧ e ≠ .tcpclError (.messageError .invalidACKValue)) ∨ o = .ok none ∨
    ∃ x' y', o = .ok (some (x', y')) ∧ Linked x' y'

/-- What a port reads is what its machine counts on. -/
lemma Linked.expects (h : Linked x y) (hin : x.point.inbox = m :: ms) :
    x.point.session.statemachine.Expects (.ok m) := by
  refine ⟨nofun, fun tt a hst hm => ?_⟩
  cases hm
  exact (h.working.flowing.ack hst hin).1

/-- No acknowledgement is for more than has been sent. -/
lemma Linked.not_invalidACKValue (h : Linked x y) (hin : x.point.inbox = m :: ms)
    (hi : (x.point.session.statemachine.getInterests : Outcome Exit _) = .ok i)
    (hread : i.readable = true) : ¬x.point.session.FailsOn (.ok m) (.messageError .invalidACKValue) := by
  rintro (h' | ⟨n, h'⟩ | ⟨sm, hd⟩)
  · cases h'
  · cases h'
  · cases StateMachine.decodeMessage_cases hi hread hd with
    | badAck hst _ hpos => exact absurd (h.working.flowing.ack hst hin).2 (Nat.not_le.mpr hpos)

lemma event_eq_read {x : End ρ} {a : Act ρ} (h : x.event a = some (.read r)) :
    ∃ m ms, r = .ok m ∧ x.inbox = m :: ms := by
  cases a with
  | read =>
    obtain ⟨m, hm, hr⟩ := Option.map_eq_some_iff.mp h
    cases hr
    obtain ⟨ms, hin⟩ := List.head?_eq_some_iff.mp hm
    exact ⟨m, ms, rfl, hin⟩
  | _ => cases h

lemma turn_goes {a : Act ρ} {ev : Event ρ} (h : Linked x y) (hb : End.Busy a)
    (hev : x.point.event a = some ev) (hc : Session.CodecAfter x.codec ev c)
    (hsync : Synced c buf x.channel (x.point.unread ev)) : Goes (x.turn tls y c buf ev) := by
  have hinv : x.point.session.Inv x.codec.contactHeaderDone := h.fst.synced.done ▸ h.fst.session
  have hexp : Session.Expected (x.point.session, x.codec) ev := by
    cases ev with
    | read =>
      obtain ⟨m, ms, rfl, hin⟩ := event_eq_read hev
      exact h.expects hin
    | _ => trivial
  have hnext : x.point.session.turn tls ev ≠ .panic ∧ _ := Session.turn_goes hinv hc hexp
  unfold turn
  cases ht : x.point.session.turn tls ev with
  | panic => exact absurd ht hnext.1
  | err e =>
    refine .inl ⟨e, rfl, ?_⟩
    rintro rfl
    obtain ⟨_, _, rfl, hi, hread, hfail⟩ := Session.turn_eq_tcpclError hinv hc hexp ht
    obtain ⟨m, _, rfl, hin⟩ := event_eq_read hev
    exact h.not_invalidACKValue hin hi hread hfail
  | ok o =>
    rcases o with _ | ⟨s, es⟩
    · exact .inr (.inl rfl)
    · have hmove : x.point.move tls y.point a = .ok (some (x.point.after y.point ev s es)) := by simp_all [End.move]
      have hwork := h.working.move hb hmove
      -- what the turn has written is on its way to the other port, so it can be encoded
      obtain ⟨_, hw⟩ := concat_encode_eq_ok fun m (hm : m ∈ Effect.writes es) =>
        hwork.flowing.plain (List.mem_append_right y.point.inbox hm)
      simp only [Outcome.ok_bind, hw]
      exact .inr (.inr ⟨_, _, rfl, hwork, ⟨hsync, hsync.done ▸ hnext.2 s es ht⟩, ⟨h.snd.synced.push hw, h.snd.session⟩⟩)

/-- Each step that the condition permits keeps the ports linked, and it does not panic. -/
lemma move_goes (tls : Tls) (h : Linked x y) (hp : x.Permitted a)
    (hw : ∀ n, a = .fill n → badCutAt Messages.encodedLength Messages.badAt x.point.inbox (x.pending + n) = false) :
    Goes (x.move tls y a) := by
  cases a with
  | fill n =>
    rw [move]
    split
    · rename_i hcond
      have hn : n ≤ x.channel.length := by simpa using (Bool.and_eq_true_iff.mp hcond).2
      exact .inr (.inr ⟨_, _, rfl, h.working, ⟨h.fst.synced.fill (hw n rfl) hn, h.fst.session⟩, h.snd⟩)
    · exact .inr (.inl rfl)
  | decode =>
    rw [move]
    split
    · rcases h.fst.synced.decode fun m hm => h.working.flowing.swap.plain hm with
        ⟨c, buf, hd, hsync⟩ | ⟨m, ms, buf, hin, hd, hsync⟩
      · rw [hd]
        exact .inr (.inr ⟨_, _, rfl, h.working, ⟨hsync, h.fst.session⟩, h.snd⟩)
      · rw [hd]
        refine turn_goes (a := .read) h trivial ?_ (.message hd) ?_
        · rw [End.event, hin]
          rfl
        · rwa [End.unread, hin]
    · exact .inr (.inl rfl)
  | act a =>
    cases a with
    | read => exact .inr (.inl rfl)
    | transfer data r => exact turn_goes (a := .transfer data r) h ⟨hp.1, hp.2.1⟩ rfl ⟨hp.2.1, rfl⟩ h.fst.synced
    | send => exact turn_goes (a := .send) h trivial rfl rfl h.fst.synced
    | tick idle => exact turn_goes (a := .tick idle) h hp rfl rfl h.fst.synced
    | close => exact hp.elim

lemma Goes.linked (h : Goes (x.move tls y a)) (hm : x.move tls y a = .ok (some (x', y'))) : Linked x' y' := by
  rcases h with ⟨_, he, -⟩ | hn | ⟨_, _, hs, hl⟩
  · cases he.symm.trans hm
  · cases hn.symm.trans hm
  · cases hs.symm.trans hm
    exact hl

lemma reaches_linked (h : (system tls).Reaches Whole w) : Linked w.1 w.2 := by
  refine System.Reaches.invariant (fun w => Linked w.1 w.2) ?_ ?_ h
  · rintro w ⟨hx, hy⟩
    exact hx.linked hy
  · rintro ⟨_, _⟩ ⟨b, _⟩ ⟨_, _⟩ hl hw ⟨hp, hs⟩
    cases b with
    | true => exact (move_goes tls hl hp fun n ha => by subst ha; exact hw).linked hs
    | false => exact ((move_goes tls hl.swap hp fun n ha => by subst ha; exact hw).linked hs).swap

/-- What two ports do is faithful to the transfers, in both directions, and neither panics, takes an
acknowledgement for wrong or rejects a message. -/
theorem transfers_faithful {w : Port ρ × Port ρ} (h : (system tls).Reaches Whole w) :
    (∀ b, End.Faithful (End.mover b w).point (End.mover (!b) w).point) ∧
    (∀ b a, (End.mover b w).Permitted a → Whole w (b, a) →
      move tls (End.mover b w) (End.mover (!b) w) a ≠ .panic ∧
      move tls (End.mover b w) (End.mover (!b) w) a ≠ .err (.tcpclError (.messageError .invalidACKValue))) ∧
    ∀ b r t, (End.mover b w).point.session.statemachine.state ≠ .sendMsgReject r t := by
  have hl : ∀ b, Linked (End.mover b w) (End.mover (!b) w) := by
    rintro (_ | _)
    · exact (reaches_linked h).swap
    · exact reaches_linked h
  refine ⟨fun b => (hl b).working.faithful, fun b a hp hw => ?_, fun b r t hst => ?_⟩
  · rcases move_goes tls (hl b) hp fun n ha => by subst ha; exact hw with ⟨e, he, hne⟩ | hn | ⟨x', y', hs, -⟩
    · grind
    · rw [hn]
      exact ⟨nofun, nofun⟩
    · rw [hs]
      exact ⟨nofun, nofun⟩
  · cases (hl b).working.flowing.fst_up.symm.trans (congrArg States.phase hst)

section Runs

variable {allowed : Port ρ × Port ρ → Bool × PortAct ρ → Prop}

lemma Reaches.fst (h : (system tls).Reaches allowed (x, y)) (a : PortAct ρ) (ha : allowed (x, y) (true, a))
    (hp : x.Permitted a) (hs : x.move tls y a = .ok (some (x', y'))) : (system tls).Reaches allowed (x', y') :=
  .step h ha ⟨hp, hs⟩

lemma Reaches.snd (h : (system tls).Reaches allowed (x, y)) (a : PortAct ρ) (ha : allowed (x, y) (false, a))
    (hp : y.Permitted a) (hs : y.move tls x a = .ok (some (y', x'))) : (system tls).Reaches allowed (x', y') :=
  .step h ha ⟨hp, hs⟩

end Runs

/-- An end with nothing on its way. -/
def quiet (e : End ρ) : Port ρ := ⟨e, ⟨true, none⟩, [], false, []⟩

lemma established_handshaken : (quiet (End.handshaken : End ρ × End ρ).1).Established ∧
    (quiet (End.handshaken : End ρ × End ρ).2).Established := by
  have hmru : ∀ id, ∀ si ∈ some (SessInit.new id), 1 ≤ si.segmentMru.toNat ∧ si.segmentMru.toNat ≤ maxSegmentMru := by
    rintro id si ⟨⟩
    change 1 ≤ (UInt64.ofNat maxSegmentMru).toNat ∧ (UInt64.ofNat maxSegmentMru).toNat ≤ maxSegmentMru
    decide
  exact ⟨⟨rfl, ⟨⟨rfl, rfl, rfl⟩, rfl, rfl⟩, rfl, hmru _, rfl, rfl, ⟨rfl, rfl, rfl, rfl⟩, rfl, ⟨rfl, rfl⟩⟩,
    ⟨rfl, ⟨⟨rfl, rfl, rfl⟩, rfl, rfl⟩, rfl, hmru _, rfl, rfl, ⟨rfl, rfl, rfl, rfl⟩, rfl, ⟨rfl, rfl⟩⟩⟩

theorem transfers_faithful_one : ∃ w : Port Unit × Port Unit, (system ⟨true, fun _ => true⟩).Reaches Whole w ∧
    w.2.point.passedUp = [⟨0, [5]⟩] ∧ w.1.point.granted = [()] ∧ End.Faithful w.1.point w.2.point := by
  have h0 : (system ⟨true, fun _ => true⟩).Reaches Whole
      (quiet (End.handshaken : End Unit × End Unit).1, quiet (End.handshaken : End Unit × End Unit).2) :=
    .init established_handshaken
  have h1 := Reaches.fst h0 (.act (.transfer [5] ())) trivial ⟨nofun, by decide, by rintro si ⟨⟩; decide⟩ rfl
  have h2 := Reaches.fst h1 (.act .send) trivial trivial rfl
  have h3 := Reaches.snd h2 (.fill 23) rfl trivial rfl
  have h4 := Reaches.snd h3 .decode trivial trivial rfl
  have h5 := Reaches.snd h4 (.act .send) trivial trivial rfl
  have h6 := Reaches.fst h5 (.fill 18) rfl trivial rfl
  have h7 := Reaches.fst h6 .decode trivial trivial rfl
  exact ⟨_, h7, rfl, rfl, (transfers_faithful h7).1 true⟩

/-- The first segment of a transfer arrives in two parts, the first one with its type, its flags, its
transfer id and one byte of the length behind them. The decoder has more than it asks for, reads the length, and
panics. -/
theorem reaches_decode_panic : ∃ w : Port Unit × Port Unit,
    (system ⟨true, fun _ => true⟩).Reaches (fun _ _ => True) w ∧ w.1.point.taken = [(⟨0, [5]⟩, ())] ∧
      w.2.buffer.length = 11 ∧ w.2.channel.length = 12 ∧ w.2.Permitted .decode ∧
      move ⟨true, fun _ => true⟩ w.2 w.1 .decode = .panic := by
  have h0 : (system ⟨true, fun _ => true⟩).Reaches (fun _ _ => True)
      (quiet (End.handshaken : End Unit × End Unit).1, quiet (End.handshaken : End Unit × End Unit).2) :=
    .init established_handshaken
  have h1 := Reaches.fst h0 (.act (.transfer [5] ())) trivial ⟨nofun, by decide, by rintro si ⟨⟩; decide⟩ rfl
  have h2 := Reaches.fst h1 (.act .send) trivial trivial rfl
  have h3 := Reaches.snd h2 (.fill 11) trivial trivial rfl
  exact ⟨_, h3, rfl, rfl, rfl, trivial, rfl⟩

end Port

end Dtn.Tcpcl
