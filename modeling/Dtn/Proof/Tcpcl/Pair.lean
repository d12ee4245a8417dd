import Dtn.Proof.Tcpcl.Flow
import Dtn.Proof.Tcpcl.Link

/-!
# What holds between two established parties

`Aspect` is what matters of a party once it is established: its phase, the
transfer and the acknowledgement it has to send, and what is on its way to it. A
keepalive that it has to send first does not matter. `Half a b` is the
invariant for the direction from `a` to `b`: the flow of transfers is good while
`a` is up, a `SESS_TERM` is the last thing sent but for keepalives, and
the phases fit. `Half.step` shows that a step keeps both halves, if
nobody closes with segments unread and nobody sends a segment to a party that
closes.
-/

namespace Dtn.Tcpcl

open List StateMachine

variable {s : XferSegment} {ms : List Messages} {m : Messages}

/-! ## Phases -/

inductive Phase where
  | opening
  | up
  /-- About to send `SESS_TERM`. -/
  | leaving
  /-- Waiting for the other's `SESS_TERM`. -/
  | waiting
  | closed
  | broken
  deriving DecidableEq

namespace States

def phase : States → Phase
  | .sessionEstablished | .sendXferAck _ | .sendXferSegments _ | .sendXferSegmentsAndAck _ _ => .up
  | .sendKeepalive s => s.phase
  | .sendSessTerm _ => .leaving
  | .waitSessTerm => .waiting
  | .connectionClose => .closed
  | .sendMsgReject _ _ | .shouldNeverExist => .broken
  | _ => .opening

/-- The acknowledgement to be sent. -/
def pendingAck : States → Option XferAck
  | .sendXferAck a | .sendXferSegmentsAndAck _ a => some a
  | .sendKeepalive s => s.pendingAck
  | _ => none

lemma tracker_eq_none {s : States} (h : s.phase ≠ .up) : s.tracker = none := by
  induction s with
  | sendKeepalive _ ih => exact ih h
  | sendXferSegments | sendXferSegmentsAndAck => exact absurd rfl h
  | _ => rfl

lemma pendingAck_eq_none {s : States} (h : s.phase ≠ .up) : s.pendingAck = none := by
  induction s with
  | sendKeepalive _ ih => exact ih h
  | sendXferAck | sendXferSegmentsAndAck => exact absurd rfl h
  | _ => rfl

end States

/-- What matters of an established party. -/
structure Aspect where
  phase : Phase
  terminating : Bool
  mru : UInt64
  tracker : Option TransferTracker
  pendingAck : Option XferAck
  receiving : Option Transfer
  inbox : List Messages
  accepted : List Transfer
  passedUp : List Transfer
  tracker_eq_none : phase ≠ .up → tracker = none
  pendingAck_eq_none : phase ≠ .up → pendingAck = none

def Peer.aspect (x : Peer) : Aspect where
  phase := x.state.phase
  terminating := x.terminating
  mru := x.mru
  tracker := x.state.tracker
  pendingAck := x.state.pendingAck
  receiving := x.receiving
  inbox := x.inbox
  accepted := x.accepted
  passedUp := x.passedUp
  tracker_eq_none := States.tracker_eq_none
  pendingAck_eq_none := States.pendingAck_eq_none

lemma Peer.Acks.spec (h : Acks st a st') : st.phase = .up ∧ st'.phase = .up ∧
    st'.tracker = st.tracker ∧ st.pendingAck = none ∧ st'.pendingAck = some a := by
  cases h <;> exact ⟨rfl, rfl, rfl, rfl, rfl⟩

/-! ## Messages on their way -/

def segmentsIn (ms : List Messages) : List XferSegment := ms.filterMap fun | .xferSegment x => some x | _ => none

def acksIn (ms : List Messages) : List XferAck := ms.filterMap fun | .xferAck a => some a | _ => none

def termIn (ms : List Messages) : Bool := ms.any fun | .sessTerm _ => true | _ => false

@[simp] lemma segmentsIn_append (ms ms' : List Messages) : segmentsIn (ms ++ ms') = segmentsIn ms ++ segmentsIn ms' :=
  filterMap_append

@[simp] lemma acksIn_append (ms ms' : List Messages) : acksIn (ms ++ ms') = acksIn ms ++ acksIn ms' :=
  filterMap_append

@[simp] lemma termIn_append (ms ms' : List Messages) : termIn (ms ++ ms') = (termIn ms || termIn ms') :=
  any_append

/-- Messages of a session, with nothing but keepalives behind a `SESS_TERM`. -/
def Orderly : List Messages → Prop
  | [] => True
  | .sessTerm _ :: ms => ∀ m ∈ ms, m = .keepalive ⟨⟩
  | .keepalive _ :: ms | .xferSegment _ :: ms | .xferAck _ :: ms => Orderly ms
  | _ => False

lemma orderly_of_keepalives (h : ∀ m ∈ ms, m = .keepalive ⟨⟩) : Orderly ms := by
  induction ms with
  | nil => trivial
  | cons m _ ih =>
    rw [h m mem_cons_self]
    exact ih fun m hm => h m (mem_cons_of_mem _ hm)

lemma silent_of_keepalives (h : ∀ m ∈ ms, m = .keepalive ⟨⟩) :
    segmentsIn ms = [] ∧ acksIn ms = [] ∧ termIn ms = false := by
  induction ms with
  | nil => exact ⟨rfl, rfl, rfl⟩
  | cons m _ ih =>
    rw [h m mem_cons_self]
    exact ih fun m hm => h m (mem_cons_of_mem _ hm)

lemma Orderly.cases (h : Orderly ms) (ht : termIn ms = false) (hm : m ∈ ms) :
    m = .keepalive ⟨⟩ ∨ (∃ a, m = .xferAck a) ∨ ∃ s ∈ segmentsIn ms, m = .xferSegment s := by
  induction ms with
  | nil => cases hm
  | cons m' _ ih =>
    rcases mem_cons.mp hm with rfl | hin
    · cases m with
      | sessTerm => cases ht
      | keepalive => exact .inl rfl
      | xferAck a => exact .inr (.inl ⟨a, rfl⟩)
      | xferSegment s => exact .inr (.inr ⟨s, mem_cons_self, rfl⟩)
      | contactHeader | sessInit | msgReject | xferRefuse => exact h.elim
    · cases m' with
      | sessTerm => cases ht
      | keepalive | xferAck => exact ih h ht hin
      | xferSegment =>
        rcases ih h ht hin with h | h | ⟨s, hs, rfl⟩
        · exact .inl h
        · exact .inr (.inl h)
        · exact .inr (.inr ⟨s, mem_cons_of_mem _ hs, rfl⟩)
      | contactHeader | sessInit | msgReject | xferRefuse => exact h.elim

lemma Orderly.push_keepalive (h : Orderly ms) : Orderly (ms ++ [.keepalive ⟨⟩]) := by
  induction ms with
  | nil => trivial
  | cons m _ ih =>
    cases m with
    | sessTerm =>
      intro m hm
      rcases mem_append.mp hm with hm | hm
      · exact h m hm
      · exact mem_singleton.mp hm
    | keepalive | xferSegment | xferAck => exact ih h
    | contactHeader | sessInit | msgReject | xferRefuse => exact h.elim

lemma Orderly.push (h : Orderly ms) (ht : termIn ms = false) (hm : Orderly [m]) : Orderly (ms ++ [m]) := by
  induction ms with
  | nil => exact hm
  | cons m' _ ih =>
    cases m' with
    | sessTerm => cases ht
    | keepalive | xferSegment | xferAck => exact ih h ht
    | contactHeader | sessInit | msgReject | xferRefuse => exact h.elim

/-! ## The invariant -/

/-- The flow of transfers from `a` to `b`. -/
def flow (a b : Aspect) : Flow where
  tracker := a.tracker
  segments := segmentsIn b.inbox
  acks := acksIn a.inbox ++ b.pendingAck.toList
  receiving := b.receiving
  accepted := a.accepted
  passedUp := b.passedUp

/-- The direction from `a` to `b`. -/
structure Half (a b : Aspect) : Prop where
  phase : a.phase ≠ .opening ∧ a.phase ≠ .broken
  mru : 0 < a.mru.toNat
  orderly : Orderly b.inbox
  /-- Who has sent `SESS_TERM` waits for the other's, or is gone. -/
  term : termIn b.inbox = true → a.phase = .waiting ∨ a.phase = .closed
  /-- Nothing comes that `b` could not read any more. -/
  quiet : b.phase = .leaving ∨ b.phase = .waiting → segmentsIn b.inbox = [] ∧ acksIn b.inbox = []
  closed : a.phase = .closed → b.phase = .waiting ∨ b.phase = .closed
  reply : a.phase = .leaving → a.terminating = true → b.phase = .waiting
  fresh : a.phase = .up → a.terminating = false
  flow : a.phase = .up → (flow a b).Ok a.mru.toNat
  ended : a.phase ≠ .up → segmentsIn b.inbox = [] ∧ acksIn a.inbox = [] ∧ b.pendingAck = none

/-- Both directions. -/
structure Pair (x y : Peer) : Prop where
  fst : Half x.aspect y.aspect
  snd : Half y.aspect x.aspect

lemma Pair.swap (h : Pair x y) : Pair y x := ⟨h.snd, h.fst⟩

namespace Half

lemma not_termIn (h : Half a b) (ha : a.phase ≠ .waiting) (ha' : a.phase ≠ .closed) : termIn b.inbox = false := by
  grind [h.term]

lemma up_of_segment (h : Half a b) (hs : segmentsIn b.inbox = s :: ss) : a.phase = .up := by
  by_contra hne
  rw [(h.ended hne).1] at hs
  cases hs

/-- An end that is up and sends nothing has nothing in transit. -/
lemma idle (h : Half a b) (ha : a.phase = .up) (ht : a.tracker = none) :
    segmentsIn b.inbox = [] ∧ acksIn a.inbox = [] ∧ b.pendingAck = none := by
  obtain ⟨hs, hk, -, -⟩ := (h.flow ha).of_none ht
  obtain ⟨hk, hb⟩ := append_eq_nil_iff.mp hk
  exact ⟨hs, hk, Option.toList_eq_nil_iff.mp hb⟩

end Half

namespace Pair

variable {x y : Peer}
lemma close (h : Pair x y) (hst : x.state = .sessionEstablished) (hs : segmentsIn x.inbox = [])
    (r : Option SessTerm.ReasonCode) : Pair { x with state := .sendSessTerm r } y := by
  obtain ⟨_, _, mru, _, _, _, _⟩ := x
  subst hst
  obtain ⟨h1, h2⟩ := h
  have hidle := h1.idle rfl rfl
  refine ⟨⟨⟨nofun, nofun⟩, h1.mru, h1.orderly, ?_, h1.quiet, nofun, ?_, nofun, nofun, fun _ => hidle⟩,
    { h2 with quiet := fun _ => ⟨hs, hidle.2.1⟩, closed := ?_, reply := ?_ }⟩
  · intro ht
    rcases h1.term ht with h | h <;> cases h
  · intro _ ht
    cases (h1.fresh rfl).symm.trans ht
  · intro hy
    rcases h2.closed hy with h | h <;> cases h
  · intro hy ht
    cases h2.reply hy ht

lemma transfer (h : Pair x y) (hst : x.state = .sessionEstablished) (ht : t.data.length ≤ isizeMax) :
    Pair { x with state := .sendXferSegments ⟨t, 0, 0⟩, accepted := x.accepted ++ [t] } y := by
  obtain ⟨_, _, mru, _, _, _, _⟩ := x
  subst hst
  obtain ⟨h1, h2⟩ := h
  exact ⟨⟨⟨nofun, nofun⟩, h1.mru, h1.orderly, h1.term, h1.quiet, nofun, nofun, h1.fresh,
    fun _ => (h1.flow rfl).start rfl ht, fun h => absurd rfl h⟩,
    { h2 with quiet := nofun }⟩

lemma push_keepalive (h : Pair x y) : Pair x (y.push (.keepalive ⟨⟩)) := by
  obtain ⟨h1, h2⟩ := h
  have hseg : segmentsIn (y.inbox ++ [.keepalive ⟨⟩]) = segmentsIn y.inbox := by
    rw [segmentsIn_append]; exact append_nil _
  have hack : acksIn (y.inbox ++ [.keepalive ⟨⟩]) = acksIn y.inbox := by rw [acksIn_append]; exact append_nil _
  have hterm : termIn (y.inbox ++ [.keepalive ⟨⟩]) = termIn y.inbox := by rw [termIn_append]; exact Bool.or_false _
  have hflow : flow x.aspect (y.push (.keepalive ⟨⟩)).aspect = flow x.aspect y.aspect := by
    unfold flow
    simp only [Peer.push, Peer.aspect, hseg]
  have hback : flow (y.push (.keepalive ⟨⟩)).aspect x.aspect = flow y.aspect x.aspect := by
    unfold flow
    simp only [Peer.push, Peer.aspect, hack]
  refine ⟨⟨h1.phase, h1.mru, h1.orderly.push_keepalive, fun ht => h1.term (hterm ▸ ht), ?_, h1.closed,
    h1.reply, h1.fresh,
    ?_, ?_⟩, { h2 with flow := ?_, ended := ?_ }⟩
  · intro hy
    change segmentsIn (y.inbox ++ _) = [] ∧ acksIn (y.inbox ++ _) = []
    rw [hseg, hack]
    exact h1.quiet hy
  · rw [hflow]
    exact h1.flow
  · intro hx
    change segmentsIn (y.inbox ++ _) = [] ∧ _
    rw [hseg]
    exact h1.ended hx
  · rw [hback]
    exact h2.flow
  · intro hy
    change _ ∧ acksIn (y.inbox ++ _) = [] ∧ _
    rw [hack]
    exact h2.ended hy

/-- An acknowledgement moves from the party to the channel. -/
lemma push_ack (h : Pair x y) (hup : x.state.phase = .up) (hpend : x.state.pendingAck = some a)
    (hx' : x'.aspect = { x.aspect with pendingAck := none, pendingAck_eq_none := fun _ => rfl }) :
    Pair x' (y.push (.xferAck a)) := by
  obtain ⟨h1, h2⟩ := h
  have hseg : segmentsIn (y.inbox ++ [.xferAck a]) = segmentsIn y.inbox := by
    rw [segmentsIn_append]; exact append_nil _
  have hack : acksIn (y.inbox ++ [.xferAck a]) = acksIn y.inbox ++ [a] := acksIn_append _ _
  have hterm : termIn (y.inbox ++ [.xferAck a]) = termIn y.inbox := by rw [termIn_append]; exact Bool.or_false _
  have hfree : termIn y.inbox = false := h1.not_termIn (by rw [show x.aspect.phase = _ from hup]; nofun)
    (by rw [show x.aspect.phase = _ from hup]; nofun)
  have hyup : y.state.phase = .up := by
    by_contra hne
    cases hpend.symm.trans (h2.ended hne).2.2
  have hflow : flow { x.aspect with pendingAck := none, pendingAck_eq_none := fun _ => rfl }
    (y.push (.xferAck a)).aspect =
      flow x.aspect y.aspect := by
    unfold flow
    simp only [Peer.push, Peer.aspect, hseg]
  have hback : flow (y.push (.xferAck a)).aspect
      { x.aspect with pendingAck := none, pendingAck_eq_none := fun _ => rfl } = flow y.aspect x.aspect := by
    grind [flow, Peer.push, Peer.aspect]
  refine ⟨?_, ?_⟩
  · rw [hx']
    refine ⟨h1.phase, h1.mru, h1.orderly.push hfree trivial, fun ht => h1.term (hterm ▸ ht), ?_, h1.closed, h1.reply,
      h1.fresh, ?_, fun hne => absurd hup hne⟩
    · intro hy
      rw [show (y.push (.xferAck a)).aspect.phase = .up from hyup] at hy
      rcases hy with hy | hy <;> cases hy
    · rw [hflow]
      exact h1.flow
  · rw [hx']
    refine ⟨h2.phase, h2.mru, h2.orderly, h2.term, h2.quiet, h2.closed, h2.reply, h2.fresh, ?_, fun hne =>
      absurd hyup hne⟩
    rw [hback]
    exact h2.flow

lemma push_segment (h : Pair x y) (hst : x.state = .sendXferSegments tt) (hpos : tt.pos ≠ tt.transfer.data.length)
    (hs : (nextSegment x.mru tt : Outcome Exit _) = .ok (s, e))
    (hy : y.state.phase ≠ .leaving ∧ y.state.phase ≠ .waiting) :
    Pair { x with state := Peer.afterSegment tt e } (y.push (.xferSegment s)) := by
  obtain ⟨_, _, mru, _, inbox, _, _⟩ := x
  subst hst
  obtain ⟨h1, h2⟩ := h
  have hf := h1.flow rfl
  have hok : tt.Ok mru := hf.tracker_ok rfl
  cases hs.symm.trans (nextSegment_eq_ok hok hpos)
  obtain ⟨hend, hf'⟩ := hf.send h1.mru rfl hpos
  rw [Peer.afterSegment, if_neg fun h => hend h.2]
  have hseg : segmentsIn (y.inbox ++ [.xferSegment (segmentOf mru tt)]) =
      segmentsIn y.inbox ++ [segmentOf mru tt] := segmentsIn_append _ _
  have hack : acksIn (y.inbox ++ [.xferSegment (segmentOf mru tt)]) = acksIn y.inbox := by
    rw [acksIn_append]; exact append_nil _
  have hterm : termIn (y.inbox ++ [.xferSegment (segmentOf mru tt)]) = termIn y.inbox := by
    rw [termIn_append]; exact Bool.or_false _
  refine ⟨⟨⟨by rintro ⟨⟩, by rintro ⟨⟩⟩, h1.mru,
    h1.orderly.push (h1.not_termIn (by rintro ⟨⟩) (by rintro ⟨⟩)) trivial, fun ht => h1.term (hterm ▸ ht), ?_,
    by rintro ⟨⟩, by rintro ⟨⟩, h1.fresh, fun _ => ?_, fun h => absurd rfl h⟩,
    { h2 with quiet := (by rintro (h | h) <;> cases h), flow := fun hup => ?_, ended := fun hne => ?_ }⟩
  · rintro (h | h)
    · exact absurd h hy.1
    · exact absurd h hy.2
  · unfold flow at hf' ⊢
    simp only [Peer.push, Peer.aspect, hseg] at hf' ⊢
    exact hf'
  · have hb := h2.flow hup
    unfold flow at hb ⊢
    simp only [Peer.push, Peer.aspect, hack] at hb ⊢
    exact hb
  · obtain ⟨he1, he2, he3⟩ := h2.ended hne
    exact ⟨he1, hack.trans he2, he3⟩

lemma push_term (h : Pair x y) (hst : x.state = .sendSessTerm r) (st : SessTerm) :
    Pair { x with state := if x.terminating then .connectionClose else .waitSessTerm, terminating := true }
      (y.push (.sessTerm st)) := by
  obtain ⟨_, terminating, mru, receiving, inbox, accepted, passedUp⟩ := x
  subst hst
  obtain ⟨h1, h2⟩ := h
  have hseg : segmentsIn (y.inbox ++ [.sessTerm st]) = segmentsIn y.inbox := by
    rw [segmentsIn_append]; exact append_nil _
  have hack : acksIn (y.inbox ++ [.sessTerm st]) = acksIn y.inbox := by rw [acksIn_append]; exact append_nil _
  have horderly := h1.orderly.push (h1.not_termIn nofun nofun) (m := .sessTerm st) nofun
  have hquiet : y.state.phase = .leaving ∨ y.state.phase = .waiting →
      segmentsIn (y.inbox ++ [.sessTerm st]) = [] ∧ acksIn (y.inbox ++ [.sessTerm st]) = [] := by
    rw [hseg, hack]
    exact h1.quiet
  have hended : segmentsIn (y.inbox ++ [.sessTerm st]) = [] ∧ acksIn inbox = [] ∧ y.state.pendingAck = none := by
    rw [hseg]
    exact h1.ended nofun
  have hback : ∀ hup : y.state.phase = .up, (flow (y.push (.sessTerm st)).aspect
      (⟨.sendSessTerm r, terminating, mru, receiving, inbox, accepted, passedUp⟩ : Peer).aspect).Ok y.mru.toNat := by
    grind [h2.flow, flow, Peer.push, Peer.aspect]
  have hended' : y.state.phase ≠ .up → segmentsIn inbox = [] ∧ acksIn (y.inbox ++ [.sessTerm st]) = [] ∧
      (none : Option XferAck) = none := by
    rw [hack]
    exact h2.ended
  have hnoreply : y.state.phase = .leaving → y.terminating = true → False := fun hy ht => nomatch h2.reply hy ht
  cases terminating with
  | false =>
    exact ⟨⟨⟨nofun, nofun⟩, h1.mru, horderly, fun _ => .inl rfl, hquiet, nofun, nofun, nofun, nofun, fun _ => hended⟩,
      ⟨h2.phase, h2.mru, h2.orderly, h2.term, fun _ => h2.quiet (.inl rfl), fun _ => .inl rfl,
        fun hy ht => (hnoreply hy ht).elim, h2.fresh, hback, hended'⟩⟩
  | true =>
    exact ⟨⟨⟨nofun, nofun⟩, h1.mru, horderly, fun _ => .inr rfl, hquiet, fun _ => .inl (h1.reply rfl rfl), nofun, nofun,
        nofun, fun _ => hended⟩,
      ⟨h2.phase, h2.mru, h2.orderly, h2.term, nofun, fun _ => .inr rfl,
        fun hy ht => (hnoreply hy ht).elim, h2.fresh, hback, hended'⟩⟩

lemma read_keepalive (h : Pair x y) (hx : x.inbox = .keepalive k :: ms) : Pair { x with inbox := ms } y := by
  obtain ⟨_, _, mru, _, _, _, _⟩ := x
  subst hx
  obtain ⟨h1, h2⟩ := h
  exact ⟨{ h1 with },
    { h2 with }⟩

/-- Who reads a `SESS_TERM` while it is up answers it; the other one waits for that. -/
lemma read_term (h : Pair x y) (hup : x.state.phase = .up) (hx : x.inbox = .sessTerm st :: ms)
    (r : Option SessTerm.ReasonCode) :
    Pair { x with state := .sendSessTerm r, terminating := true, inbox := ms } y := by
  obtain ⟨h1, h2⟩ := h
  have hord : Orderly x.inbox := h2.orderly
  rw [hx] at hord
  obtain ⟨hseg, hack, hterm⟩ := silent_of_keepalives hord
  have hy : y.state.phase = .waiting := by
    rcases h2.term (by rw [show x.aspect.inbox = _ from hx]; rfl) with hy | hy
    · exact hy
    · rcases h2.closed hy with h | h <;> cases hup.symm.trans h
  have hyup : y.state.phase ≠ .up := by rw [hy]; nofun
  refine ⟨⟨⟨nofun, nofun⟩, h1.mru, h1.orderly, fun ht => ?_, h1.quiet, nofun, fun _ _ => hy, nofun, nofun,
      fun _ => ⟨(h1.quiet (.inr hy)).1, hack, y.aspect.pendingAck_eq_none hyup⟩⟩,
    ⟨h2.phase, h2.mru, orderly_of_keepalives hord, fun ht => ?_, fun _ => ⟨hseg, hack⟩, fun hc => ?_, fun hl _ => ?_,
      fun hu => absurd hu hyup, fun hu => absurd hu hyup, fun _ => ⟨hseg, (h2.ended hyup).2.1, rfl⟩⟩⟩
  · rcases h1.term ht with h | h <;> cases hup.symm.trans h
  · cases hterm.symm.trans ht
  · cases hy.symm.trans hc
  · cases hy.symm.trans hl

lemma read_last_term (h : Pair x y) (hst : x.state = .waitSessTerm)
    (hx : x.inbox = .sessTerm st :: ms) : Pair { x with state := .connectionClose, inbox := ms } y := by
  obtain ⟨_, _, mru, _, _, _, _⟩ := x
  subst hst hx
  obtain ⟨h1, h2⟩ := h
  have hterm : termIn ms = false := (silent_of_keepalives h2.orderly).2.2
  have hy := h2.term rfl
  refine ⟨⟨⟨nofun, nofun⟩, h1.mru, h1.orderly, fun _ => .inr rfl, h1.quiet, fun _ => hy, nofun, nofun, nofun,
      fun _ => h1.ended nofun⟩,
    ⟨h2.phase, h2.mru, orderly_of_keepalives h2.orderly, fun ht => ?_, nofun, fun _ => .inr rfl,
      fun hl _ => ?_, h2.fresh,
      h2.flow, h2.ended⟩⟩
  · cases hterm.symm.trans ht
  · rcases hy with hy | hy <;> cases hy.symm.trans hl

/-- A segment moves from the channel into the transfer, and its acknowledgement to the party. -/
lemma read_segment (h : Pair x y) (hx : x.inbox = .xferSegment s :: ms) (ht : Peer.Joins x.receiving s t)
    (hst : Peer.Acks x.state (s.toXferAck (UInt64.ofNat t.data.length)) st) :
    Pair { x with
      state := st
      inbox := ms
      receiving := if s.flags.fin then none else some t
      passedUp := x.passedUp ++ if s.flags.fin then [t] else [] } y := by
  obtain ⟨_, _, mru, _, _, _, _⟩ := x
  subst hx
  obtain ⟨h1, h2⟩ := h
  obtain ⟨hup, hup', htracker, hnone, hsome⟩ := hst.spec
  have hyup : y.aspect.phase = .up := h2.up_of_segment rfl
  have hb := (h2.flow hyup).receive rfl ht
  refine ⟨⟨?_, h1.mru, h1.orderly, ?_, h1.quiet, ?_, ?_, fun _ => h1.fresh hup, fun _ => ?_, fun h => absurd hup' h⟩,
    ⟨h2.phase, h2.mru, h2.orderly, h2.term, ?_, ?_, ?_, h2.fresh, fun _ => ?_, fun h => absurd hyup h⟩⟩
  · simp [Peer.aspect, hup']
  · intro hterm
    rcases h1.term hterm with h | h <;> cases hup.symm.trans h
  · intro h
    cases hup'.symm.trans h
  · intro h
    cases hup'.symm.trans h
  · have hf := h1.flow hup
    simp only [Peer.aspect, htracker] at hf ⊢
    exact hf
  · rintro (h | h) <;> cases hup'.symm.trans h
  · intro h
    cases hyup.symm.trans h
  · intro h
    cases hyup.symm.trans h
  · unfold flow at hb ⊢
    simp only [Peer.aspect, hnone, hsome, Option.toList_none, Option.toList_some, append_nil] at hb ⊢
    exact hb

lemma read_ack (h : Pair x y) (hst : x.state = .sendXferSegments tt) (hx : x.inbox = .xferAck a :: ms)
    (hlen : a.acknowlegedLength.toNat ≠ tt.transfer.data.length) :
    Pair { x with state := .sendXferSegments { tt with posAcked := a.acknowlegedLength.toNat }, inbox := ms } y := by
  obtain ⟨_, _, mru, _, _, _, _⟩ := x
  subst hst hx
  obtain ⟨h1, h2⟩ := h
  exact ⟨⟨⟨nofun, nofun⟩, h1.mru, h1.orderly, h1.term, h1.quiet, nofun, nofun, h1.fresh,
      fun _ => (h1.flow rfl).acked rfl rfl hlen, fun h => absurd rfl h⟩,
    { h2 with quiet := nofun }⟩

lemma read_last_ack (h : Pair x y) (hst : x.state = .sendXferSegments tt) (hx : x.inbox = .xferAck a :: ms)
    (hlen : a.acknowlegedLength.toNat = tt.transfer.data.length) :
    Pair { x with state := .sessionEstablished, inbox := ms } y := by
  obtain ⟨_, _, mru, _, _, _, _⟩ := x
  subst hst hx
  obtain ⟨h1, h2⟩ := h
  exact ⟨⟨⟨nofun, nofun⟩, h1.mru, h1.orderly, h1.term, h1.quiet, nofun, nofun, h1.fresh,
      fun _ => (h1.flow rfl).finish rfl rfl hlen, fun h => absurd rfl h⟩,
    { h2 with quiet := nofun }⟩

/-- Whatever comes first is something that the state has an arm for. -/
lemma accepts_head (h : Pair x y) (hr : x.state.reads = true)
    (hx : x.inbox = m :: ms) : x.state.accepts m = true := by
  obtain ⟨st, _, _, _, _, _, _⟩ := x
  subst hx
  obtain ⟨h1, h2⟩ := h
  have hord := h2.orderly
  cases m with
  | keepalive => cases st <;> rfl
  | contactHeader | sessInit | msgReject | xferRefuse => exact hord.elim
  | sessTerm =>
    cases st with
    | sessionEstablished | waitSessTerm | sendXferSegments => rfl
    | passiveWaitContactHeader | activeWaitContactHeader | activeWaitSessInit | passiveWaitSessInit =>
      exact absurd rfl h1.phase.1
    | _ => cases hr
  | xferSegment =>
    cases st with
    | sessionEstablished | sendXferSegments => rfl
    | waitSessTerm => cases (h2.quiet (.inr rfl)).1
    | passiveWaitContactHeader | activeWaitContactHeader | activeWaitSessInit | passiveWaitSessInit =>
      exact absurd rfl h1.phase.1
    | _ => cases hr
  | xferAck =>
    cases st with
    | sendXferSegments => rfl
    | sessionEstablished => cases (h1.idle rfl rfl).2.1
    | waitSessTerm => cases (h2.quiet (.inr rfl)).2
    | passiveWaitContactHeader | activeWaitContactHeader | activeWaitSessInit | passiveWaitSessInit =>
      exact absurd rfl h1.phase.1
    | _ => cases hr

end Pair

/-- Nobody closes with segments unread, and nobody sends a segment to a party that closes. -/
def Peer.Polite (x y : Peer) : Label → Prop
  | .close => segmentsIn x.inbox = []
  | .segment => y.state.phase ≠ .leaving ∧ y.state.phase ≠ .waiting
  | .quiet => True

/-- A step keeps the invariant of both directions. -/
lemma Pair.step (h : Pair x y) (hl : x.Polite y l) (hs : Peer.Step l x y x' y') : Pair x' y' := by
  have hopen : ∀ {st : States}, x.state = st → st.phase = .opening → False := fun hx hst =>
    h.fst.phase.1 ((congrArg States.phase hx).trans hst)
  cases hs with
  | idle => exact h
  | tick => exact ⟨h.fst, h.snd⟩
  | close hst r => exact h.close hst hl r
  | closeTick hst r =>
    have hc := h.close hst hl r
    exact ⟨hc.fst, hc.snd⟩
  | transfer hst _ ht => exact h.transfer hst ht
  | sendHeaderActive hst | sendHeaderPassive hst | sendInitActive hst | sendInitPassive hst | readHeaderActive hst
  | readHeaderPassive hst | readInitActive hst | readInitPassive hst => exact (hopen hst rfl).elim
  | sendKeepalive hst =>
    have hk := h.push_keepalive
    obtain ⟨st, terminating, mru, receiving, inbox, accepted, passedUp⟩ := x
    subst hst
    exact ⟨hk.fst, hk.snd⟩
  | sendAck hst | sendSegmentsAck hst =>
    obtain ⟨st, _, _, _, inbox, _, _⟩ := x
    subst hst
    exact h.push_ack rfl rfl rfl
  | sendSegment hst hpos hs => exact h.push_segment hst hpos hs hl
  | sendTerm hst st => exact h.push_term hst st
  | sendReject hst => exact absurd (congrArg States.phase hst) h.fst.phase.2
  | readKeepalive _ hx => exact h.read_keepalive hx
  | readTerm hst hx =>
    refine h.read_term ?_ hx _
    rcases hst with hst | ⟨tt, hst⟩ <;> rw [hst] <;> rfl
  | readLastTerm hst hx => exact h.read_last_term hst hx
  | @dropSegment ms _ _ _ s hx ht hid =>
    have hin : segmentsIn x.aspect.inbox = s :: segmentsIn ms := by rw [show x.aspect.inbox = _ from hx]; rfl
    exact absurd ((h.snd.flow (h.snd.up_of_segment hin)).segment_id hin ht) hid
  | readSegment hx ht hst => exact h.read_segment hx ht hst
  | readAck hst hx hlen => exact h.read_ack hst hx hlen
  | readLastAck hst hx hlen => exact h.read_last_ack hst hx hlen
  | reject hr hx hm =>
    rw [h.accepts_head hr hx] at hm
    cases hm

end Dtn.Tcpcl
