import Dtn.Proof.Tcpcl.Close

/-!
# Transfers arrive once and in order

Two established sessions that nobody closes. `Faithful x y` says what holds
from `x` to `y`: `y` has passed up the transfers that `x` took over, in their
order and once each, but for one that it does not have in full yet; and `x` has
granted no more requests than transfers have been passed up. It holds in
every run (`Working.move`, `Working.faithful`).
-/

namespace Dtn.Tcpcl

open List

/-! ## The parties stay up -/

/-- Two parties between which transfers flow. -/
structure Flowing (x y : Peer) : Prop where
  pair : Pair x y
  fst_up : x.state.phase = .up
  snd_up : y.state.phase = .up
  fst_mru : x.mru.toNat ≤ maxSegmentMru
  snd_mru : y.mru.toNat ≤ maxSegmentMru

variable {x y x' y' : Peer} {l : Label}

lemma Flowing.swap (h : Flowing x y) : Flowing y x :=
  ⟨h.pair.swap, h.snd_up, h.fst_up, h.snd_mru, h.fst_mru⟩

lemma Flowing.step (h : Flowing x y) (hl : l ≠ .close) (hs : Peer.Step l x y x' y') : Flowing x' y' := by
  have hpolite : x.Polite y l := by
    cases l with
    | close => exact absurd rfl hl
    | segment => rw [Peer.Polite, h.snd_up]; exact ⟨nofun, nofun⟩
    | quiet => trivial
  have hx := h.fst_up
  have hnot : ∀ {st : States}, x.state = st → st.phase ≠ .up → False := fun hst hne =>
    hne ((congrArg States.phase hst).symm.trans hx)
  have hy : y'.state = y.state ∧ y'.mru = y.mru := by
    rcases hs.frame with ⟨rfl, -⟩ | ⟨_, rfl, -⟩ <;> exact ⟨rfl, rfl⟩
  refine ⟨h.pair.step hpolite hs, ?_, hy.1 ▸ h.snd_up, ?_, hy.2 ▸ h.snd_mru⟩
  · cases hs with
    | idle | readKeepalive | dropSegment | tick => exact hx
    | sendKeepalive hst => rw [hst] at hx; exact hx
    | sendSegment => unfold Peer.afterSegment; split <;> rfl
    | readSegment _ _ hst => exact hst.spec.2.1
    | close | closeTick => exact absurd rfl hl
    | readTerm _ hin =>
      -- only a party that is not up has sent a `SESS_TERM`
      rcases h.pair.snd.term (by rw [show x.aspect.inbox = _ from hin]; rfl) with hy | hy
      all_goals cases h.snd_up.symm.trans hy
    | reject hr hin hm =>
      rw [h.pair.accepts_head hr hin] at hm
      cases hm
    | sendHeaderActive hst | sendHeaderPassive hst | sendInitActive hst | sendTerm hst | sendReject hst
    | readHeaderActive hst | readHeaderPassive hst | readInitPassive hst | readLastTerm hst =>
      exact (hnot hst nofun).elim
    | _ => rfl
  · cases hs with
    | readInitActive hst | readInitPassive hst => exact (hnot hst nofun).elim
    | _ => exact h.fst_mru

/-- An acknowledgement is for the transfer being sent, and for no more than has been sent. -/
lemma Flowing.ack (h : Flowing x y) (hst : x.state = .sendXferSegments tt) (hin : x.inbox = .xferAck a :: ms) :
    a.transferId = tt.transfer.id ∧ a.acknowlegedLength.toNat ≤ tt.pos := by
  have hacks : (flow x.aspect y.aspect).acks = a :: (acksIn ms ++ y.aspect.pendingAck.toList) := by
    rw [flow, show x.aspect.inbox = _ from hin]
    rfl
  obtain ⟨tt', _, _, _, ht, hf, hlt, hid, hlen, -⟩ := (h.pair.fst.flow h.fst_up).ack hacks
  have htt : x.state.tracker = some tt' := ht
  rw [hst] at htt
  cases htt
  refine ⟨hid, ?_⟩
  rw [hlen, hf.pos]
  exact boundary_mono (hlt.trans_le hf.read_le)

/-- What is on its way between them: keepalives, acknowledgements and segments that the other one takes. -/
lemma Flowing.inbox (h : Flowing x y) (hm : m ∈ y.inbox) : m = .keepalive ⟨⟩ ∨ (∃ a, m = .xferAck a) ∨
    ∃ fl id data, m = .xferSegment (.new fl id data) ∧ data.length ≤ maxSegmentMru := by
  have hterm : termIn y.inbox = false := h.pair.fst.not_termIn (by rw [show x.aspect.phase = _ from h.fst_up]; nofun)
    (by rw [show x.aspect.phase = _ from h.fst_up]; nofun)
  rcases h.pair.fst.orderly.cases hterm hm with rfl | ⟨a, rfl⟩ | ⟨s, hs, rfl⟩
  · exact .inl rfl
  · exact .inr (.inl ⟨a, rfl⟩)
  · refine .inr (.inr ?_)
    cases h.pair.fst.flow h.fst_up with
    | idle _ hsegs =>
      rw [show segmentsIn y.aspect.inbox = [] from hsegs] at hs
      cases hs
    | sending _ hf =>
      rw [show segmentsIn y.aspect.inbox = _ from hf.segments] at hs
      obtain ⟨_, -, rfl⟩ := mem_map.mp hs
      exact ⟨_, _, _, rfl, (chunk_length_le ..).trans h.fst_mru⟩

/-- A party takes up no transfer but one that it takes over. -/
lemma Peer.Step.tracker (hs : Step l x y x' y') (ha : x'.accepted = x.accepted)
    (ht : x'.state.tracker.isSome = true) : x.state.tracker.isSome = true := by
  cases hs with
  | idle | readKeepalive | dropSegment | tick => exact ht
  | transfer => exact absurd ha (by simp)
  | sendKeepalive hst => rw [hst]; exact ht
  | sendSegmentsAck hst | sendSegment hst | readAck hst => rw [hst]; rfl
  | sendTerm => dsimp only at ht; split at ht <;> cases ht
  | readSegment _ _ hst =>
    rw [← hst.spec.2.2.1]
    exact ht
  | _ => cases ht

/-! ## Requests and answers -/

variable {ρ : Type} {tls : Tls}

/-- A branch keeps the request whose transfer is under way, or takes over a transfer with its request. -/
lemma Session.branch_sender {s s1 : Session ρ}
    (hb : s.branch tls i ev = .ok (some (s1, es1))) : Effect.granted es1 = [] ∧
      ((s.taken ev = [] ∧ s1.transferResultSender = s.transferResultSender) ∨
        ∃ t r, s.taken ev = [(t, r)] ∧ s.statemachine.isEstablished = true ∧ s1.transferResultSender = some r ∧
          s1.statemachine.isEstablished = false) := by
  cases ev with
  | read =>
    obtain ⟨-, sm, _, -, ⟨_, -, hx⟩ | ⟨-, -, -, -, rfl, rfl⟩⟩ := branch_read_eq_ok hb
    · rcases receiveSegment_eq_ok hx with ⟨-, -, -, rfl, rfl⟩ | ⟨_, sm, -, -, ⟨-, rfl, rfl⟩ | ⟨-, rfl, rfl⟩⟩
      all_goals exact ⟨rfl, .inl ⟨rfl, rfl⟩⟩
    · exact ⟨rfl, .inl ⟨rfl, rfl⟩⟩
  | send =>
    obtain ⟨-, ⟨sm, -, rfl, rfl⟩ | ⟨sm, _, _, -, -, rfl, rfl⟩⟩ := branch_send_eq_ok hb
    all_goals exact ⟨rfl, .inl ⟨rfl, rfl⟩⟩
  | transfer _ r =>
    obtain ⟨hest, ⟨sm, hsend, rfl, rfl⟩ | ⟨_, hsend, rfl, rfl⟩⟩ := branch_transfer_eq_ok hb
    · obtain ⟨-, rfl⟩ := sendTransfer_eq_ok hest hsend
      exact ⟨rfl, .inr ⟨_, r, by rw [taken, hsend], hest, rfl, rfl⟩⟩
    · exact ⟨rfl, .inl ⟨by rw [taken, hsend], rfl⟩⟩
  | tick =>
    obtain ⟨_, -, rfl, rfl⟩ := branch_tick_eq_ok hb
    exact ⟨rfl, .inl ⟨rfl, rfl⟩⟩
  | close =>
    obtain ⟨-, rfl, rfl⟩ := branch_close_eq_ok hb
    exact ⟨rfl, .inl ⟨rfl, rfl⟩⟩
  | eof | sendFailed => simp only [branch] at hb; split at hb <;> cases hb

namespace End

variable {x y x' y' : End ρ} {a : Act ρ}

/-- Each request that was taken over is granted or waits for the transfer under way. -/
structure Answers (x : End ρ) : Prop where
  log : x.taken.map Prod.snd = x.granted ++ x.session.transferResultSender.toList
  busy : x.session.statemachine.state.tracker.isSome = true → x.session.transferResultSender.isSome = true
  free : x.session.statemachine.isEstablished = true → x.session.transferResultSender = none

lemma Answers.move (h : x.Answers) (hs : Peer.Step l x.peer y.peer x'.peer y'.peer)
    (hm : x.move tls y a = .ok (some (x', y'))) : x'.Answers := by
  obtain ⟨ev, s, _, -, ht, hafter⟩ := move_eq_ok hm
  obtain ⟨_, s1, _, _, -, hb, hset, rfl⟩ := Session.turn_eq_ok ht
  obtain ⟨rfl, rfl⟩ := Prod.mk.inj hafter
  obtain ⟨_, hcases⟩ := Session.branch_sender hb
  have hfree : s.statemachine.isEstablished = true → s.transferResultSender = none := by
    grind [hset.statemachine, hset.sender]
  rcases hcases with ⟨htaken, hsender⟩ | ⟨_, _, htaken, hest, hsender, _⟩
  · refine ⟨?_, fun hbusy => ?_, hfree⟩
    · grind [h.log, hset.sender, hset.granted, Effect.granted_append]
    · have hold : x.session.statemachine.state.tracker.isSome = true := by
        refine hs.tracker ?_ hbusy
        rw [htaken, append_nil]
        rfl
      have hnot : s1.statemachine.isEstablished = false := by
        cases hest : s1.statemachine.isEstablished with
        | false => rfl
        | true =>
          have hst := StateMachine.isEstablished_iff.mp hest
          rw [hset.statemachine, hst] at hbusy
          cases hbusy
      rw [hset.sender, hnot, hsender]
      exact h.busy hold
  · have hnone := h.free hest
    refine ⟨?_, fun _ => ?_, hfree⟩
    · grind [h.log, hset.sender, hset.granted, Effect.granted_append]
    · grind [hset.sender]

/-- What an end has of the transfer that it is receiving. -/
def part (y : End ρ) : List UInt8 := (y.session.receivingTransfer.map Transfer.data).getD []

/-- The transfers from `x` to `y`. -/
structure Faithful (x y : End ρ) : Prop where
  /-- `y` has passed up what `x` took over, but for one transfer that it does not have in full. -/
  passedUp : ∃ rest, x.taken.map Prod.fst = y.passedUp ++ rest ∧ rest.length ≤ 1 ∧
    ∀ t ∈ rest, y.part <+: t.data ∧ y.part.length < t.data.length
  /-- `x` has granted its requests in order, and none before its transfer was passed up. -/
  granted : x.granted <+: x.taken.map Prod.snd ∧ x.granted.length ≤ y.passedUp.length

/-- Two ends between which transfers flow. -/
structure Working (x y : End ρ) : Prop where
  flowing : Flowing x.peer y.peer
  ready : x.Ready ∧ y.Ready
  answers : x.Answers ∧ y.Answers
  nonempty : (∀ t ∈ x.taken, t.1.data ≠ []) ∧ ∀ t ∈ y.taken, t.1.data ≠ []

/-- What is done while nobody closes. -/
def Busy : Act ρ → Prop
  | .transfer data _ => data ≠ [] ∧ data.length ≤ isizeMax
  | .tick idle => idle = false
  | .close => False
  | _ => True

lemma Working.swap (h : Working x y) : Working y x :=
  ⟨h.flowing.swap, h.ready.symm, h.answers.symm, h.nonempty.symm⟩

lemma taken_nonempty (hb : Busy a) (hev : x.event a = some ev) : ∀ t ∈ x.session.taken ev, t.1.data ≠ [] := by
  intro t ht
  cases a with
  | transfer =>
    cases hev
    simp only [Session.taken] at ht
    split at ht
    · cases mem_singleton.mp ht
      exact hb.1
    · cases ht
  | read =>
    obtain ⟨_, -, rfl⟩ := Option.map_eq_some_iff.mp hev
    cases ht
  | send | tick | close =>
    cases hev
    cases ht

lemma Working.move (h : Working x y) (hb : Busy a) (hm : x.move tls y a = .ok (some (x', y'))) : Working x' y' := by
  have hfit : a.Fits := by
    cases a with
    | transfer => exact hb.2
    | _ => trivial
  obtain ⟨hx', hy', l, hs, hclose, -⟩ := move_step h.ready.1 hfit hm
  have hl : l ≠ .close := by
    intro hl
    have hc := hclose hl
    cases a with
    | close => exact hb
    | tick => cases hc.1.symm.trans hb
    | _ => exact hc
  obtain ⟨_, _, _, hev, -, hafter⟩ := move_eq_ok hm
  have hready : y'.Ready := by rw [Ready, hy']; exact h.ready.2
  have hanswers := h.answers.1.move hs hm
  obtain ⟨rfl, rfl⟩ := Prod.mk.inj hafter
  refine ⟨h.flowing.step hl hs, ⟨hx', hready⟩, ⟨hanswers, ⟨h.answers.2.log, h.answers.2.busy, h.answers.2.free⟩⟩,
    ⟨fun t ht => ?_, h.nonempty.2⟩⟩
  rcases mem_append.mp ht with ht | ht
  · exact h.nonempty.1 t ht
  · exact taken_nonempty hb hev t ht

/-- The flow of transfers says what has been passed up. -/
lemma Working.faithful (h : Working x y) : Faithful x y := by
  have hlog := h.answers.1.log
  have hlen : x.granted.length + x.session.transferResultSender.toList.length = (x.taken.map Prod.fst).length := by
    rw [← length_append, ← hlog, length_map, length_map]
  have hprefix : x.granted <+: x.taken.map Prod.snd := hlog ▸ prefix_append _ _
  cases h.flowing.pair.fst.flow h.flowing.fst_up with
  | idle _ _ _ _ hp =>
    have hp : x.taken.map Prod.fst = y.passedUp := hp
    refine ⟨⟨[], hp.trans (append_nil _).symm, Nat.zero_le _, nofun⟩, hprefix, ?_⟩
    rw [← hp]
    omega
  | @sending tt k r p ht hf =>
    have hp : x.taken.map Prod.fst = y.passedUp ++ pendingAt x.peer.mru.toNat tt.transfer r := hf.passedUp
    have hle : (pendingAt x.peer.mru.toNat tt.transfer r).length ≤ 1 := Flow.length_pendingAt_le
    refine ⟨⟨_, hp, hle, fun t hmem => ?_⟩, hprefix, ?_⟩
    · have hne : tt.transfer.data ≠ [] := by
        have htt : t = tt.transfer := by grind [pendingAt]
        have hin : t ∈ x.taken.map Prod.fst := hp ▸ mem_append_right _ hmem
        obtain ⟨q, hq, hqt⟩ := mem_map.mp hin
        rw [← htt, ← hqt]
        exact h.nonempty.1 q hq
      obtain ⟨rfl, hpart⟩ := Flow.kept_of_pending hmem hne
      rw [part, show y.session.receivingTransfer = _ from hf.receiving]
      exact hpart
    · -- the request of the transfer under way is not granted yet
      obtain ⟨q, hq⟩ := Option.isSome_iff_exists.mp (h.answers.1.busy (show x.peer.state.tracker.isSome = true by
        rw [show x.peer.state.tracker = some tt from ht]; rfl))
      rw [hq, hp, length_append] at hlen
      have : [q].length = 1 := rfl
      simp only [Option.toList_some] at hlen
      omega

end End

end Dtn.Tcpcl
