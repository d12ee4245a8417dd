import Dtn.Proof.Tcpcl.Calls

/-!
# Keepalives change nothing

A keepalive that waits to be sent hides the state below it from the session
loop: nothing but more keepalives happens until it is sent
(`Called.of_wrapped`). In any other state, a call that has nothing to do with
keepalives leaves none behind (`Called.not_wrapped`). So the machine without
its pending keepalives runs through the same calls, less those for keepalives
(`run_erased`).
-/

namespace Dtn.Tcpcl

open StateMachine

/-! ## Pending keepalives -/

namespace States

variable {s : States}

lemma stripped_of_not_wrapped (h : s.wrapped = false) : s.stripped = s := by
  cases s with
  | sendKeepalive => cases h
  | _ => rfl

end States

variable {sm sm' : StateMachine} {c : Call}

lemma StateMachine.stripped_of_not_wrapped (h : sm.state.wrapped = false) : sm.stripped = sm := by
  rw [stripped, States.stripped_of_not_wrapped h]

/-! ## One call -/

/-- While a keepalive waits, only calls for keepalives are made. -/
lemma Called.of_wrapped (h : Called sm c sm') (hs : sm.state.wrapped = true) : c.isKeepalive = true := by
  obtain ⟨s, hst⟩ : ∃ s, sm.state = .sendKeepalive s := by
    generalize sm.state = s at hs
    cases s with
    | sendKeepalive s => exact ⟨s, rfl⟩
    | _ => cases hs
  cases h with
  | sent h | dropped h =>
    cases h with
    | keepalive => rfl
    | _ hst' => cases hst.symm.trans hst'
  | decoded hreads =>
    rw [hst] at hreads
    cases hreads
  | acked h =>
    rw [hst] at h
    cases h
  | keptAlive => rfl
  | transferred hst' | refused hst' | closed hst' => cases hst.symm.trans hst'

/-- A call for a keepalive does nothing but put one on the state or take one off. -/
lemma Called.stripped_eq (h : Called sm c sm') (hc : c.isKeepalive = true) : sm'.stripped = sm.stripped := by
  cases h with
  | sent h =>
    cases h with
    | keepalive hst =>
      unfold stripped
      rw [hst]
      rfl
    | _ => cases hc
  | dropped h =>
    cases h with
    | keepalive => rfl
    | _ => cases hc
  | keptAlive => rfl
  | _ => cases hc

lemma Called.before (h : Called sm c sm') (hc : c.isKeepalive = false) : sm.state.wrapped = false := by
  by_contra hs
  rw [h.of_wrapped (eq_true_of_ne_false hs)] at hc
  cases hc

/-- Any other call leaves no keepalive behind. -/
lemma Called.not_wrapped (h : Called sm c sm') (hc : c.isKeepalive = false) : sm'.state.wrapped = false := by
  have hs := h.before hc
  cases h with
  | sent h =>
    cases h with
    | keepalive => cases hc
    | segment =>
      unfold Peer.afterSegment
      split <;> rfl
    | term =>
      split <;> rfl
    | _ => rfl
  | dropped h =>
    cases h with
    | segment => rfl
    | _ => exact hs
  | decoded _ h =>
    cases h with
    | noHeader | keepalive | rejected | failed | segment => exact hs
    | _ => rfl
  | acked h =>
    generalize sm.state = s at h
    cases h <;> rfl
  | refused => exact hs
  | keptAlive => cases hc
  | transferred | closed => rfl

/-! ## Runs -/

namespace Call

/-- The calls that are left without keepalives. -/
def erase (c : Call) : Option Call := if c.isKeepalive then none else some c

variable {c c' : Call}

lemma erase_eq_none : c.erase = none ↔ c.isKeepalive = true := by
  cases h : c.isKeepalive <;> simp [erase, h]

lemma erase_eq_some : c.erase = some c' ↔ c = c' ∧ c.isKeepalive = false := by
  cases h : c.isKeepalive <;> simp [erase, h]

lemma filterMap_erase (cs : List Call) : cs.filterMap erase = cs.filter (!·.isKeepalive) := by
  rw [← List.filterMap_eq_filter]
  congr 1
  funext c
  cases h : c.isKeepalive <;> simp [erase, Option.guard, h]

/-- The keepalives are erased from what is sent, and nothing else. -/
lemma messages_filter (cs : List Call) : messages (cs.filter (!·.isKeepalive)) =
    (messages cs).filter (· != .keepalive ⟨⟩) := by
  rw [messages, messages, List.filterMap_filter, List.filter_filterMap]
  congr 1
  funext c
  cases c with
  | sent m | dropped m => cases m <;> rfl
  | _ => rfl

end Call

lemma Calls.erase_none (ht : t = sm.stripped) (h : Calls sm c sm') (he : c.erase = none) : t = sm'.stripped := by
  rw [ht, h.called.stripped_eq (Call.erase_eq_none.mp he)]

lemma Calls.erase_some (ht : t = sm.stripped) (h : Calls sm c sm')
    (he : c.erase = some c') : ∃ t', Calls t c' t' ∧ t' = sm'.stripped := by
  obtain ⟨rfl, hc⟩ := Call.erase_eq_some.mp he
  have hs : sm.state.wrapped = false := h.called.before hc
  rw [ht, stripped_of_not_wrapped hs]
  exact ⟨sm', h, (stripped_of_not_wrapped (h.called.not_wrapped hc)).symm⟩

/-- The run without keepalives: the same calls with the same results, the same
messages but for the keepalives, and the same machine whenever no keepalive is pending. -/
theorem run_erased {cs : List Call} (h : calls.Run sm cs sm') (hs : sm.state.wrapped = false) :
    calls.Run sm (cs.filter (!·.isKeepalive)) sm'.stripped ∧
    Call.messages (cs.filter (!·.isKeepalive)) = (Call.messages cs).filter (· != .keepalive ⟨⟩) ∧
    (sm'.state.wrapped = false → sm'.stripped = sm') := by
  refine ⟨?_, Call.messages_filter cs, stripped_of_not_wrapped⟩
  obtain ⟨t, hrun, rfl⟩ := h.erased (N := calls) (R := fun s t => t = s.stripped)
    (fun _ _ _ _ => Calls.erase_none) (fun _ _ _ _ _ => Calls.erase_some) rfl
  rwa [Call.filterMap_erase, stripped_of_not_wrapped hs] at hrun

/-- Two keepalives before the first is sent, in the middle of a transfer. -/
theorem run_erased_opened : ∃ sm, calls.Run (opened 0)
      [.transferred [1, 2] 0, .keptAlive, .keptAlive, .dropped (.keepalive ⟨⟩), .sent (.keepalive ⟨⟩),
        .sent (.keepalive ⟨⟩), .sent (.xferSegment ⟨⟨true, true⟩, 0, [], [1, 2]⟩)] sm ∧
    calls.Run (opened 0) [.transferred [1, 2] 0, .sent (.xferSegment ⟨⟨true, true⟩, 0, [], [1, 2]⟩)] sm := by
  have hrun : calls.Run (opened 0)
      [.transferred [1, 2] 0, .keptAlive, .keptAlive, .dropped (.keepalive ⟨⟩), .sent (.keepalive ⟨⟩),
        .sent (.keepalive ⟨⟩), .sent (.xferSegment ⟨⟨true, true⟩, 0, [], [1, 2]⟩)] _ :=
    .cons (.transfer rfl rfl rfl) (.cons .keepalive (.cons .keepalive (.cons (.drop rfl rfl rfl)
      (.cons (.send rfl rfl rfl rfl) (.cons (.send rfl rfl rfl rfl) (.cons (.send rfl rfl rfl rfl) .nil))))))
  obtain ⟨herased, -, hsame⟩ := run_erased hrun rfl
  rw [hsame rfl] at herased
  exact ⟨_, hrun, herased⟩

end Dtn.Tcpcl
