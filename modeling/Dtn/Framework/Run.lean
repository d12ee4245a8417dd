import Mathlib.Tactic.Common

/-!
# Runs of a transition system

A `System` has initial states and labelled steps. `Reaches M allowed s` says
that some run all of whose steps are `allowed` leads to `s`. What holds at the
start and is kept by each allowed step holds of every such state
(`Reaches.invariant`), and a relation that steps of one system and of another
keep relates what they reach (`Reaches.simulated`).

`Run M s as s'` is a run from `s` to `s'` with its labels; `M.only allowed` has the
allowed steps of `M`, so its runs are those of `Reaches` (`Run.reaches`). A run of a
system whose steps are steps of another or none at all is a run of the other one with
some labels left out (`Run.erased`).
-/

namespace Dtn

universe u v w x

structure System (σ : Type u) (α : Type v) where
  init : σ → Prop
  step : σ → α → σ → Prop

namespace System

variable {σ : Type u} {τ : Type w} {α : Type v} {β : Type x} {M : System σ α} {N : System τ β} {allowed : σ → α → Prop}
    {permitted : τ → β → Prop} {f : σ → α → Option σ}

/-- The states of the runs with allowed steps only. -/
inductive Reaches (M : System σ α) (allowed : σ → α → Prop) : σ → Prop where
  | init {s : σ} (h : M.init s) : Reaches M allowed s
  | step {s s' : σ} {a : α} (hs : Reaches M allowed s) (ha : allowed s a) (h : M.step s a s') : Reaches M allowed s'

lemma Reaches.invariant (Inv : σ → Prop) (hinit : ∀ s, M.init s → Inv s)
    (hstep : ∀ s a s', Inv s → allowed s a → M.step s a s' → Inv s') (h : M.Reaches allowed s) : Inv s := by
  induction h with
  | init h => exact hinit _ h
  | step _ ha h ih => exact hstep _ _ _ ih ha h

/-- A state that a function of the events leads to, if all its results are allowed steps. -/
lemma Reaches.foldlM (hf : ∀ s a s', f s a = some s' → allowed s a ∧ M.step s a s')
    {as : List α} (hs : M.Reaches allowed s) (h : as.foldlM f s = some s') : M.Reaches allowed s' := by
  induction as generalizing s with
  | nil => cases h; exact hs
  | cons a _ ih =>
    rw [List.foldlM_cons] at h
    obtain ⟨s1, h1, h⟩ := Option.bind_eq_some_iff.mp h
    obtain ⟨ha, hstep⟩ := hf s a s1 h1
    exact ih (.step hs ha hstep) h

/-- A state with `P` that it leads to. -/
lemma Reaches.foldlM_any (hs : M.Reaches allowed s) (hf : ∀ s a s', f s a = some s' → allowed s a ∧ M.step s a s')
    (as : List α) (P : σ → Prop) [DecidablePred P] (h : (as.foldlM f s).any (P ·) = true) :
    ∃ s', M.Reaches allowed s' ∧ P s' := by
  obtain ⟨s', hs', hP⟩ := (Option.any_eq_true _ _).mp h
  exact ⟨s', hs.foldlM hf hs', of_decide_eq_true hP⟩

/-- Each step of `M` is one of `N` or none at all, seen through `R`. -/
lemma Reaches.simulated (R : σ → τ → Prop) (hinit : ∀ s, M.init s → ∃ t, N.init t ∧ R s t)
    (hstep : ∀ s a s' t, R s t → N.Reaches permitted t → allowed s a → M.step s a s' →
      ∃ t', (t' = t ∨ ∃ b, permitted t b ∧ N.step t b t') ∧ R s' t') (h :
      M.Reaches allowed s) : ∃ t, N.Reaches permitted t ∧ R s t := by
  induction h with
  | init h =>
    obtain ⟨t, ht, hR⟩ := hinit _ h
    exact ⟨t, .init ht, hR⟩
  | step _ ha h ih =>
    obtain ⟨_, ht, hR⟩ := ih
    obtain ⟨t', hstep', hR'⟩ := hstep _ _ _ _ hR ht ha h
    rcases hstep' with rfl | ⟨b, hb, hN⟩
    · exact ⟨t', ht, hR'⟩
    · exact ⟨t', .step ht hb hN, hR'⟩

/-! ## Runs with their labels -/

/-- The system with its allowed steps only. -/
def only (M : System σ α) (allowed : σ → α → Prop) : System σ α where
  init := M.init
  step s a s' := allowed s a ∧ M.step s a s'

inductive Run (M : System σ α) : σ → List α → σ → Prop where
  | nil {s : σ} : Run M s [] s
  | cons {s s1 s' : σ} {a : α} {as : List α} (h : M.step s a s1) (hr : Run M s1 as s') : Run M s (a :: as) s'

namespace Run

variable {s s1 s' : σ} {a : α} {as bs : List α}

lemma append (h : M.Run s as s1) (h' : M.Run s1 bs s') : M.Run s (as ++ bs) s' := by
  induction h with
  | nil => exact h'
  | cons h _ ih => exact .cons h (ih h')

/-- A run all of whose steps are allowed. -/
lemma reaches (h : (M.only allowed).Run s as s') (hs : M.Reaches allowed s) : M.Reaches allowed s' := by
  induction h with
  | nil => exact hs
  | cons h _ ih => exact ih (.step hs h.1 h.2)

/-- What each step with an allowed label keeps, of the state and the labels so far. -/
lemma invariant {Inv : List α → σ → Prop} {ok : α → Prop}
    (hstep : ∀ bs s a s', Inv bs s → ok a → M.step s a s' → Inv (bs ++ [a]) s') (h : M.Run s as s')
    (hok : ∀ a ∈ as, ok a) (hs : Inv bs s) : Inv (bs ++ as) s' := by
  induction h generalizing bs with
  | nil => rwa [List.append_nil]
  | cons h _ ih =>
    rw [List.append_cons]
    obtain ⟨ha, has⟩ := List.forall_mem_cons.mp hok
    exact ih has (hstep _ _ _ _ hs ha h)

/-- What each step keeps, whatever its label. -/
lemma keeps (P : σ → Prop) (hstep : ∀ s a s', P s → M.step s a s' → P s') (h : M.Run s as s') (hs : P s) : P s' := by
  induction h with
  | nil => exact hs
  | cons h _ ih => exact ih (hstep _ _ _ hs h)

/-- A step of `M` whose label is erased leaves `N` where it is, any other one is a step of `N`. -/
lemma erased {R : σ → τ → Prop}
    (hnone : ∀ s a s' t, R s t → M.step s a s' → erase a = none → R s' t)
    (hsome : ∀ s a s' t b, R s t → M.step s a s' → erase a = some b → ∃ t', N.step t b t' ∧ R s' t') (h : M.Run s as s')
    (ht : R s t) : ∃ t', N.Run t (as.filterMap erase) t' ∧ R s' t' := by
  induction h generalizing t with
  | nil => exact ⟨t, .nil, ht⟩
  | @cons _ _ _ a _ h _ ih =>
    cases he : erase a with
    | none =>
      rw [List.filterMap_cons_none he]
      exact ih (hnone _ _ _ _ ht h he)
    | some =>
      rw [List.filterMap_cons_some he]
      obtain ⟨_, ht1, hR⟩ := hsome _ _ _ _ _ ht h he
      obtain ⟨t', hrun, hR'⟩ := ih hR
      exact ⟨t', .cons ht1 hrun, hR'⟩

end Run

end System

end Dtn
