import Mathlib.Tactic.Common

/-!
# Pending assignments

A cell with assignments on their way to it, in the order in which they arrive.
`settled` is its value after all of them: the last assignment, or else the
current value (`settled_dichotomy`).
-/

namespace Dtn

variable {α : Type}

/-- The value after the pending assignments. -/
def settled (current : α) (pending : List α) : α := pending.foldl (fun _ a => a) current

variable (current a : α) (pending pending' : List α)

@[simp] lemma settled_nil : settled current [] = current := rfl

@[simp] lemma settled_cons : settled current (a :: pending) = settled a pending := rfl

lemma settled_append : settled current (pending ++ pending') = settled (settled current pending) pending' :=
  List.foldl_append

@[simp] lemma settled_concat : settled current (pending ++ [a]) = a := by
  rw [settled_append, settled_cons, settled_nil]

/-! ### Messages that may assign -/

section Messages

variable {β : Type} (f : β → Option α) (m : β) (ms ms' : List β)

lemma settled_filterMap_cons :
    settled current ((m :: ms).filterMap f) = settled ((f m).getD current) (ms.filterMap f) := by
  rw [List.filterMap_cons]
  cases f m <;> rfl

lemma settled_filterMap_append :
    settled current ((ms ++ ms').filterMap f) = settled (settled current (ms.filterMap f)) (ms'.filterMap f) := by
  rw [List.filterMap_append, settled_append]

lemma settled_filterMap_none (h : ∀ m ∈ ms, f m = none) : settled current (ms.filterMap f) = current := by
  rw [List.filterMap_eq_nil_iff.mpr h, settled_nil]

lemma settled_filterMap_toList (m : Option β) : settled current (m.toList.filterMap f) = (m.bind f).getD current := by
  cases m with
  | none => rfl
  | some m => exact settled_filterMap_cons current f m []

end Messages

/-- The current value matters only if nothing is pending. -/
lemma settled_dichotomy :
    (∀ current, settled current pending = current) ∨ ∃ a, ∀ current, settled current pending = a := by
  cases pending with
  | nil => exact .inl fun _ => rfl
  | cons a pending => exact .inr ⟨settled a pending, fun _ => rfl⟩

end Dtn
