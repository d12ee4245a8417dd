import Mathlib.Tactic.Common

/-!
# How a call ends

A call of the modelled program returns a value, returns an error, or panics.
`Outcome ε α` keeps the three apart, so that a proof that a call does not
panic says something an `Except` could not. A panic ends the thread: `bind`
never runs what follows it.
-/

namespace Dtn

open List

/-- The end of a call: `Ok(a)`, `Err(e)`, or a panic. -/
inductive Outcome (ε α : Type) where
  | ok (a : α)
  | err (e : ε)
  | panic
  deriving DecidableEq

namespace Outcome

variable {ε ε' α β γ : Type}
variable {a : α} {w : List β} {as : List α}

/-- Run `f` on the value of `x`; an error (the `?` operator) and a panic pass through. -/
def bind (x : Outcome ε α) (f : α → Outcome ε β) : Outcome ε β :=
  match x with
  | ok a => f a
  | err e => err e
  | panic => panic

instance : Monad (Outcome ε) where
  pure := ok
  bind := bind

/-- `Result::map_err`. -/
def mapErr (f : ε → ε') : Outcome ε α → Outcome ε' α
  | ok a => ok a
  | err e => err (f e)
  | panic => panic

/-- `Result::unwrap`: an error is a panic. -/
def unwrap : Outcome ε α → Outcome ε' α
  | ok a => ok a
  | _ => panic

/-- The value, if there is one. -/
def toOption : Outcome ε α → Option α
  | ok a => some a
  | _ => none

@[simp, grind =] lemma pure_def (a : α) : (pure a : Outcome ε α) = ok a := rfl
@[simp, grind =] lemma ok_bind (a : α) (f : α → Outcome ε β) : (ok a >>= f) = f a := rfl
@[simp, grind =] lemma err_bind (e : ε) (f : α → Outcome ε β) : (err e >>= f) = err e := rfl
@[simp, grind =] lemma panic_bind (f : α → Outcome ε β) : ((panic : Outcome ε α) >>= f) = panic := rfl
@[simp, grind =] lemma mapErr_ok (f : ε → ε') (a : α) : (ok a : Outcome ε α).mapErr f = ok a := rfl
@[simp, grind =] lemma unwrap_ok (a : α) : ((ok a : Outcome ε α).unwrap : Outcome ε' α) = ok a := rfl

variable {x : Outcome ε α}

@[grind =] lemma bind_eq_ok :
    (x >>= f) = ok b ↔ ∃ a, x = ok a ∧ f a = ok b := by
  cases x <;> simp

lemma bind_eq_err : x >>= f = err e ↔ x = err e ∨ ∃ a, x = ok a ∧ f a = err e := by
  cases x <;> simp

lemma bind_eq_panic : (x >>= f) = panic ↔ x = panic ∨ ∃ a, x = ok a ∧ f a = panic := by
  cases x <;> simp

@[grind =] lemma toOption_eq_some : x.toOption = some a ↔ x = ok a := by
  cases x <;> simp [toOption]

@[grind =] lemma mapErr_eq_ok : x.mapErr f = ok a ↔ x = ok a := by
  cases x <;> simp [mapErr]

lemma mapErr_eq_panic : x.mapErr f = panic ↔ x = panic := by
  cases x <;> simp [mapErr]

@[grind =] lemma unwrap_eq_ok : (x.unwrap : Outcome ε' α) = ok a ↔ x = ok a := by
  cases x <;> simp [unwrap]

/-- The results of `f` on each element, one after the other. -/
def concat (f : α → Outcome ε (List β)) : List α → Outcome ε (List β)
  | [] => ok []
  | a :: as => do
    let x ← f a
    let xs ← concat f as
    return x ++ xs

variable {f : α → Outcome ε (List β)}

lemma concat_nil_eq_ok : concat f [] = ok w ↔ w = [] := by
  rw [concat, ok.injEq, eq_comm]

lemma concat_cons_eq_ok : concat f (a :: as) = ok w ↔ ∃ x v, f a = ok x ∧ concat f as = ok v ∧ w = x ++ v := by
  grind [concat]

lemma concat_append_eq_ok :
    concat f (as ++ bs) = ok w ↔ ∃ u v, concat f as = ok u ∧ concat f bs = ok v ∧ w = u ++ v := by
  induction as generalizing w with
  | nil => simp [concat]
  | cons _ _ ih =>
    rw [cons_append, concat_cons_eq_ok]
    simp only [ih, concat_cons_eq_ok]
    constructor
    · grind
    · grind

lemma concat_of_ok (h : ∀ a ∈ as, f a = ok (g a)) : concat f as = ok (as.flatMap g) := by
  induction as with
  | nil => rfl
  | cons => grind [concat]

end Outcome

end Dtn
