import Mathlib.Algebra.BigOperators.Group.Multiset.Defs
import Mathlib.Algebra.Order.Group.Multiset
import Dtn.Framework.Table

/-!
# Things and their places

A ledger is a multiset of things with the places they are in. `Passes ok A B`
says that on the way from `A` to `B` no thing is lost or added and that `B` is
in order if `A` is; such steps can be put one after the other
(`Passes.trans`) and next to what stays where it is (`Passes.frame`). What is
in a table is gathered from its entries (`Table.gather`), and `gather_focus`
singles out the entry that changes.
-/

namespace Dtn

open Multiset

variable {κ ι α β : Type}

/-- Things in one place. -/
def placed (p : ι) (as : List α) : Multiset (ι × α) := ↑(as.map (p, ·))

@[simp] lemma placed_nil (p : ι) : (placed p [] : Multiset (ι × α)) = 0 := rfl

lemma placed_cons (p : ι) (a : α) (as : List α) : placed p (a :: as) = {(p, a)} + placed p as := rfl

lemma placed_append (p : ι) (as bs : List α) : placed p (as ++ bs) = placed p as + placed p bs := by
  simp [placed]

lemma placed_perm (p : ι) (h : as.Perm bs) : placed p as = placed p bs :=
  Quotient.sound (h.map _)

@[simp] lemma mem_placed : i ∈ placed p as ↔ i.1 = p ∧ i.2 ∈ as := by
  obtain ⟨_, _⟩ := i
  simp [placed, eq_comm, and_comm]

lemma mem_sum_map {f : α → Multiset β} {as : List α} : b ∈ (as.map f).sum ↔ ∃ a ∈ as, b ∈ f a := by
  induction as with
  | nil => simp
  | cons _ _ ih => rw [List.map_cons, List.sum_cons, mem_add, ih, List.exists_mem_cons_iff]

/-! ## Steps -/

/-- The things stay the same, and are in order afterwards if they were before. -/
structure Passes (ok : ι × α → Prop) (A B : Multiset (ι × α)) : Prop where
  things : B.map Prod.snd = A.map Prod.snd
  ok : (∀ i ∈ A, ok i) → ∀ i ∈ B, ok i

namespace Passes

variable {ok : ι × α → Prop} {A B C : Multiset (ι × α)}

lemma refl (A : Multiset (ι × α)) : Passes ok A A := ⟨rfl, fun h => h⟩

lemma of_eq (h : A = B) : Passes ok A B := h ▸ refl A

lemma trans (h1 : Passes ok A B) (h2 : Passes ok B C) : Passes ok A C :=
  ⟨h2.things.trans h1.things, fun h => h2.ok (h1.ok h)⟩

lemma frame (h : Passes ok A B) (R : Multiset (ι × α)) : Passes ok (A + R) (B + R) := by
  refine ⟨by rw [Multiset.map_add, Multiset.map_add, h.things], fun hA i hi => ?_⟩
  rcases mem_add.mp hi with hi | hi
  · exact h.ok (fun j hj => hA j (mem_add.mpr (.inl hj))) i hi
  · exact hA i (mem_add.mpr (.inr hi))

lemma focus (h : Passes ok X Y) (hA : A = X + R) (hB : B = Y + R) : Passes ok A B := by
  rw [hA, hB]
  exact h.frame R

/-- One thing goes from one place to another. -/
lemma single (h : ok (p, a) → ok (q, a)) : Passes ok {(p, a)} {(q, a)} :=
  ⟨rfl, fun hp i hi => by rw [mem_singleton.mp hi]; exact h (hp _ (mem_singleton_self _))⟩

end Passes

/-! ## Tables -/

namespace Table

/-- What `f` makes of the entries, all together. -/
def gather (f : κ → α → Multiset β) (t : Table κ α) : Multiset β := (t.entries.map fun e => f e.1 e.2).sum

@[simp] lemma gather_empty (f : κ → α → Multiset β) : (empty : Table κ α).gather f = 0 := rfl

lemma mem_gather {f : κ → α → Multiset β} {t : Table κ α} :
    b ∈ t.gather f ↔ ∃ e ∈ t.entries, b ∈ f e.1 e.2 := mem_sum_map

variable [DecidableEq κ]

/-- The entry of a key, and what is gathered from the others. -/
lemma gather_focus (f : κ → α → Multiset β) (t : Table κ α) (k : κ) :
    ∃ rest, t.gather f = (t.get k).elim 0 (f k) + rest ∧ ∀ a, (t.insert k a).gather f = f k a + rest := by
  obtain ⟨es⟩ := t
  simp only [gather, get, insert]
  induction es with
  | nil => exact ⟨0, rfl, fun a => rfl⟩
  | cons e _ ih =>
    obtain ⟨k', a'⟩ := e
    rw [find]
    by_cases h : k' = k
    · simp_all [put]
    · obtain ⟨rest, _, _⟩ := ih
      refine ⟨f k' a' + rest, ?_, fun a => ?_⟩
      · grind
      · grind [put]

lemma gather_insert {t : Table κ α} (h : t.get k = some a) :
    ∃ rest, t.gather f = f k a + rest ∧ ∀ a', (t.insert k a').gather f = f k a' + rest := by
  obtain ⟨rest, hget, hinsert⟩ := gather_focus f t k
  rw [h] at hget
  exact ⟨rest, hget, hinsert⟩

end Table

end Dtn
