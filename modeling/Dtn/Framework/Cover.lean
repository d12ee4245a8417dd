import Mathlib.Algebra.GroupWithZero.Nat
import Mathlib.Data.List.Basic

/-!
# Ranges that cover an interval

A range is an offset and a length. `sweep` runs over ranges in the order of
their offsets and keeps the end of what is covered so far; it stops at a gap.
It ends at `n` exactly if the ranges lie below `n` and leave no position below
`n` out (`sweep_iff`), however they overlap and however often one is repeated.

`Tiled` is the special case of consecutive pieces: each starts where the one
before it ends. Pieces may be replaced by tilings of their own (`Tiled.append`).
-/

namespace Dtn.Cover

open List

variable {acc n : Nat} {rs : List (Nat × Nat)}

/-- The end of what is covered, or `none` at a gap. -/
def sweep : Nat → List (Nat × Nat) → Option Nat
  | acc, [] => some acc
  | acc, (o, l) :: rs => if o ≤ acc then sweep (max acc (o + l)) rs else none

lemma sweep_le (h : sweep acc rs = some n) : acc ≤ n := by
  induction rs generalizing acc with
  | nil => cases h; exact Nat.le_refl _
  | cons => grind [sweep]

/-- Sorted ranges below `n` that leave nothing out between `acc` and `n` are swept to `n`. -/
lemma sweep_eq_some (hs : rs.Pairwise fun a b => a.1 ≤ b.1) (hn : ∀ r ∈ rs, r.1 + r.2 ≤ n) (hacc : acc ≤ n)
    (hc : ∀ x, acc ≤ x → x < n → ∃ r ∈ rs, r.1 ≤ x ∧ x < r.1 + r.2) : sweep acc rs = some n := by
  induction rs generalizing acc with
  | nil =>
    have : ¬ acc < n := fun h => by
      obtain ⟨r, hr, -⟩ := hc acc (Nat.le_refl _) h
      cases hr
    rw [sweep, Nat.le_antisymm hacc (Nat.le_of_not_lt this)]
  | cons r _ ih =>
    obtain ⟨o, l⟩ := r
    have hol := hn (o, l) (mem_cons_self ..)
    have ho : o ≤ acc := by
      by_contra hlt
      -- the position `acc` would have to be covered by a range further on, which starts at `o` or later
      obtain ⟨r, hr, hle, -⟩ := hc acc (Nat.le_refl _) (by dsimp only at hol; omega)
      rcases mem_cons.mp hr with rfl | hr
      · exact hlt hle
      · grind [pairwise_cons]
    rw [sweep, if_pos ho]
    refine ih (pairwise_cons.mp hs).2 (fun r hr => hn r (mem_cons_of_mem _ hr)) (by omega) fun x hx hxn => ?_
    obtain ⟨r, hr, hle, hlt⟩ := hc x (by omega) hxn
    rcases mem_cons.mp hr with rfl | hr
    · dsimp only at hlt; omega
    · exact ⟨r, hr, hle, hlt⟩

/-- What was swept to `n` lies below `n` and leaves nothing out. -/
lemma sweep_covers (h : sweep acc rs = some n) :
    (∀ r ∈ rs, r.1 + r.2 ≤ n) ∧ ∀ x, acc ≤ x → x < n → ∃ r ∈ rs, r.1 ≤ x ∧ x < r.1 + r.2 := by
  induction rs generalizing acc with
  | nil =>
    cases h
    exact ⟨nofun, fun x hx hxn => absurd hx (Nat.not_le.mpr hxn)⟩
  | cons r _ ih =>
    obtain ⟨o, l⟩ := r
    rw [sweep] at h
    split at h <;> [rename_i ho; cases h]
    have hle := sweep_le h
    obtain ⟨hbelow, _⟩ := ih h
    refine ⟨forall_mem_cons.mpr ⟨by dsimp only; omega, hbelow⟩, fun x hx hxn => ?_⟩
    by_cases hhead : x < o + l
    · exact ⟨(o, l), mem_cons_self, by dsimp only; omega⟩
    · grind

/-- Sorted ranges are swept to `n` exactly if they lie below it and leave nothing out. -/
lemma sweep_iff (hs : rs.Pairwise fun a b => a.1 ≤ b.1) :
    sweep 0 rs = some n ↔ (∀ x < n, ∃ r ∈ rs, r.1 ≤ x ∧ x < r.1 + r.2) ∧ ∀ r ∈ rs, r.1 + r.2 ≤ n := by
  grind [sweep_covers, sweep_eq_some]

lemma sweep_lt (h : sweep acc rs = some n) (hacc : acc < bound) (hrs : ∀ r ∈ rs, r.1 + r.2 < bound) : n < bound := by
  induction rs generalizing acc with
  | nil => cases h; exact hacc
  | cons => grind [sweep]

/-- Nothing longer can be covered than the ranges are together. -/
lemma sweep_le_sum (h : sweep acc rs = some n) : n ≤ acc + (rs.map (·.2)).sum := by
  induction rs generalizing acc with
  | nil => cases h; exact Nat.le_refl _
  | cons => grind [sweep]

variable {β : Type}

/-- Consecutive pieces from `lo` to `hi`: `piece o l x` says that `x` covers `l` positions from `o` on. -/
def Tiled (piece : Nat → Nat → β → Prop) : Nat → Nat → List β → Prop
  | lo, hi, [] => lo = hi
  | lo, hi, x :: xs => ∃ l, piece lo l x ∧ Tiled piece (lo + l) hi xs

namespace Tiled

variable {piece : Nat → Nat → β → Prop} {lo mid hi : Nat} {xs ys : List β}

lemma append (h : Tiled piece lo mid xs) (h' : Tiled piece mid hi ys) : Tiled piece lo hi (xs ++ ys) := by
  induction xs generalizing lo with
  | nil => cases h; exact h'
  | cons _ _ ih =>
    obtain ⟨l, hx, hxs⟩ := h
    exact ⟨l, hx, ih hxs⟩

lemma le (h : Tiled piece lo hi xs) : lo ≤ hi := by
  induction xs generalizing lo with
  | nil => exact Nat.le_of_eq h
  | cons _ _ ih =>
    obtain ⟨_, -, hxs⟩ := h
    exact Nat.le_trans (Nat.le_add_right ..) (ih hxs)

/-- Every piece lies between the ends. -/
lemma of_mem (h : Tiled piece lo hi xs) (hx : x ∈ xs) : ∃ o l, piece o l x ∧ lo ≤ o ∧ o + l ≤ hi := by
  induction xs generalizing lo with
  | nil => cases hx
  | cons =>
    obtain ⟨l, hy, hxs⟩ := h
    rcases mem_cons.mp hx with rfl | hx
    · exact ⟨lo, l, hy, Nat.le_refl _, hxs.le⟩
    · grind

/-- Every position between the ends lies in a piece. -/
lemma covers (h : Tiled piece lo hi xs) (hlo : lo ≤ i) (hhi : i < hi) :
    ∃ x ∈ xs, ∃ o l, piece o l x ∧ o ≤ i ∧ i < o + l := by
  induction xs generalizing lo with
  | nil => cases h; omega
  | cons x =>
    obtain ⟨l, hx, _⟩ := h
    by_cases hi' : i < lo + l
    · exact ⟨x, mem_cons_self .., lo, l, hx, hlo, hi'⟩
    · grind

/-- No position lies in two pieces, if a piece knows its range. -/
lemma eq_of_covers {range : β → Nat × Nat} (hrange : ∀ o l x, piece o l x → range x = (o, l))
    (h : Tiled piece lo hi xs) (hx : x ∈ xs) (hy : y ∈ xs)
    (hxi : (range x).1 ≤ i ∧ i < (range x).1 + (range x).2) (hyi : (range y).1 ≤ i ∧ i < (range y).1 + (range y).2) :
    x = y := by
  induction xs generalizing lo with
  | nil => cases hx
  | cons _ xs ih =>
    obtain ⟨l, hz, hxs⟩ := h
    -- what comes after the first piece starts behind it
    have hafter {w} (hw : w ∈ xs) : lo + l ≤ (range w).1 := by
      obtain ⟨_, _, hp, hlo, -⟩ := hxs.of_mem hw
      rw [hrange _ _ _ hp]
      exact hlo
    rcases mem_cons.mp hx with rfl | hx' <;> rcases mem_cons.mp hy with rfl | hy'
    · rfl
    · grind
    · grind
    · exact ih hxs hx' hy'

end Tiled

end Dtn.Cover
