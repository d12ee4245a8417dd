import Mathlib.Data.List.Intervals

/-!
# Data sent in chunks of one size

`boundary size len i` is where chunk `i` of `len` elements starts, and
`chunk size xs i` is that chunk; from some chunk on they are empty. Chunk by
chunk the data is put together again (`take_boundary_succ`).

Units in transit are the images of an interval of numbers: one more is sent at
the end (`map_Ico_succ`), and what is taken off the front is the lowest number
(`map_Ico_eq_cons`).
-/

namespace Dtn

/-- Where chunk `i` starts. -/
def boundary (size len i : Nat) : Nat := min (i * size) len

variable {α β : Type} {size len i j : Nat}

@[simp] lemma boundary_zero : boundary size len 0 = 0 := by simp [boundary]

lemma boundary_le : boundary size len i ≤ len := Nat.min_le_right _ _

lemma boundary_succ (size len i : Nat) : boundary size len (i + 1) = min (boundary size len i + size) len := by
  rw [boundary, boundary, Nat.succ_mul]
  omega

lemma boundary_mono (h : i ≤ j) : boundary size len i ≤ boundary size len j := by
  have := Nat.mul_le_mul_right size h
  rw [boundary, boundary]
  omega

lemma boundary_lt_succ (hs : 0 < size) (h : boundary size len i < len) :
    boundary size len i < boundary size len (i + 1) := by
  rw [boundary_succ]
  omega

/-- Every chunk before the end, but the first, starts behind a whole chunk. -/
lemma size_le_boundary (h0 : boundary size len i ≠ 0) (h : boundary size len i < len) : size ≤
    boundary size len i := by
  cases i with
  | zero => exact absurd boundary_zero h0
  | succ i =>
    have hs := boundary_succ size len i
    omega

/-- Chunk `i`. -/
def chunk (size : Nat) (xs : List α) (i : Nat) : List α :=
  (xs.drop (boundary size xs.length i)).take (boundary size xs.length (i + 1) - boundary size xs.length i)

lemma take_boundary_succ (xs : List α) (i : Nat) : xs.take (boundary size xs.length (i + 1)) =
    xs.take (boundary size xs.length i) ++ chunk size xs i := by
  have hle : boundary size xs.length i ≤ boundary size xs.length (i + 1) := boundary_mono (Nat.le_succ i)
  rw [chunk, ← List.take_add]
  congr 1
  omega

lemma chunk_length_le (xs : List α) (i : Nat) : (chunk size xs i).length ≤ size := by grind [boundary_succ, chunk]

/-! ## Units in transit -/

lemma map_Ico_succ (f : Nat → β) (h : r ≤ p) :
    (List.Ico r (p + 1)).map f = (List.Ico r p).map f ++ [f p] := by grind [List.Ico.succ_top]

lemma map_Ico_eq_cons (h : (List.Ico r p).map f = b :: l) :
    r < p ∧ b = f r ∧ l = (List.Ico (r + 1) p).map f := by grind [List.Ico.eq_nil_of_le, List.Ico.eq_cons]

end Dtn
