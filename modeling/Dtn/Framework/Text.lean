import Mathlib.Algebra.Group.Nat.Defs
import Mathlib.Tactic.Common

/-!
# Text: splitting and numbers

What parsers of short texts are made of. `splitOnce` divides a text at the first
occurrence of a character, which the part before it does not have
(`splitOnce_eq_some`). `parseU64` reads a number in decimal digits, with leading
zeros and a plus sign if there are any, and reads back what `toString` writes
(`parseU64_toString`).
-/

namespace Dtn

/-! ## Splitting -/

def splitChars (c : Char) : List Char → Option (List Char × List Char)
  | [] => none
  | d :: cs => if d = c then some ([], cs) else (splitChars c cs).map fun (a, b) => (d :: a, b)

/-- `str::split_once`: what stands before and behind the first `c`. -/
def splitOnce (c : Char) (s : String) : Option (String × String) :=
  (splitChars c s.toList).map fun (a, b) => (String.ofList a, String.ofList b)

lemma splitChars_eq_some : splitChars c cs = some (a, b) ↔ cs = a ++ c :: b ∧ c ∉ a := by
  induction cs generalizing a with
  | nil => simp [splitChars]
  | cons d =>
    rw [splitChars]
    by_cases hd : d = c
    · subst hd
      rw [if_pos rfl]
      constructor
      · rintro ⟨⟩
        simp
      · rintro ⟨hcs, ha⟩
        cases a with
        | nil => rw [(List.cons.inj hcs).2]
        | cons => exact absurd (List.cons.inj hcs).1 (List.ne_of_not_mem_cons ha)
    · rw [if_neg hd, Option.map_eq_some_iff]
      constructor
      · grind
      · rintro ⟨hcs, _⟩
        cases a with
        | nil => exact absurd (List.cons.inj hcs).1 hd
        | cons => grind

lemma splitOnce_eq_some : splitOnce c s = some (a, b) ↔ s.toList = a.toList ++ c :: b.toList ∧ c ∉ a.toList := by
  rw [splitOnce, Option.map_eq_some_iff]
  constructor
  · grind [String.toList_ofList, splitChars_eq_some]
  · intro h
    exact ⟨(a.toList, b.toList), splitChars_eq_some.mpr h, by simp only [String.ofList_toList]⟩

/-- The last `c` is where it is, whatever stands before it. -/
lemma append_cons_inj {c : Char} {as as' cs cs' : List Char} (h : c ∉ cs) (h' : c ∉ cs') :
    as ++ c :: cs = as' ++ c :: cs' ↔ as = as' ∧ cs = cs' := by
  refine ⟨fun heq => ?_, by rintro ⟨rfl, rfl⟩; rfl⟩
  rcases List.append_eq_append_iff.mp heq with ⟨ds, rfl, hds⟩ | ⟨ds, rfl, hds⟩ <;> cases ds with
  | nil => simp_all
  | cons => grind

/-! ## Numbers -/

def parseDigits (cs : List Char) : Option Nat :=
  if cs.isEmpty || !cs.all Char.isDigit then none else some (Nat.ofDigitChars 10 cs 0)

/-- `str::parse::<u64>`. -/
def parseU64 (s : String) : Option UInt64 := do
  let n ← match s.toList with
    | '+' :: cs => parseDigits cs
    | cs => parseDigits cs
  if n < 2 ^ 64 then return .ofNat n else none

lemma parseDigits_toDigits (n : Nat) : parseDigits (Nat.toDigits 10 n) = some n := by
  have hall : (Nat.toDigits 10 n).all Char.isDigit = true :=
    List.all_eq_true.mpr fun c hc => Nat.isDigit_of_mem_toDigits (by decide) (by decide) hc
  rw [parseDigits, if_neg (by simp [hall]), Nat.ofDigitChars_toDigits (by decide) (by decide)]

/-- The digits of a number, of which the first is no sign. -/
lemma toDigits_eq_cons (n : Nat) : ∃ c cs, Nat.toDigits 10 n = c :: cs ∧ c ≠ '+' ∧ c ≠ '-' := by
  obtain ⟨c, cs, h⟩ := List.exists_cons_of_ne_nil (Nat.toDigits_ne_nil (n := n) (b := 10))
  have hdigit : c.isDigit = true :=
    Nat.isDigit_of_mem_toDigits (by decide) (by decide) (h ▸ List.mem_cons_self (a := c) (l := cs))
  exact ⟨c, cs, h, fun hc => by subst hc; revert hdigit; decide, fun hc => by subst hc; revert hdigit; decide⟩

lemma parseU64_toString (n : UInt64) : parseU64 (toString n.toNat) = some n := by
  obtain ⟨_, _, h, hplus, -⟩ := toDigits_eq_cons n.toNat
  rw [parseU64, Nat.toString_eq_repr, Nat.toList_repr, h]
  split
  · rename_i hc
    exact absurd (List.cons.inj hc).1 hplus
  · rw [← h, parseDigits_toDigits]
    exact (if_pos n.toNat_lt).trans (congrArg some UInt64.ofNat_toNat)

end Dtn
