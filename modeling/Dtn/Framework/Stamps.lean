import Mathlib.Algebra.Group.Nat.Defs
import Mathlib.Data.List.Nodup

/-!
# Numbering equal neighbours

A generator that gives each key a number and remembers only the last key: a key
that comes again at once gets the next number, and any other key starts at zero.
`nodup_stamps_iff` says when no pair of a key and its number is given twice:
equal keys come one after another, and no key comes more often than there are
numbers.
-/

namespace Dtn

open List

variable {κ : Type}

/-! ## Equal keys in a row -/

/-- Between two equal keys there is no other one. -/
def Consecutive (ts : List κ) : Prop :=
  ∀ (i j k : Nat) (t : κ), i < j → j < k → ts[i]? = some t → ts[k]? = some t → ts[j]? = some t

lemma exists_replicate_append (t : κ) (ts : List κ) :
    ∃ m rest, t :: ts = List.replicate (m + 1) t ++ rest ∧ rest.head? ≠ some t := by
  induction ts with
  | nil => exact ⟨0, [], rfl, nofun⟩
  | cons u ts ih =>
    by_cases hu : u = t
    · subst hu
      obtain ⟨m, rest, h, hrest⟩ := ih
      exact ⟨m + 1, rest, by rw [h, replicate_succ (n := m + 1), cons_append], hrest⟩
    · exact ⟨0, u :: ts, rfl, fun e => hu (Option.some.inj e)⟩

lemma consecutive_split (t : κ) (m : Nat) (hrest : rest.head? ≠ some t) :
    Consecutive (List.replicate (m + 1) t ++ rest) ↔ t ∉ rest ∧ Consecutive rest := by
  have hleft {i} (h : i < m + 1) : (List.replicate (m + 1) t ++ rest)[i]? = some t := by grind
  have hright (i : Nat) : (List.replicate (m + 1) t ++ rest)[m + 1 + i]? = rest[i]? := by grind
  constructor
  · intro h
    refine ⟨fun ht => ?_, fun i j k u hij hjk hi hk => ?_⟩
    · obtain ⟨q, hq⟩ := mem_iff_getElem?.mp ht
      have hpos : 0 < q := Nat.pos_of_ne_zero fun e => hrest (by rw [← hq, e, List.head?_eq_getElem?])
      have := h 0 (m + 1 + 0) (m + 1 + q) t (by omega) (by omega) (hleft (by omega)) (by rw [hright, hq])
      rw [hright, ← List.head?_eq_getElem?] at this
      exact hrest this
    · have := h (m + 1 + i) (m + 1 + j) (m + 1 + k) u (by omega) (by omega) (by rw [hright, hi]) (by rw [hright, hk])
      rwa [hright] at this
  · rintro ⟨ht, h⟩ i j k u hij hjk hi hk
    by_cases hkm : k < m + 1
    · rw [hleft hkm] at hk
      rw [hleft (by omega), hk]
    · obtain ⟨k, rfl⟩ := Nat.exists_eq_add_of_le (Nat.le_of_not_lt hkm)
      rw [hright] at hk
      by_cases him : i < m + 1
      · grind
      · obtain ⟨i, rfl⟩ := Nat.exists_eq_add_of_le (Nat.le_of_not_lt him)
        obtain ⟨j, rfl⟩ := Nat.exists_eq_add_of_le (show m + 1 ≤ j by omega)
        rw [hright] at hi ⊢
        exact h i j k u (by omega) (by omega) hi hk

lemma nodup_numbers_iff (t : κ) (m : Nat) : ((List.range m).map fun i => (t, UInt64.ofNat i)).Nodup ↔ m ≤ 2 ^ 64 := by
  rw [nodup_map_iff_inj_on nodup_range]
  constructor
  · intro h
    by_contra hm
    have := h 0 (mem_range.mpr (by omega)) (2 ^ 64) (mem_range.mpr (by omega)) rfl
    omega
  · grind [UInt64.toNat_ofNat']

/-! ## The generator -/

variable [DecidableEq κ]

/-- What is remembered after a key; its second part is the number of the key. -/
def nextStamp (g : Option κ × UInt64) (t : κ) : Option κ × UInt64 :=
  if some t = g.1 then (g.1, g.2 + 1) else (some t, 0)

/-- The keys with their numbers. -/
def stamps : Option κ × UInt64 → List κ → List (κ × UInt64)
  | _, [] => []
  | g, t :: ts => (t, (nextStamp g t).2) :: stamps (nextStamp g t) ts

lemma nextStamp_same (t : κ) (n : UInt64) : nextStamp (some t, n) t = (some t, n + 1) := if_pos rfl

lemma nextStamp_other {g : Option κ × UInt64} (h : g.1 ≠ some t) : nextStamp g t = (some t, 0) :=
  if_neg h.symm

lemma nextStamp_fst (g : Option κ × UInt64) (t : κ) : (nextStamp g t).1 = some t := by
  unfold nextStamp
  split <;> [exact .symm ‹_›; rfl]

lemma map_fst_stamps (g : Option κ × UInt64) (ts : List κ) : (stamps g ts).map Prod.fst = ts := by
  induction ts generalizing g with
  | nil => rfl
  | cons _ _ ih => rw [stamps, map_cons, ih]

lemma stamps_of_head {g g' : Option κ × UInt64} (h : ∀ t ∈ ts.head?, g.1 ≠ some t ∧ g'.1 ≠ some t) :
    stamps g ts = stamps g' ts := by
  cases ts with
  | nil => rfl
  | cons => grind [nextStamp_other, stamps]

/-- A key that comes, and was not the last one, gets the number zero. -/
lemma zero_mem_stamps {ts : List κ} (ht : t ∈ ts) (hg : g.1 ≠ some t) : (t, 0) ∈ stamps g ts := by
  induction ts generalizing g with
  | nil => cases ht
  | cons => grind [nextStamp_other, nextStamp_fst, stamps]

lemma stamps_replicate (t : κ) (n : UInt64) (m : Nat) (rest : List κ) :
    stamps (some t, n) (List.replicate m t ++ rest) =
      (List.range m).map (fun i => (t, n + .ofNat (i + 1))) ++ stamps (some t, n + .ofNat m) rest := by
  induction m generalizing n with
  | zero => simp
  | succ => simp_all [UInt64.add_assoc, UInt64.add_comm, replicate_succ, nextStamp_same, range_succ_eq_map, stamps]

/-- The numbers of the first keys, which are equal, and then those of the others. -/
lemma stamps_split (t : κ) (m : Nat) (hrest : rest.head? ≠ some t) :
    stamps (none, 0) (List.replicate (m + 1) t ++ rest) =
      (List.range (m + 1)).map (fun i => (t, UInt64.ofNat i)) ++ stamps (none, 0) rest := by
  have hhead : stamps (some t, 0 + UInt64.ofNat m) rest = stamps (none, 0) rest :=
    stamps_of_head fun u hu => ⟨fun e => hrest (hu.trans e.symm), Option.some_ne_none u |>.symm⟩
  have hnone : (none : Option κ) ≠ some t := nofun
  rw [replicate_succ, cons_append, stamps, nextStamp_other hnone, stamps_replicate, hhead,
    range_succ_eq_map, map_cons, map_map, cons_append]
  simp only [UInt64.zero_add]
  rfl

lemma nodup_stamps_iff (ts : List κ) : (stamps (none, 0) ts).Nodup ↔ Consecutive ts ∧ ∀ t, ts.count t ≤ 2 ^ 64 := by
  -- over the length: the equal keys at the front are taken off together
  induction hn : ts.length using Nat.strongRecOn generalizing ts with
  | _ _ ih =>
    cases ts with
    | nil => exact ⟨fun _ => ⟨nofun, by simp⟩, fun _ => nodup_nil⟩
    | cons t ts =>
      obtain ⟨m, rest, hts, hrest⟩ := exists_replicate_append t ts
      rw [hts] at hn ⊢
      have ih := ih rest.length (by simp at hn; omega) rest rfl
      have hdisjoint : ((List.range (m + 1)).map fun i => (t, UInt64.ofNat i)).Disjoint (stamps (none, 0) rest) ↔
          t ∉ rest := by
        constructor
        · intro h ht
          exact h (mem_map.mpr ⟨0, by simp, rfl⟩) (zero_mem_stamps ht nofun)
        · intro ht x hx hx'
          obtain ⟨_, -, rfl⟩ := mem_map.mp hx
          exact ht (by rw [← map_fst_stamps (none, 0) rest]; exact mem_map_of_mem hx')
      rw [stamps_split t m hrest, nodup_append', nodup_numbers_iff, hdisjoint, ih, consecutive_split t m hrest]
      constructor
      · grind
      · rintro ⟨⟨ht, hc⟩, hcount⟩
        refine ⟨?_, ⟨hc, fun u => ?_⟩, ht⟩
        · have := hcount t
          rw [count_append, count_replicate_self] at this
          omega
        · have := hcount u
          rw [count_append] at this
          omega

end Dtn
