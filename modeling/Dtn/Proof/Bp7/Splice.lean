import Dtn.Proof.Bp7.Pieces

/-!
# Reassembly of any fragments

On fragments with any offsets and lengths the `try_fold` of
`can_reassemble_bundles` is the sweep over their ranges (`coverLoop_eq_sweep`),
and wherever the sweep gets, the splice loop has a byte of some fragment at each
position up to there (`spliceLoop_eq_ok`). So fragments of one bundle can be
reassembled exactly if they cover its payload and nothing else
(`reassemble_covered`).
-/

namespace Dtn.Bp7.Bundle

open List Outcome Dtn.Cbor Dtn.Cover UInt64 Nat

variable {ε : Type}
variable {x : Bundle} {xs : List Bundle} {data : List UInt8}

/-- The data of the first payload block, if there is one. -/
def payloadBytes (x : Bundle) : List UInt8 := ((x.blocks.find? (·.block.isPayload)).map (·.block.content)).getD []

/-- The range of the payload that a fragment has. -/
def range (x : Bundle) : Nat × Nat := (x.offset.toNat, x.payloadBytes.length)

/-- The byte that a fragment has for a position. -/
def byteAt (x : Bundle) (i : Nat) : Option UInt8 :=
  if x.offset.toNat ≤ i then x.payloadBytes[i - x.offset.toNat]? else none

/-- A fragment with a payload whose range does not overflow. -/
structure Ranged (x : Bundle) : Prop where
  payload : (x.blocks.find? (·.block.isPayload)).isSome
  bound : x.range.1 + x.range.2 < 2 ^ 64

lemma Ranged.payloadData (h : x.Ranged) : (x.payloadData : Outcome ε (List UInt8)) = .ok x.payloadBytes := by
  grind [h.payload, Bundle.payloadData, payloadCanonicalBlock, payloadBytes]

/-! ## The coverage fold -/

lemma coverStep_eq (hacc : acc < 2 ^ 64) (hol : o + l < 2 ^ 64) :
    coverStep (ofNat acc) (ofNat o) (ofNat l) =
      if o ≤ acc then some (ofNat (max acc (o + l))) else none := by
  have ha : (ofNat acc).toNat = acc := by rw [toNat_ofNat', mod_eq_of_lt hacc]
  have ho : (ofNat o).toNat = o := by rw [toNat_ofNat', mod_eq_of_lt (by omega)]
  have hsum : ofNat o + ofNat l = ofNat (o + l) := (ofNat_add ..).symm
  have hs : (ofNat (o + l)).toNat = o + l := by rw [toNat_ofNat', mod_eq_of_lt hol]
  unfold coverStep
  rw [hsum]
  by_cases hlt : o < acc
  · have hmax : max (ofNat acc) (ofNat (o + l)) = ofNat (max acc (o + l)) := by
      have hle : ofNat acc ≤ ofNat (o + l) ↔ acc ≤ o + l := by rw [le_iff_toNat_le, ha, hs]
      by_cases h : acc ≤ o + l
      · rw [max_eq_right h]; exact if_pos (hle.mpr h)
      · rw [Nat.max_eq_left (Nat.le_of_not_le h)]; exact if_neg (mt hle.mp h)
    rw [if_pos (lt_iff_toNat_lt.mpr (by rw [ha, ho]; exact hlt)), if_pos hlt.le, hmax]
  · grind [lt_iff_toNat_lt]

lemma Ranged.offset_eq : x.offset = UInt64.ofNat x.range.1 := UInt64.ofNat_toNat.symm

lemma coverLoop_eq_sweep (hx : ∀ x ∈ xs, x.Ranged) (hacc : acc < 2 ^ 64) :
    (coverLoop (ofNat acc) xs : Outcome ε (Option UInt64)) =
      .ok ((sweep acc (xs.map range)).map ofNat) := by
  induction xs generalizing acc with
  | nil => rfl
  | cons x xs =>
    have hr := hx x mem_cons_self
    have hbound := hr.bound
    have hstep := coverStep_eq hacc hbound
    rw [← Ranged.offset_eq] at hstep
    rw [coverLoop, hr.payloadData, ok_bind, map_cons, sweep]
    rw [show coverStep (ofNat acc) x.offset (ofNat x.payloadBytes.length) = _ from hstep]
    by_cases ho : x.range.1 ≤ acc
    · grind
    · rw [if_neg ho, if_neg ho]
      rfl

/-! ## The splice loop -/

/-- The bytes of a fragment from some position on, behind what is there already. -/
lemma getElem?_splice (ho : x.offset.toNat ≤ data.length)
    (h : (data ++ x.payloadBytes.drop (data.length - x.offset.toNat))[i]? = some byte) :
    data[i]? = some byte ∨ x.byteAt i = some byte := by grind [byteAt]

/-- Each byte that the loop puts together was there before or is one of a fragment. -/
lemma spliceLoop_eq_ok (hx : ∀ x ∈ xs, x.Ranged) (hn : n < 2 ^ 64) (h : sweep data.length (xs.map range) = some n) :
    ∃ whole, (spliceLoop data xs : Outcome ε (List UInt8)) = .ok whole ∧ whole.length = n ∧
      ∀ i byte, whole[i]? = some byte → data[i]? = some byte ∨ ∃ x ∈ xs, x.byteAt i = some byte := by
  induction xs generalizing data with
  | nil =>
    cases h
    exact ⟨data, rfl, rfl, fun i byte hi => .inl hi⟩
  | cons x xs ih =>
    have hr := hx x mem_cons_self
    have hbound : x.offset.toNat + x.payloadBytes.length < 2 ^ 64 := hr.bound
    have hrest : ∀ y ∈ xs, y.Ranged := fun y hy => hx y (mem_cons_of_mem _ hy)
    rw [map_cons, sweep] at h
    split at h <;> [rename_i ho; cases h]
    have ho : x.offset.toNat ≤ data.length := ho
    rw [spliceLoop, hr.payloadData, ok_bind, mod_eq_of_lt hbound]
    split
    · rename_i hskip
      have hmax : max data.length (x.range.1 + x.range.2) = data.length := max_eq_left (le_of_lt hskip)
      rw [hmax] at h
      obtain ⟨whole, hwhole, hlen, hbytes⟩ := ih hrest h
      refine ⟨whole, hwhole, hlen, fun i byte hi => (hbytes i byte hi).imp_right ?_⟩
      rintro ⟨y, hy, hbyte⟩
      exact ⟨y, mem_cons_of_mem _ hy, hbyte⟩
    · rename_i hskip
      have hstart : (2 ^ 64 + data.length - x.offset.toNat) % 2 ^ 64 = data.length - x.offset.toNat := by omega
      have hlonger : (data ++ x.payloadBytes.drop (data.length - x.offset.toNat)).length =
          max data.length (x.range.1 + x.range.2) := by
        rw [length_append, length_drop]
        change _ = max data.length (x.offset.toNat + x.payloadBytes.length)
        omega
      rw [hstart, if_neg (by omega)]
      rw [← hlonger] at h
      obtain ⟨whole, hwhole, hlen, hbytes⟩ := ih hrest h
      refine ⟨whole, hwhole, hlen, fun i byte hi => ?_⟩
      rcases hbytes i byte hi with hi | ⟨y, hy, hbyte⟩
      · refine (getElem?_splice ho hi).imp_right fun hbyte => ?_
        exact ⟨x, mem_cons_self, hbyte⟩
      · exact .inr ⟨y, mem_cons_of_mem _ hy, hbyte⟩

/-! ## The order of the fragments -/

lemma pairwise_sortByOffset (xs : List Bundle) :
    (sortByOffset xs).Pairwise fun a b => a.offset.toNat ≤ b.offset.toNat := by
  have h : (sortByOffset xs).Pairwise fun a b => decide (a.offset ≤ b.offset) = true :=
    pairwise_mergeSort
      (fun a b c hab hbc => by
        simp only [decide_eq_true_eq, le_iff_toNat_le] at *; omega)
      (fun a b => by
        simp only [Bool.or_eq_true, decide_eq_true_eq, le_iff_toNat_le]; omega) xs
  exact h.imp fun h => le_iff_toNat_le.mp (of_decide_eq_true h)

/-! ## Fragments of one bundle -/

/-- Fragments that belong together, with any offsets and payloads. -/
structure FragmentSet (total : UInt64) (bs : List Bundle) : Prop where
  nonempty : bs ≠ []
  flag : ∀ b ∈ bs, b.primaryBlock.bundleProcessingFlags.contains .fragment = true
  same : ∀ b ∈ bs, ∀ b' ∈ bs, b.primaryBlock.equalsIgnoringFragmentOffset b'.primaryBlock = true
  offset : ∀ b ∈ bs, b.primaryBlock.fragmentOffset.isSome
  total : ∀ b ∈ bs, b.primaryBlock.totalDataLength = some total
  ranged : ∀ b ∈ bs, b.Ranged

/-- Every position lies in a fragment, and no fragment extends past the end. -/
def Covered (total : UInt64) (bs : List Bundle) : Prop :=
  (∀ i < total.toNat, ∃ b ∈ bs, b.range.1 ≤ i ∧ i < b.range.1 + b.range.2) ∧
    ∀ b ∈ bs, b.range.1 + b.range.2 ≤ total.toNat

variable {total : UInt64} {bs : List Bundle}

lemma covered_iff_sweep : Covered total bs ↔ sweep 0 ((sortByOffset bs).map range) = some total.toNat := by
  have hmem {b} : b ∈ sortByOffset bs ↔ b ∈ bs := (sortByOffset_perm bs).mem_iff
  have hsorted : ((sortByOffset bs).map range).Pairwise fun a b => a.1 ≤ b.1 :=
    pairwise_map.mpr (pairwise_sortByOffset bs)
  rw [sweep_iff hsorted, Covered]
  simp only [mem_map, exists_exists_and_eq_and, forall_exists_index, and_imp, forall_apply_eq_imp_iff₂, hmem]

/-- The test never panics on fragments that belong together, and says whether they cover the payload. -/
lemma FragmentSet.canReassembleBundles_eq (h : FragmentSet total bs) :
    (canReassembleBundles bs : Outcome ε (Bool × List Bundle)) =
      .ok (decide (sweep 0 ((sortByOffset bs).map range) = some total.toNat), sortByOffset bs) := by
  have hranged : ∀ x ∈ sortByOffset bs, x.Ranged := fun x hx => h.ranged x ((sortByOffset_perm bs).mem_iff.mp hx)
  have hloop := coverLoop_eq_sweep (ε := ε) hranged (show 0 < 2 ^ 64 by decide)
  have hlen : (sortByOffset bs).length = bs.length := (sortByOffset_perm bs).length_eq
  obtain ⟨first, rest, rfl⟩ := exists_cons_of_ne_nil h.nonempty
  have hall : ((first :: rest).all fun b => first.primaryBlock.equalsIgnoringFragmentOffset b.primaryBlock) = true :=
    all_eq_true.mpr (h.same first mem_cons_self)
  have hany : ((first :: rest).any (·.primaryBlock.fragmentOffset.isNone)) = false := by
    have hoffset := h.offset
    grind [Option.isNone_iff_eq_none]
  rw [canReassembleBundles, h.flag first mem_cons_self, Bool.not_true, if_neg Bool.false_ne_true,
    hall, Bool.not_true,
    if_neg Bool.false_ne_true, h.total first mem_cons_self]
  dsimp only
  rw [hany, if_neg Bool.false_ne_true]
  cases hs : sortByOffset (first :: rest) with
  | nil =>
    rw [hs] at hlen
    cases hlen
  | cons main others =>
    rw [hs] at hloop hranged
    rw [map_cons, List.head?_cons]
    by_cases hzero : main.offset = 0
    · rw [if_neg (by rw [hzero]; exact fun h => h rfl)]
      have hbound : ∀ r ∈ (main :: others).map range, r.1 + r.2 < 2 ^ 64 :=
        forall_mem_map.mpr fun x hx => (hranged x hx).bound
      have hiff : (sweep 0 ((main :: others).map range)).map ofNat = some total ↔
          sweep 0 ((main :: others).map range) = some total.toNat := by
        cases hsweep : sweep 0 ((main :: others).map range) with
        | none => simp
        | some =>
          have hn := sweep_lt hsweep (by decide) hbound
          rw [Option.map_some, Option.some.injEq, Option.some.injEq, ← UInt64.toNat_inj,
            UInt64.toNat_ofNat', mod_eq_of_lt hn]
      change (coverLoop (ofNat 0) (main :: others) >>= fun len => pure (decide (len = some total), _)) = _
      rw [hloop, ok_bind, Outcome.pure_def, decide_eq_decide.mpr hiff]
    · -- there is a gap before the first fragment
      have hgap : ¬ main.range.1 ≤ 0 := fun hle => hzero (UInt64.toNat_inj.mp (le_zero.mp hle))
      rw [if_pos fun h => hzero (Option.some.inj h), map_cons, sweep, if_neg hgap]
      rfl

lemma find_withPayload (data : List UInt8) (blocks : List CanonicalBlock) :
    (withPayload data blocks).find? (·.block.isPayload) =
      (blocks.find? (·.block.isPayload)).map fun c => { c with block := .payload ⟨data⟩ } := by
  induction blocks with
  | nil => rfl
  | cons c _ ih =>
    rw [withPayload, map_cons]
    cases hc : c.block.isPayload with
    | true =>
      rw [if_pos rfl, List.find?_cons_of_pos rfl, List.find?_cons, hc]
      rfl
    | false =>
      rw [if_neg Bool.false_ne_true, List.find?_cons, List.find?_cons, hc]
      exact ih

/-- The bundle that comes out of reassembly has the payload that was put together. -/
lemma payloadData_rebuild (h : main.Ranged) (data : List UInt8) :
    ((rebuild main data).payloadData : Outcome ε (List UInt8)) = .ok data := by
  obtain ⟨_, hc⟩ := Option.isSome_iff_exists.mp h.payload
  rw [Bundle.payloadData, payloadCanonicalBlock, rebuild, find_withPayload, hc]
  rfl

lemma toVec_rebuild (main : Bundle) (data : List UInt8) : ∃ bytes, (rebuild main data).toVec = .ok bytes := ⟨_, rfl⟩

lemma mem_range_of_byteAt (h : x.byteAt i = some byte) : x.range.1 ≤ i ∧ i < x.range.1 + x.range.2 := by
  rw [byteAt] at h
  split at h <;> [rename_i hle; cases h]
  obtain ⟨_, -⟩ := List.getElem?_eq_some_iff.mp h
  refine ⟨hle, ?_⟩
  change i < x.offset.toNat + x.payloadBytes.length
  omega

/-- Fragments that cover the payload are put together, into the one at its front. -/
lemma FragmentSet.reassembleBundles_eq (h : FragmentSet total bs) (hcover : Covered total bs)
    (hmemory : total.toNat ≤ isizeMax) :
    ∃ main ∈ bs, main.offset.toNat = 0 ∧ ∃ data bytes, reassembleBundles bs = .ok bytes ∧
      (rebuild main data).toVec = .ok bytes ∧ data.length = total.toNat ∧
      ∀ i byte, data[i]? = some byte → ∃ b ∈ bs, b.byteAt i = some byte := by
  have hsweep := covered_iff_sweep.mp hcover
  have hcan := h.canReassembleBundles_eq (ε := List Bundle)
  rw [decide_eq_true hsweep] at hcan
  have hperm := sortByOffset_perm bs
  have hmem {b} : b ∈ sortByOffset bs → b ∈ bs := hperm.mem_iff.mp
  have hcapacity : (withCapacity total.toNat : Outcome (List Bundle) Unit) = .ok () := if_neg (not_lt.mpr hmemory)
  cases hs : sortByOffset bs with
  | nil => exact absurd (List.Perm.nil_eq (hs ▸ hperm)).symm h.nonempty
  | cons main =>
    rw [hs] at hsweep hcan hmem
    have hmain : main ∈ bs := hmem mem_cons_self
    have hranged := h.ranged main hmain
    rw [map_cons, sweep] at hsweep
    split at hsweep <;> [rename_i hzero; cases hsweep]
    have hzero : main.offset.toNat = 0 := le_zero.mp hzero
    have hfirst : max 0 (main.range.1 + main.range.2) = main.payloadBytes.length := by
      rw [zero_max, range, hzero, zero_add]
    rw [hfirst] at hsweep
    obtain ⟨data, hdata, hlen, _⟩ := spliceLoop_eq_ok (ε := List Bundle)
      (fun x hx => h.ranged x (hmem (mem_cons_of_mem _ hx))) (toNat_lt total) hsweep
    obtain ⟨bytes, hvec⟩ := toVec_rebuild main data
    refine ⟨main, hmain, hzero, data, bytes, ?_, hvec, hlen, fun i byte hi => ?_⟩
    · rw [reassembleBundles, hcan, ok_bind]
      dsimp only
      rw [Bool.not_true, if_neg Bool.false_ne_true, h.total main hmain]
      dsimp only
      rw [hcapacity, ok_bind, hranged.payloadData, ok_bind, hdata, ok_bind]
      exact unwrap_eq_ok.mpr hvec
    · grind [byteAt]

/-- What is covered is not longer than the fragments are together. -/
lemma Covered.total_le_sum (h : Covered total bs) : total.toNat ≤ (bs.map (·.range.2)).sum := by
  have hle := sweep_le_sum (covered_iff_sweep.mp h)
  rwa [map_map, ((sortByOffset_perm bs).map _).sum_nat, zero_add] at hle

/-- Fragments that leave a gap come back. -/
lemma FragmentSet.reassembleBundles_eq_err (h : FragmentSet total bs) (hgap : ¬ Covered total bs) :
    reassembleBundles bs = .err (sortByOffset bs) := by
  rw [reassembleBundles, h.canReassembleBundles_eq, decide_eq_false fun hsweep => hgap (covered_iff_sweep.mpr hsweep)]
  rfl

/-- Fragments of one bundle can be reassembled exactly if they cover its payload and nothing else. Then each byte of the
whole is one that a fragment has for its position, if they fit in memory together; otherwise all fragments come back. -/
theorem reassemble_covered (h : FragmentSet total bs) :
    ∃ can sorted, (canReassembleBundles bs : Outcome (List Bundle) (Bool × List Bundle)) = .ok (can, sorted) ∧
      (can = true ↔ Covered total bs) ∧
      (can = true → (bs.map (·.range.2)).sum ≤ isizeMax → ∃ main ∈ bs, ∃ data bytes,
        reassembleBundles bs = .ok bytes ∧ (rebuild main data).toVec = .ok bytes ∧
        ((rebuild main data).payloadData : Outcome (List Bundle) (List UInt8)) = .ok data ∧
        data.length = total.toNat ∧
        ∀ i < total.toNat, ∃ b ∈ bs, (b.range.1 ≤ i ∧ i < b.range.1 + b.range.2) ∧ data[i]? = b.byteAt i) ∧
      (can = false → ∃ bs', reassembleBundles bs = .err bs' ∧ bs'.Perm bs) := by
  refine ⟨_, _, h.canReassembleBundles_eq, decide_eq_true_iff.trans covered_iff_sweep.symm,
    fun htrue hmemory => ?_, fun hfalse => ?_⟩
  · have hcover : Covered total bs := covered_iff_sweep.mpr (of_decide_eq_true htrue)
    obtain ⟨main, hmain, -, data, bytes, hbytes, hvec, hlen, hdata⟩ :=
      h.reassembleBundles_eq hcover (le_trans hcover.total_le_sum hmemory)
    refine ⟨main, hmain, data, bytes, hbytes, hvec, payloadData_rebuild (h.ranged main hmain) data,
      hlen, fun i hi => ?_⟩
    have hi := List.getElem?_eq_getElem (hlen.symm ▸ hi)
    obtain ⟨b, hb, hbyte⟩ := hdata i _ hi
    exact ⟨b, hb, mem_range_of_byteAt hbyte, hi.trans hbyte.symm⟩
  · have hgap : ¬ Covered total bs := fun hcover => of_decide_eq_false hfalse (covered_iff_sweep.mp hcover)
    exact ⟨sortByOffset bs, h.reassembleBundles_eq_err hgap, sortByOffset_perm bs⟩

/-- A fragment of five bytes from `dtn://a` to `dtn://b`. -/
def fragmentAt (o : UInt64) (data : List UInt8) : Bundle where
  primaryBlock := ⟨7, .fragment, .noCRC, .dtn ⟨"//b"⟩, .dtn ⟨"//a"⟩, .dtn ⟨"none"⟩, ⟨⟨1000⟩, 1⟩, 3600, some o, some 5⟩
  blocks := [⟨.payload ⟨data⟩, 1, .empty, .noCRC⟩]

/-- Two fragments that do not agree on a byte, and an empty one. -/
def overlapping : List Bundle := [fragmentAt 2 [7, 8, 9], fragmentAt 0 [1, 2, 3], fragmentAt 1 []]

theorem reassemble_overlapping : FragmentSet 5 overlapping ∧ Covered 5 overlapping ∧
    ∃ main ∈ overlapping, ∃ data bytes, reassembleBundles overlapping = .ok bytes ∧
      (rebuild main data).toVec = .ok bytes ∧ data.length = 5 ∧
      ∀ i < 5, ∃ b ∈ overlapping, (b.range.1 ≤ i ∧ i < b.range.1 + b.range.2) ∧ data[i]? = b.byteAt i := by
  have hset : FragmentSet 5 overlapping := by
    refine ⟨nofun, by decide, by decide, by decide, by decide, ?_⟩
    simp only [overlapping, forall_mem_cons]
    exact ⟨⟨rfl, by decide⟩, ⟨rfl, by decide⟩, ⟨rfl, by decide⟩, forall_mem_nil _⟩
  have hcover : Covered 5 overlapping := by
    unfold Covered
    decide
  obtain ⟨can, sorted, -, hiff, htrue, -⟩ := reassemble_covered hset
  obtain ⟨main, hmain, data, bytes, hbytes, hvec, -, hlen, hdata⟩ := htrue (hiff.mpr hcover) (by decide)
  exact ⟨hset, hcover, main, hmain, data, bytes, hbytes, hvec, hlen, hdata⟩

end Dtn.Bp7.Bundle
