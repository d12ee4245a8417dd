import Dtn.Proof.Bp7.Decoded
import Dtn.Proof.Bp7.Fragment

/-!
# The fragments of any bundle

What one call of `Bundle.fragment` makes of a bundle that is only known to be
`Shaped`, wherever its payload block stands: the fragments are shaped
(`fragment_shaped`), and they have the payload between them, from front to back
(`fragment_payloads`) and at increasing offsets as long as these do not
overflow (`fragment_offsets`). What can be reassembled are fragments
(`canReassembleBundles_eq_true`), and a bundle that comes out of it is shaped and
is none (`reassembleBundles_eq_ok`).
-/

namespace Dtn.Bp7

open List Outcome Dtn.Cover

lemma BundleFlags.Defined.union {f g : BundleFlags} (hf : f.Defined) (hg : g.Defined) : (f.union g).Defined := by
  grind [UInt64.toBitVec_inj, UInt64.toBitVec_and, UInt64.toBitVec_or, BitVec.and_comm, BitVec.and_or_distrib_left,
      BundleFlags.Defined, BundleFlags.union]

lemma BundleFlags.Defined.remove {f : BundleFlags} (hf : f.Defined) (g : BundleFlags) : (f.remove g).Defined := by
  grind [BundleFlags.Defined, BundleFlags.remove]

namespace Bundle

variable {ε : Type} {payload : List UInt8} {fs bs : List Bundle} {minSizes : UInt64 × UInt64} {o : Nat}

/-- Some bytes of the payload, as a piece of their own. -/
structure Cutting.Cut (k : Cutting) (o l : Nat) (x : Bundle) : Prop where
  eq : x = k.piece o l
  pos : 1 ≤ l
  le : o + l ≤ k.payload.length

variable {b : Bundle} {c : CanonicalBlock} {sizes : Nat × Nat} {maxSize : Nat}

lemma payloadCanonicalBlock_eq_ok (h : (b.payloadCanonicalBlock : Outcome ε CanonicalBlock) = .ok c) :
    b.blocks.find? (·.block.isPayload) = some c := by grind [payloadCanonicalBlock]

lemma payloadData_eq_ok (h : (b.payloadData : Outcome ε (List UInt8)) = .ok payload) :
    ∃ c, b.blocks.find? (·.block.isPayload) = some c ∧ payload = c.block.content := by
  obtain ⟨c, hc, h⟩ := bind_eq_ok.mp h
  cases h
  exact ⟨c, payloadCanonicalBlock_eq_ok hc, rfl⟩

lemma front_sublist (b : Bundle) (o : Nat) :
    (if o = 0 then b.firstFragmentBlocks else b.fragmentBlocks).Sublist b.blocks := by
  split <;> exact filter_sublist

lemma front_not_payload (b : Bundle) (o : Nat) :
    ∀ x ∈ (if o = 0 then b.firstFragmentBlocks else b.fragmentBlocks), x.block.isPayload = false := fun x hx => by
  split at hx
  · exact firstFragmentBlocks_not_payload b x hx
  · exact fragmentBlocks_not_payload b x hx

/-- A successful call cuts the payload from its front to its end. -/
lemma fragment_tiled (h : b.fragment maxSize = .ok (fs, minSizes)) :
    ∃ c sizes, b.blocks.find? (·.block.isPayload) = some c ∧
      Tiled (b.cutting c sizes maxSize).Cut 0 c.block.content.length fs := by
  obtain ⟨_, _, c, -, -, -, -, hc, hl⟩ := fragment_eq_ok h
  have hcut (o l : Nat) (hl : 1 ≤ l) (hle : o + l ≤ c.block.content.length) (sizes : Nat × Nat) :
      (b.cutting c sizes maxSize).Cut (0 + o) l ((b.cutting c sizes maxSize).piece o l) := by
    rw [Nat.zero_add]
    exact ⟨rfl, hl, hle⟩
  have ht := Cutting.loop_tiled (fun o l hl hle => hcut o l hl hle _) (Nat.zero_le _) hl
  rw [Nat.zero_add, Nat.zero_add] at ht
  exact ⟨c, _, payloadCanonicalBlock_eq_ok hc, ht⟩

lemma piece_shaped (hb : b.Shaped) (hc : c ∈ b.blocks) (o l : Nat) :
    ((b.cutting c sizes maxSize).piece o l).Shaped where
  nonempty := by simp [Cutting.piece]
  fragment := rfl
  flags := by
    refine ⟨hb.flags.1.union (by decide), fun x hx => ?_⟩
    rcases mem_append.mp hx with hx | hx
    · exact hb.flags.2 x ((front_sublist b o).subset hx)
    · rw [mem_singleton.mp hx]
      exact hb.flags.2 c hc
  proper := fun x hx => by
    rcases mem_append.mp hx with hx | hx
    · exact hb.proper x ((front_sublist b o).subset hx)
    · rw [mem_singleton.mp hx]
      trivial

lemma fragment_shaped (hb : b.Shaped) (h : b.fragment maxSize = .ok (fs, minSizes)) (hf : f ∈ fs) : f.Shaped := by
  obtain ⟨_, _, hc, ht⟩ := fragment_tiled h
  obtain ⟨o, l, hcut, -, -⟩ := ht.of_mem hf
  rw [hcut.eq]
  exact piece_shaped hb (mem_of_find?_eq_some hc) o l

lemma piece_payloadData (o l : Nat) :
    (((b.cutting c sizes maxSize).piece o l).payloadData : Outcome ε (List UInt8)) =
      .ok ((c.block.content.drop o).take l) := by
  rw [payloadData_eq (b := (b.cutting c sizes maxSize).piece o l) rfl rfl (front_not_payload b o)]
  rfl

/-- The payloads of pieces that tile the payload from some offset on. -/
lemma tiled_payloads (h : Tiled (b.cutting c sizes maxSize).Cut o c.block.content.length fs) :
    ∃ parts, List.Forall₂ (fun f part => (f.payloadData : Outcome ε (List UInt8)) = .ok part) fs parts ∧
      parts.flatten = c.block.content.drop o := by
  induction fs generalizing o with
  | nil => exact ⟨[], .nil, by rw [show o = _ from h, drop_length]; rfl⟩
  | cons _ _ ih =>
    obtain ⟨l, hcut, hrest⟩ := h
    obtain ⟨_, hparts, hflatten⟩ := ih hrest
    refine ⟨_, .cons (by rw [hcut.eq]; exact piece_payloadData o l) hparts, ?_⟩
    rw [flatten_cons, hflatten, ← drop_drop, take_append_drop]

/-- Put one behind the other, the payloads of the fragments are the payload. -/
lemma fragment_payloads (h : b.fragment maxSize = .ok (fs, minSizes))
    (hp : (b.payloadData : Outcome ε (List UInt8)) = .ok payload) :
    ∃ parts, List.Forall₂ (fun f part => (f.payloadData : Outcome ε (List UInt8)) = .ok part) fs parts ∧
      parts.flatten = payload := by
  obtain ⟨_, _, hc, ht⟩ := fragment_tiled h
  obtain ⟨parts, hparts, hflatten⟩ := tiled_payloads (ε := ε) ht
  obtain ⟨_, hc', rfl⟩ := payloadData_eq_ok hp
  cases hc.symm.trans hc'
  exact ⟨parts, hparts, hflatten⟩

lemma piece_offset (h : b.offset.toNat + o < 2 ^ 64) :
    ((b.cutting c sizes maxSize).piece o l).offset.toNat = b.offset.toNat + o := by
  grind [UInt64.toNat_ofNat', offset, Cutting.piece, cutting]

/-! ## Reassembly -/

lemma sortByOffset_perm (bs : List Bundle) : (sortByOffset bs).Perm bs := mergeSort_perm _ _

lemma sortByOffset_of_pairwise (h : bs.Pairwise fun a b => a.offset < b.offset) : sortByOffset bs = bs :=
  mergeSort_of_pairwise (h.imp fun {a b} hab => by
    simp only [decide_eq_true_eq, UInt64.le_iff_toNat_le, UInt64.lt_iff_toNat_lt] at hab ⊢
    exact Nat.le_of_lt hab)

lemma canReassembleBundles_eq_true
    (h : (canReassembleBundles bs : Outcome ε (Bool × List Bundle)) = .ok (true, sorted)) :
    sorted = sortByOffset bs ∧ ∀ b ∈ bs, b.primaryBlock.fragmentOffset.isSome ∧
      b.primaryBlock.bundleProcessingFlags.contains .fragment := by
  cases bs with
  | nil => cases h
  | cons first rest =>
    rw [canReassembleBundles] at h
    split at h <;> [cases h; skip]
    rename_i hflag
    split at h <;> [cases h; skip]
    rename_i hall
    split at h <;> [cases h; skip]
    split at h <;> [cases h; skip]
    have hsorted : sorted = sortByOffset (first :: rest) := by grind
    refine ⟨hsorted, fun b hb => ⟨?_, ?_⟩⟩
    · grind [Option.isSome_iff_ne_none]
    · simp only [Bool.not_eq_eq_eq_not, Bool.not_true, Bool.not_eq_false, all_eq_true] at hall hflag
      have heq := congrArg PrimaryBlock.bundleProcessingFlags (beq_iff_eq.mp (hall b hb))
      rw [← heq]
      exact hflag

/-- The bundle that `reassemble_bundles` makes of the first fragment and the payload it put together. -/
def rebuild (main : Bundle) (data : List UInt8) : Bundle where
  primaryBlock := clearFragment main.primaryBlock
  blocks := withPayload data main.blocks

lemma rebuild_shaped {main : Bundle} (h : main.Shaped) (data : List UInt8) : (rebuild main data).Shaped where
  nonempty := by simp [rebuild, withPayload, h.nonempty]
  fragment := rfl
  flags := by
    refine ⟨h.flags.1.remove _, fun x hx => ?_⟩
    obtain ⟨y, hy, rfl⟩ := mem_map.mp hx
    split <;> exact h.flags.2 y hy
  proper := fun x hx => by
    obtain ⟨y, hy, rfl⟩ := mem_map.mp hx
    split
    · trivial
    · exact h.proper y hy

lemma reassembleBundles_eq_ok (h : reassembleBundles bs = .ok bytes) :
    (∀ b ∈ bs, b.primaryBlock.fragmentOffset.isSome ∧ b.primaryBlock.bundleProcessingFlags.contains .fragment) ∧
      ∃ main ∈ bs, ∃ data, (rebuild main data).toVec = .ok bytes := by
  obtain ⟨⟨can, _⟩, hcan, h⟩ := bind_eq_ok.mp h
  dsimp only at h
  split at h <;> [cases h; skip]
  rename_i htrue
  obtain rfl : can = true := by simpa using htrue
  obtain ⟨rfl, hfragments⟩ := canReassembleBundles_eq_true hcan
  split at h <;> [cases h; skip]
  rename_i main rest hsorted
  split at h <;> [cases h; skip]
  obtain ⟨-, -, h⟩ := bind_eq_ok.mp h
  obtain ⟨_, -, h⟩ := bind_eq_ok.mp h
  obtain ⟨data, -, h⟩ := bind_eq_ok.mp h
  have hmain : main ∈ bs := (sortByOffset_perm bs).mem_iff.mp (by rw [hsorted]; exact mem_cons_self)
  exact ⟨hfragments, main, hmain, data, unwrap_eq_ok.mp h⟩

end Bundle

end Dtn.Bp7
