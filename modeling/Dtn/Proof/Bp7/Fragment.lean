import Dtn.Framework.Cover
import Dtn.Impl.Bp7.Fragment

/-!
# Fragments tile the payload

What a tree of `fragment` calls leaves of a whole bundle: bundles that differ
from it in their fragment fields and in the blocks before the payload, and
whose payloads are consecutive slices of its payload (`Piece`, `Tiled`). One
call turns a whole bundle into such a tiling (`tiled_of_whole`) and a piece
into a tiling of its own range (`tiled_of_piece`); by induction over the calls
so does every tree of them (`Leaves.tiled`).
-/

namespace Dtn.Bp7

open Dtn.Cbor Dtn.Cover Outcome Nat

/-! ## The fragment flag -/

lemma BundleFlags.contains_union_self (f g : BundleFlags) : (f.union g).contains g = true := by
  simp only [contains, union, beq_iff_eq]
  rw [UInt64.and_comm, ← UInt64.toBitVec_inj]
  ext i hi
  simp only [UInt64.toBitVec_and, UInt64.toBitVec_or, BitVec.getElem_and, BitVec.getElem_or]
  cases g.bits.toBitVec[i] <;> simp

lemma BundleFlags.union_union_self (f g : BundleFlags) : (f.union g).union g = f.union g := by
  simp only [union, UInt64.or_assoc, UInt64.or_self]

lemma BundleFlags.remove_union_fragment {f : BundleFlags} (h : f.contains .fragment = false) :
    (f.union .fragment).remove .fragment = f := by
  obtain ⟨f⟩ := f
  have h0 : f.toBitVec.getLsbD 0 = false := by
    by_contra hb
    refine absurd h ?_
    simp only [contains, fragment, Bool.not_eq_false, beq_iff_eq]
    rw [← UInt64.toBitVec_inj]
    ext i hi
    cases i with
    | zero => simpa using hb
    | succ => simp
  simp only [union, remove, fragment, mk.injEq]
  rw [← UInt64.toBitVec_inj]
  ext i hi
  cases i with
  | zero => simpa using h0
  | succ i =>
    have h1 : (1 : UInt64).toBitVec[i + 1] = false := by simp
    simp only [UInt64.toBitVec_and, UInt64.toBitVec_or, UInt64.toBitVec_not, BitVec.getElem_and, BitVec.getElem_or,
      BitVec.getElem_not, h1, Bool.or_false, Bool.not_false, Bool.and_true]

namespace Bundle

variable {o l maxSize : Nat} {x b : Bundle} {sizes : UInt64 × UInt64} {c : CanonicalBlock}
  {bytes primary : List UInt8}

/-! ## Trees of calls and what their leaves are -/

/-- A bundle that is no fragment, whose only payload block is its last block. -/
structure Whole (b : Bundle) : Prop where
  flag : b.primaryBlock.bundleProcessingFlags.contains .fragment = false
  offset : b.primaryBlock.fragmentOffset = none
  total : b.primaryBlock.totalDataLength = none
  payload : ∃ front c, b.blocks = front ++ [c] ∧ c.block.isPayload = true ∧ ∀ x ∈ front, x.block.isPayload = false

/-- What trees of `fragment` calls on these bundles, each of which succeeded,
have as their leaves: a bundle is kept, or replaced by the leaves of its fragments. -/
inductive Leaves : List Bundle → List Bundle → Prop
  | nil : Leaves [] []
  | keep {b : Bundle} {bs ls : List Bundle} : Leaves bs ls → Leaves (b :: bs) (b :: ls)
  | split {b : Bundle} {maxSize : Nat} {fs bs ls ls' : List Bundle} {sizes : UInt64 × UInt64} :
    b.fragment maxSize = .ok (fs, sizes) → Leaves fs ls → Leaves bs ls' → Leaves (b :: bs) (ls ++ ls')

/-- What all fragments of one whole bundle have in common. -/
structure Origin where
  /-- The primary block, up to the offset. -/
  primaryBlock : PrimaryBlock
  /-- The blocks before the payload block. -/
  front : List CanonicalBlock
  /-- The payload block, up to its data. -/
  payloadBlock : CanonicalBlock
  payload : List UInt8

/-- The origin of the fragments of `b`, whose blocks are `front` and `c`. -/
def origin (b : Bundle) (front : List CanonicalBlock) (c : CanonicalBlock) : Origin where
  primaryBlock :=
    { b.primaryBlock with
      bundleProcessingFlags := b.primaryBlock.bundleProcessingFlags.union .fragment
      totalDataLength := some (UInt64.ofNat c.block.content.length) }
  front := front
  payloadBlock := c
  payload := c.block.content

/-- `x` is the fragment with the `l` bytes of the payload from `o` on. Only
the fragment at the front is known to have all other blocks. -/
structure Piece (k : Origin) (o l : Nat) (x : Bundle) : Prop where
  primaryBlock : x.primaryBlock = { k.primaryBlock with fragmentOffset := some (UInt64.ofNat o) }
  blocks : ∃ front, x.blocks = front ++ [{ k.payloadBlock with block := .payload ⟨(k.payload.drop o).take l⟩ }] ∧
    (∀ y ∈ front, y.block.isPayload = false) ∧ (o = 0 → front = k.front)
  pos : 1 ≤ l
  le : o + l ≤ k.payload.length

/-! ## The payload block of a bundle that ends in it -/

section

variable {ε : Type} {b : Bundle} {front : List CanonicalBlock} {c : CanonicalBlock}

lemma payloadCanonicalBlock_eq (hb : b.blocks = front ++ [c]) (hc : c.block.isPayload = true)
    (hf : ∀ x ∈ front, x.block.isPayload = false) : (b.payloadCanonicalBlock : Outcome ε CanonicalBlock) = .ok c := by
  grind [payloadCanonicalBlock]

lemma payloadData_eq (hb : b.blocks = front ++ [c]) (hc : c.block.isPayload = true)
    (hf : ∀ x ∈ front, x.block.isPayload = false) : (b.payloadData : Outcome ε (List UInt8)) = .ok c.block.content := by
  grind [payloadCanonicalBlock_eq, payloadData]

lemma firstFragmentBlocks_eq (hb : b.blocks = front ++ [c]) (hc : c.block.isPayload = true)
    (hf : ∀ x ∈ front, x.block.isPayload = false) : b.firstFragmentBlocks = front := by
  grind [List.filter_eq_self, firstFragmentBlocks]

end

lemma firstFragmentBlocks_not_payload (b : Bundle) : ∀ x ∈ b.firstFragmentBlocks, x.block.isPayload = false :=
  fun x hx => by simpa using (List.mem_filter.mp hx).2

lemma fragmentBlocks_not_payload (b : Bundle) : ∀ x ∈ b.fragmentBlocks, x.block.isPayload = false := fun x hx => by
  simp only [fragmentBlocks, List.mem_filter, Bool.and_eq_true, Bool.not_eq_eq_eq_not, Bool.not_true] at hx
  exact hx.2.1

/-! ## One call -/

lemma fragment_eq_ok (h : b.fragment maxSize = .ok (fs, sizes)) :
    ∃ encoded primary c, b.toVec = .ok encoded ∧ maxSize < encoded.length ∧ b.primaryBlock.serialize = .ok primary ∧
      (fragmentMinSizes primary.length b.blocks).1 ≤ maxSize ∧
      (b.payloadCanonicalBlock : Outcome FragmentationError CanonicalBlock) = .ok c ∧
      (b.cutting c (fragmentMinSizes primary.length b.blocks) maxSize).loop 0 = .ok fs := by
  obtain ⟨encoded, hv, h⟩ := bind_eq_ok.mp h
  split at h <;> [cases h; skip]
  rename_i hlen
  split at h <;> [cases h; skip]
  split at h <;> [cases h; skip]
  obtain ⟨primary, hp, h⟩ := bind_eq_ok.mp h
  dsimp only at h
  split at h <;> [cases h; skip]
  obtain ⟨c, hc, h⟩ := bind_eq_ok.mp h
  obtain ⟨_, hl, h⟩ := bind_eq_ok.mp h
  simp only [pure_def, ok.injEq, Prod.mk.injEq] at h
  obtain ⟨rfl, -⟩ := h
  exact ⟨encoded, primary, c, mapErr_eq_ok.mp hv, Nat.lt_of_not_le hlen,
    mapErr_eq_ok.mp hp, by omega, hc, hl⟩

/-- The loop cuts the payload, from its offset on, into consecutive pieces. -/
lemma Cutting.loop_tiled {k : Cutting} {piece : Nat → Nat → Bundle → Prop}
    (hpiece : ∀ o l, 1 ≤ l → o + l ≤ k.payload.length → piece (g + o) l (k.piece o l)) (ho : o ≤ k.payload.length)
    {fs : List Bundle} (h : k.loop o = .ok fs) :
    Tiled piece (g + o) (g + k.payload.length) fs := by
  induction o using Cutting.loop.induct k generalizing fs with
  | case1 o hlt len hlen ih =>
    rw [Cutting.loop, if_pos hlt] at h
    rw [if_pos hlen] at h
    obtain ⟨encoded, -, h⟩ := bind_eq_ok.mp h
    split at h <;> [skip; cases h]
    obtain ⟨_, hrest, h⟩ := bind_eq_ok.mp h
    cases h
    have hle : o + len ≤ k.payload.length := by
      have : len ≤ k.payload.length - o := min_le_left ..
      omega
    exact ⟨len, hpiece o len hlen hle, by rw [add_assoc]; exact ih encoded hle hrest⟩
  | case2 => grind [Cutting.loop]
  | case3 _ hge =>
    rw [Cutting.loop, if_neg hge] at h
    cases h
    exact congrArg (g + ·) (Nat.le_antisymm ho (Nat.le_of_not_lt hge))

lemma piece_of_whole (hoffset : b.primaryBlock.fragmentOffset = none) (htotal : b.primaryBlock.totalDataLength = none)
    {sizes : Nat × Nat} (hl : 1 ≤ l) (hle : o + l ≤ c.block.content.length) :
    Piece (b.origin b.firstFragmentBlocks c) (0 + o) l ((b.cutting c sizes maxSize).piece o l) where
  primaryBlock := by simp_all [Cutting.piece, cutting, origin]
  blocks := by
    rw [zero_add]
    refine ⟨_, rfl, fun y hy => ?_, fun ho => if_pos ho⟩
    split at hy
    · exact firstFragmentBlocks_not_payload b y hy
    · exact fragmentBlocks_not_payload b y hy
  pos := hl
  le := by rw [zero_add]; exact hle

variable {K : Origin}

lemma piece_of_piece (hx : Piece K o l x) (hK : K.payload.length < 2 ^ 64)
    (htotal : K.primaryBlock.totalDataLength.isSome)
    (hflag : K.primaryBlock.bundleProcessingFlags.union .fragment = K.primaryBlock.bundleProcessingFlags)
    (hc : (x.payloadCanonicalBlock : Outcome FragmentationError CanonicalBlock) = .ok c) {sizes : Nat × Nat}
    (hj : 1 ≤ j) (hle : i + j ≤ l) : Piece K (o + i) j ((x.cutting c sizes maxSize).piece i j) := by
  obtain ⟨_, hb, hf, h0⟩ := hx.blocks
  have hol := hx.le
  rw [payloadCanonicalBlock_eq hb rfl hf, ok.injEq] at hc
  subst hc
  obtain ⟨_, _⟩ := Option.isSome_iff_exists.mp htotal
  refine ⟨?_, ⟨if i = 0 then x.firstFragmentBlocks else x.fragmentBlocks, ?_, fun y hy => ?_, fun hoi => ?_⟩,
    hj, by omega⟩
  · grind [hx.primaryBlock, UInt64.toNat_ofNat', Cutting.piece, cutting]
  · have hslice : (((K.payload.drop o).take l).drop i).take j = (K.payload.drop (o + i)).take j := by
      rw [List.drop_take, List.drop_drop, List.take_take, min_eq_left (by omega)]
    simp only [Cutting.piece, cutting, Block.content, hslice]
  · split at hy
    · exact hf y (firstFragmentBlocks_eq hb rfl hf ▸ hy)
    · exact fragmentBlocks_not_payload x y hy
  · obtain ⟨rfl, rfl⟩ : o = 0 ∧ i = 0 := by omega
    rw [if_pos rfl, firstFragmentBlocks_eq hb rfl hf, h0 rfl]

/-- One call on a whole bundle tiles its payload. -/
lemma tiled_of_whole (hoffset : b.primaryBlock.fragmentOffset = none) (htotal : b.primaryBlock.totalDataLength = none)
    (hc : (b.payloadCanonicalBlock : Outcome FragmentationError CanonicalBlock) = .ok c)
    (h : b.fragment maxSize = .ok (fs, sizes)) :
    Tiled (Piece (b.origin b.firstFragmentBlocks c)) 0 c.block.content.length fs := by
  obtain ⟨_, _, _, -, -, -, -, hc', hl⟩ := fragment_eq_ok h
  cases hc.symm.trans hc'
  have ht := Cutting.loop_tiled (fun o l hl hle => piece_of_whole hoffset htotal hl hle) (zero_le _) hl
  rwa [zero_add, zero_add] at ht

/-- One call on a piece tiles the range of that piece. -/
lemma tiled_of_piece (hK : K.payload.length < 2 ^ 64) (htotal : K.primaryBlock.totalDataLength.isSome)
    (hflag : K.primaryBlock.bundleProcessingFlags.union .fragment = K.primaryBlock.bundleProcessingFlags)
    (hx : Piece K o l x)
    (h : x.fragment maxSize = .ok (fs, sizes)) : Tiled (Piece K) o (o + l) fs := by
  obtain ⟨_, _, c, -, -, -, -, hc, hl⟩ := fragment_eq_ok h
  have hlen : c.block.content.length = l := by
    obtain ⟨_, hb, hf, -⟩ := hx.blocks
    have hol := hx.le
    rw [payloadCanonicalBlock_eq hb rfl hf, ok.injEq] at hc
    subst hc
    simp only [Block.content, List.length_take, List.length_drop]
    omega
  have ht := Cutting.loop_tiled (g := o)
    (fun i j hj hle => piece_of_piece hx hK htotal hflag hc hj (hlen ▸ hle)) (zero_le _) hl
  rwa [add_zero, show (x.cutting c _ maxSize).payload.length = l from hlen] at ht

/-- Whatever trees of calls are made on them, pieces that tile a range leave pieces that tile it. -/
lemma Leaves.tiled (hK : K.payload.length < 2 ^ 64) (htotal : K.primaryBlock.totalDataLength.isSome)
    (hflag : K.primaryBlock.bundleProcessingFlags.union .fragment = K.primaryBlock.bundleProcessingFlags)
    (h : Leaves fs ls) (ht : Tiled (Piece K) lo hi fs) : Tiled (Piece K) lo hi ls := by
  induction h generalizing lo hi with
  | nil => exact ht
  | keep _ ih =>
    obtain ⟨l, hx, hxs⟩ := ht
    exact ⟨l, hx, ih hxs⟩
  | split hfrag _ _ ih ih' =>
    obtain ⟨_, hx, hxs⟩ := ht
    exact (ih (tiled_of_piece hK htotal hflag hx hfrag)).append (ih' hxs)

/-! ## The payload of a bundle that can be fragmented -/

lemma length_head_le (major n : Nat) : (head major n).length ≤ 9 := by
  unfold head
  repeat' split
  all_goals simp

lemma length_serializeValue_le (crc : CRCType) : crc.serializeValue.length ≤ 45 := by
  have hu : ∀ x : UInt64, (encU64 x).length ≤ 9 := fun x => length_head_le 0 x.toNat
  cases crc with
  | noCRC => simp [CRCType.serializeValue]
  | crc16 | crc32 => grind [length_head_le, CRCType.serializeValue]

/-- Around its content a block takes less than the overhead `fragment` reckons with. -/
lemma length_serialize_le_content (c : CanonicalBlock) :
    c.serialize.length + 29 ≤ c.block.content.length + payloadBlockSerializationOverhead := by
  have hu : ∀ x : UInt64, (encU64 x).length ≤ 9 := fun x => length_head_le 0 x.toNat
  have hcrc : c.crc.serialize.length ≤ 9 := by cases c.crc <;> exact hu _
  have h₁ := length_head_le 4 (if c.crc = .noCRC then 5 else 6)
  have h2 := hu c.block.blockType
  have h3 := hu c.blockNumber
  have h4 := hu c.blockFlags.bits
  have h5 := length_head_le 2 c.block.content.length
  have h6 := length_serializeValue_le c.crc
  simp only [CanonicalBlock.serialize, BlockFlags.serialize, encBytes, List.length_append,
    payloadBlockSerializationOverhead]
  omega

/-- The blocks other than the payload that every fragment is to have. -/
def replicatedBlocks (b : Bundle) : List CanonicalBlock :=
  b.blocks.filter fun c => !c.block.isPayload && c.blockFlags.contains .mustReplicateToAllFragments

lemma length_serializeBlocks_cons (c : CanonicalBlock) (cs : List CanonicalBlock) :
    (serializeBlocks (c :: cs)).length = c.serialize.length + (serializeBlocks cs).length := by simp [serializeBlocks]

lemma length_serializeBlocks_filter (p : CanonicalBlock → Bool) (cs : List CanonicalBlock) :
    (serializeBlocks (cs.filter p)).length + (serializeBlocks (cs.filter fun c => !p c)).length =
      (serializeBlocks cs).length := by
  induction cs with
  | nil => rfl
  | cons => grind [length_serializeBlocks_cons]

/-- The first minimal size counts every block but the payload, the second one those to be replicated. -/
lemma fragmentMinSizes_eq (n : Nat) (b : Bundle) : fragmentMinSizes n b.blocks =
    (n + payloadBlockSerializationOverhead + bundleSerializationOverhead +
      (serializeBlocks b.firstFragmentBlocks).length,
      n + payloadBlockSerializationOverhead + bundleSerializationOverhead +
        (serializeBlocks b.replicatedBlocks).length) := by
  rw [fragmentMinSizes, firstFragmentBlocks, replicatedBlocks]
  generalize n + payloadBlockSerializationOverhead + bundleSerializationOverhead = base
  suffices ∀ sizes : Nat × Nat, b.blocks.foldl (fun sizes c =>
      if c.block.isPayload then sizes
      else
        let blockSize := c.serialize.length
        (sizes.1 + blockSize,
          if c.blockFlags.contains .mustReplicateToAllFragments then sizes.2 + blockSize else sizes.2)) sizes =
      (sizes.1 + (serializeBlocks (b.blocks.filter fun c => !c.block.isPayload)).length,
        sizes.2 + (serializeBlocks (b.blocks.filter fun c =>
          !c.block.isPayload && c.blockFlags.contains .mustReplicateToAllFragments)).length) from this (base, base)
  induction b.blocks with
  | nil => exact fun sizes => rfl
  | cons c _ ih =>
    intro sizes
    rw [List.foldl_cons, ih]
    cases hc : c.block.isPayload with
    | true => simp [hc]
    | false =>
      cases hr : c.blockFlags.contains .mustReplicateToAllFragments <;>
        simp [hc, hr, length_serializeBlocks_cons, add_assoc]

lemma length_toVec (hv : b.toVec = .ok bytes) (hp : b.primaryBlock.serialize = .ok primary) :
    bytes.length = primary.length + (serializeBlocks b.blocks).length + bundleSerializationOverhead := by
  grind [toVec, serialize, bundleSerializationOverhead]

lemma filter_isPayload_eq (hb : b.blocks = front ++ [c]) (hc : c.block.isPayload = true)
    (hf : ∀ x ∈ front, x.block.isPayload = false) :
    b.blocks.filter (·.block.isPayload) = [c] := by simp_all

lemma length_toVec_payload (hc : b.blocks.filter (·.block.isPayload) = [c]) (hv : b.toVec = .ok bytes)
    (hp : b.primaryBlock.serialize = .ok primary) :
    bytes.length = primary.length + (serializeBlocks b.firstFragmentBlocks).length + c.serialize.length +
      bundleSerializationOverhead := by
  grind [length_toVec, length_serializeBlocks_filter, serializeBlocks, firstFragmentBlocks]

/-- A bundle that can be fragmented has a payload, and more than the first fragment can take: otherwise it would be
smaller than it may be. -/
lemma payload_pos (hc : b.blocks.filter (·.block.isPayload) = [c]) (hv : b.toVec = .ok bytes)
    (hp : b.primaryBlock.serialize = .ok primary) (hlen : maxSize < bytes.length) :
    maxSize < (fragmentMinSizes primary.length b.blocks).1 + c.block.content.length := by
  have hle := length_serialize_le_content c
  rw [length_toVec_payload hc hv hp] at hlen
  rw [fragmentMinSizes_eq]
  simp only
  omega

end Bundle

end Dtn.Bp7
