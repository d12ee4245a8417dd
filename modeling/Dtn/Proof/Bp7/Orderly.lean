import Dtn.Proof.Bp7.Cuts
import Dtn.Proof.Bp7.Forward

/-!
# Orderly bundles

An `Orderly` bundle has no checksum, exactly one payload block, the fragment
fields if and only if its flags say so, and a payload that ends before `2 ^ 64`.
Its encoding can be decoded (`Orderly.tryFrom_eq`). What is made of orderly
bundles is orderly again: by forwarding (`Adjusts.orderly`), by cutting
(`fragment_orderly`) and by putting fragments together (`rebuild_orderly`). An
orderly bundle that is `Divisible` is cut without a panic (`Orderly.fragment_cases`).
The fragments that a whole bundle is `Scattered` into give it back when all of them
are there (`Scattered.reassemble`), and only then (`Scattered.incomplete`).
-/

namespace Dtn.Bp7

open List Dtn.Cbor Dtn.Cover

lemma BundleFlags.contains_remove_fragment (f : BundleFlags) : (f.remove .fragment).contains .fragment = false := by
  have hnone : ~~~BundleFlags.fragment.bits &&& BundleFlags.fragment.bits = 0 := by decide
  rw [contains, remove, UInt64.and_assoc, hnone, UInt64.and_zero]
  decide

/-- The fields and the flag can be compared. -/
instance (p : PrimaryBlock) : Decidable (Bundle.Consistent p) :=
  decidable_of_iff (p.fragmentOffset.isSome = p.bundleProcessingFlags.contains .fragment ∧
    p.totalDataLength.isSome = p.bundleProcessingFlags.contains .fragment)
      ⟨fun h => ⟨h.1, h.2⟩, fun h => ⟨h.offset, h.total⟩⟩

namespace Bundle

variable {c : CanonicalBlock} {maxSize : Nat} {fs : List Bundle} {minSizes : UInt64 × UInt64} {data : List UInt8}

structure Orderly (b : Bundle) : Prop where
  shaped : b.Shaped
  noCRC : b.NoCRC
  payload : ∃ c, b.blocks.filter (·.block.isPayload) = [c]
  fields : Consistent b.primaryBlock
  bound : b.range.1 + b.range.2 < 2 ^ 64

variable {S : Serde} {ε : Type} {b b' : Bundle} {bytes : List UInt8}

/-- Of a bundle that was decoded it can be checked. -/
lemma orderly_iff (hs : b.Shaped) : b.Orderly ↔ b.NoCRC ∧ (b.blocks.filter (·.block.isPayload)).length = 1 ∧
    Consistent b.primaryBlock ∧ b.range.1 + b.range.2 < 2 ^ 64 := by
  rw [length_eq_one_iff]
  exact ⟨fun h => ⟨h.noCRC, h.payload, h.fields, h.bound⟩, fun ⟨hcrc, hpayload, hfields, hbound⟩ =>
    ⟨hs, hcrc, hpayload, hfields, hbound⟩⟩

namespace Orderly

lemma ranged (h : b.Orderly) : b.Ranged := by
  obtain ⟨_, hc⟩ := h.payload
  exact ⟨by rw [find_of_filter hc]; rfl, h.bound⟩

lemma payloadData (h : b.Orderly) : (b.payloadData : Outcome ε (List UInt8)) = .ok b.payloadBytes :=
  h.ranged.payloadData

lemma tryFrom_eq (h : b.Orderly) (hv : b.toVec = .ok bytes) (hfit : FitsInMemory bytes) :
    Bundle.tryFrom S bytes = .ok b := (h.shaped.regular h.noCRC).tryFrom_eq hv hfit

lemma length_payloadBytes_le (h : b.Orderly) (hv : b.toVec = .ok bytes) : b.payloadBytes.length ≤ bytes.length := by
  obtain ⟨_, hc⟩ := h.payload
  obtain ⟨_, -, rfl⟩ := toVec_eq_ok hv
  have hfind := find_of_filter hc
  have hle := length_serialize_le (mem_of_find?_eq_some hfind)
  rw [payloadBytes, hfind, Option.map_some, Option.getD_some]
  simp only [CanonicalBlock.serialize, encBytes, length_append] at hle
  simp only [length_append]
  omega

end Orderly

lemma payloadBytes_eq (h : (b.payloadData : Outcome ε (List UInt8)) = .ok payload) :
    b.payloadBytes = payload := by grind [payloadData_eq_ok, payloadBytes]

/-! ## Forwarding -/

lemma Adjusts.filter_isPayload (h : b.Adjusts b') :
    b'.blocks.filter (·.block.isPayload) = b.blocks.filter (·.block.isPayload) := by
  cases h with
  | change hc hblock => simp [hc, hblock]
  | push hblock => simp [Bundle.push, hblock]

lemma Adjusts.orderly (h : b.Adjusts b') (hb : b.Orderly) : b'.Orderly where
  shaped := h.shaped hb.shaped
  noCRC := h.noCRC hb.noCRC
  payload := by
    rw [h.filter_isPayload]
    exact hb.payload
  fields := by
    rw [h.primaryBlock]
    exact hb.fields
  bound := by
    have hbytes : b'.payloadBytes = b.payloadBytes :=
      payloadBytes_eq (ε := Empty) (h.payloadData.trans hb.payloadData)
    have hbound := hb.bound
    rw [range, offset] at hbound ⊢
    rw [h.primaryBlock, hbytes]
    exact hbound

/-! ## Cutting -/

lemma piece_orderly (hb : b.Orderly) (hc : b.blocks.find? (·.block.isPayload) = some c)
    (hle : o + l ≤ c.block.content.length) :
    ((b.cutting c sizes maxSize).piece o l).Orderly where
  shaped := piece_shaped hb.shaped (mem_of_find?_eq_some hc) o l
  noCRC := by
    refine ⟨hb.noCRC.1, fun x hx => ?_⟩
    rcases mem_append.mp hx with hx | hx
    · exact hb.noCRC.2 x ((front_sublist b o).subset hx)
    · rw [mem_singleton.mp hx]
      exact hb.noCRC.2 c (mem_of_find?_eq_some hc)
  payload := ⟨_, filter_isPayload_eq rfl rfl (front_not_payload b o)⟩
  fields := by
    have hflag := BundleFlags.contains_union_self b.primaryBlock.bundleProcessingFlags .fragment
    exact ⟨hflag.symm, hflag.symm⟩
  bound := by
    have hbound := hb.bound
    have hwhole : b.payloadBytes = c.block.content := by rw [payloadBytes, hc]; rfl
    have hpart : ((b.cutting c sizes maxSize).piece o l).payloadBytes = (c.block.content.drop o).take l :=
      payloadBytes_eq (piece_payloadData (ε := Empty) o l)
    rw [range, hwhole] at hbound
    rw [range, hpart, length_take, length_drop]
    rw [piece_offset (by omega)]
    omega

lemma fragment_orderly (hb : b.Orderly) (h : b.fragment maxSize = .ok (fs, minSizes)) (hf : f ∈ fs) : f.Orderly := by
  obtain ⟨_, _, hc, ht⟩ := fragment_tiled h
  obtain ⟨_, _, hcut, -, -⟩ := ht.of_mem hf
  rw [hcut.eq]
  exact piece_orderly hb hc hcut.le

lemma fits_iff : b.Fits c primary maxSize ↔
    let sizes := fragmentMinSizes primary.length b.blocks
    maxSize < sizes.1 ∨ sizes.1 < maxSize ∧ ∀ i < c.block.content.length,
      let o := (maxSize - sizes.1) + i * (maxSize - sizes.2)
      o < c.block.content.length →
        size (b.fragmentPrimaryBlock c o) (b.fragmentBlocks ++
          [fragmentPayloadBlock c o (min (c.block.content.length - o) (maxSize - sizes.2))]) ≤ maxSize := by
  refine or_congr_right (and_congr_right fun hfirst => ⟨fun h i _ => h i, fun h i ho => h i ?_ ho⟩)
  have hle := fragmentMinSizes_le primary.length b
  have hmul : i * 1 ≤ i * (maxSize - (fragmentMinSizes primary.length b.blocks).2) := Nat.mul_le_mul_left i (by omega)
  omega

instance (b : Bundle) (c : CanonicalBlock) (primary : List UInt8)
    (maxSize : Nat) : Decidable (b.Fits c primary maxSize) :=
  decidable_of_iff' _ fits_iff

/-- The bundle is larger than `maxSize`, and its fragments have room. -/
def Divisible (b : Bundle) (maxSize : Nat) : Prop :=
  match b.blocks.filter (·.block.isPayload), b.primaryBlock.serialize, b.toVec with
  | [c], .ok primary, .ok bytes => maxSize < bytes.length ∧ b.Fits c primary maxSize
  | _, _, _ => False

instance (b : Bundle) (maxSize : Nat) : Decidable (b.Divisible maxSize) := by
  unfold Divisible
  split <;> infer_instance

/-- Then it is cut, or the size is refused. -/
lemma Orderly.fragment_cases (hb : b.Orderly) (h : b.Divisible maxSize)
    (hmay : b.primaryBlock.bundleProcessingFlags.contains .mustNotFragment = false) :
    (∃ n, b.fragment maxSize = .err (.canNotFragmentThatSmall n)) ∨
      ∃ f fs minSizes bytes, b.fragment maxSize = .ok (f :: fs, minSizes) ∧ b.toVec = .ok bytes ∧
        ∀ f' ∈ f :: fs, ∃ bytes', f'.toVec = .ok bytes' ∧ bytes'.length ≤ bytes.length := by
  unfold Divisible at h
  split at h <;> [skip; exact h.elim]
  rename_i c primary bytes hc hp hv
  obtain ⟨hlen, hfits⟩ := h
  refine ((fragment_returns_iff hc hb.fields hmay hv hp hlen).mpr hfits).imp_right ?_
  rintro ⟨fs, _, h, _⟩
  cases fs with
  | cons => grind
  | nil =>
    -- there is a payload, since without it the bundle were small enough
    exfalso
    obtain ⟨_, hparts, _⟩ := fragment_payloads h (hb.payloadData (ε := Empty))
    cases hparts
    have hpos := payload_pos hc hv hp hlen
    obtain ⟨-, _, -, -, -, hp', _, -, -⟩ := fragment_eq_ok h
    cases hp.symm.trans hp'
    have hempty : c.block.content = [] := by simp_all [find_of_filter, payloadBytes]
    rw [hempty, length_nil] at hpos
    omega

/-! ## Putting together -/

lemma isPayload_withPayload (data : List UInt8) (c : CanonicalBlock) :
    (if c.block.isPayload then { c with block := .payload ⟨data⟩ } else c).block.isPayload = c.block.isPayload := by
  split
  · exact (‹c.block.isPayload = true›).symm
  · rfl

lemma filter_withPayload (data : List UInt8) (blocks : List CanonicalBlock) :
    (withPayload data blocks).filter (·.block.isPayload) =
      (blocks.filter (·.block.isPayload)).map fun c => { c with block := .payload ⟨data⟩ } := by
  have hkind : ((fun c : CanonicalBlock => c.block.isPayload) ∘ fun c : CanonicalBlock =>
      if c.block.isPayload then { c with block := .payload ⟨data⟩ } else c) = fun c => c.block.isPayload :=
    funext (isPayload_withPayload data)
  rw [withPayload, filter_map, hkind]
  exact map_congr_left fun c hc => if_pos (mem_filter.mp hc).2

lemma rebuild_orderly (hb : b.Orderly) (hlen : data.length < 2 ^ 64) : (rebuild b data).Orderly where
  shaped := rebuild_shaped hb.shaped data
  noCRC := by
    refine ⟨hb.noCRC.1, fun x hx => ?_⟩
    obtain ⟨y, hy, rfl⟩ := mem_map.mp hx
    split <;> exact hb.noCRC.2 y hy
  payload := by
    obtain ⟨_, hc⟩ := hb.payload
    exact ⟨_, by rw [rebuild, filter_withPayload, hc]; rfl⟩
  fields := by
    have hflag := BundleFlags.contains_remove_fragment b.primaryBlock.bundleProcessingFlags
    exact ⟨hflag.symm, hflag.symm⟩
  bound := by
    rw [range, payloadBytes_eq (payloadData_rebuild (ε := Empty) hb.ranged data)]
    exact (Nat.zero_add _).trans_lt hlen

lemma length_data_le (b : Bundle) (hb : b.Orderly) (hv : (rebuild b data).toVec = .ok bytes) :
    data.length ≤ bytes.length := by
  obtain ⟨c, _⟩ := hb.payload
  have hmem : { c with block := .payload ⟨data⟩ } ∈ (rebuild b data).blocks := by
    grind [mem_of_mem_filter, filter_withPayload, rebuild]
  have hle := length_serialize_le hmem
  obtain ⟨_, -, rfl⟩ := toVec_eq_ok hv
  simp only [CanonicalBlock.serialize, encBytes, length_append, Block.content] at hle
  simp only [length_append]
  omega

lemma firstFragmentBlocks_rebuild (b : Bundle) (data : List UInt8) :
    (rebuild b data).firstFragmentBlocks = b.firstFragmentBlocks := by
  have hkind : ((fun c : CanonicalBlock => !c.block.isPayload) ∘ fun c : CanonicalBlock =>
      if c.block.isPayload then { c with block := .payload ⟨data⟩ } else c) = fun c => !c.block.isPayload :=
    funext fun c => congrArg (!·) (isPayload_withPayload data c)
  rw [firstFragmentBlocks, rebuild, withPayload, filter_map, hkind]
  refine (map_congr_left fun c hc => if_neg ?_).trans (map_id _)
  simpa using (mem_filter.mp hc).2

/-- The encoding does not grow by much more than the payload that is put in. -/
lemma length_rebuild_le (hb : b.Orderly) (hv : b.toVec = .ok bytes)
    (hv' : (rebuild b data).toVec = .ok bytes') : bytes'.length ≤ bytes.length + data.length + 128 := by
  obtain ⟨c, hc⟩ := hb.payload
  have hc' : (rebuild b data).blocks.filter (·.block.isPayload) = [{ c with block := .payload ⟨data⟩ }] := by
    rw [rebuild, filter_withPayload, hc]
    rfl
  have hp := serialize_primaryBlock hb.noCRC.1 hb.shaped.fragment
  have hp' := serialize_primaryBlock (p := clearFragment b.primaryBlock) hb.noCRC.1 rfl
  have hlen := length_toVec_payload hc hv hp
  have hlen' := length_toVec_payload hc' hv' hp'
  have hpayload := length_serialize_le_content { c with block := .payload ⟨data⟩ }
  have hhead := length_head_le 4 (clearFragment b.primaryBlock).elements
  have hflags : (clearFragment b.primaryBlock).bundleProcessingFlags.serialize.length ≤ 9 := length_head_le 0 _
  rw [firstFragmentBlocks_rebuild] at hlen'
  simp only [clearFragment, fragmentBytes, length_append, length_nil] at hlen hlen' hhead hflags
  simp only [payloadBlockSerializationOverhead, Block.content] at hpayload
  omega

/-! ## The fragments of one bundle -/

/-- What a call of `fragment` keeps holds of the leaves. -/
lemma Leaves.forall {P : Bundle → Prop} (hstep : ∀ b maxSize fs sizes, P b →
    b.fragment maxSize = .ok (fs, sizes) → ∀ f ∈ fs, P f) {bs ls : List Bundle} (h : Leaves bs ls)
    (hbs : ∀ b ∈ bs, P b) : ∀ l ∈ ls, P l := by
  induction h with
  | nil => exact hbs
  | keep | split => grind

/-- There is memory for its encoding. -/
def HasRoom (b : Bundle) : Prop := ∀ bytes, b.toVec = .ok bytes → FitsInMemory bytes

lemma fragment_hasRoom (hb : b.HasRoom) (h : b.fragment maxSize = .ok (fs, minSizes)) (hf : f ∈ fs) : f.HasRoom := by
  intro bytes hv
  obtain ⟨encoded, -, -, hv', hlt, -⟩ := fragment_eq_ok h
  have hle := fragment_small h hf hv
  exact Nat.le_trans (Nat.le_trans hle (Nat.le_of_lt hlt)) (hb encoded hv')

/-- An orderly whole bundle was cut into fragments, some of these were cut again and so on, and `ls` is what there is
now. -/
structure Scattered (b : Bundle) (ls : List Bundle) : Prop where
  orderly : b.Orderly
  whole : b.primaryBlock.fragmentOffset = none
  room : b.HasRoom
  cut : ∃ maxSize fs sizes, b.fragment maxSize = .ok (fs, sizes) ∧ Leaves fs ls

/-- The primary block of its fragments, up to the fragment fields. -/
def asFragment (b : Bundle) : PrimaryBlock :=
  { b.primaryBlock with
    bundleProcessingFlags := b.primaryBlock.bundleProcessingFlags.union .fragment
    fragmentOffset := some 0
    totalDataLength := some 0 }

lemma consistent_asFragment (b : Bundle) : Consistent b.asFragment := by
  have hflag := BundleFlags.contains_union_self b.primaryBlock.bundleProcessingFlags .fragment
  exact ⟨hflag.symm, hflag.symm⟩

namespace Scattered

variable {ls : List Bundle}
variable {received : List Bundle}

lemma decoded (h : Scattered b ls) {l : Bundle} (hl : l ∈ ls) :
    l.Orderly ∧ ∃ bytes, l.toVec = .ok bytes ∧ FitsInMemory bytes := by
  obtain ⟨_, _, _, hfrag, hleaves⟩ := h.cut
  have ho : ∀ l ∈ ls, l.Orderly := hleaves.forall (fun _ _ _ _ ho hfrag f hf => fragment_orderly ho hfrag hf)
    fun f hf => fragment_orderly h.orderly hfrag hf
  have hroom : ∀ l ∈ ls, l.HasRoom := hleaves.forall (fun _ _ _ _ hroom hfrag f hf => fragment_hasRoom hroom hfrag hf)
    fun f hf => fragment_hasRoom h.room hfrag hf
  obtain ⟨bytes, hv⟩ := (ho l hl).shaped.toVec
  exact ⟨ho l hl, bytes, hv, hroom l hl bytes hv⟩

lemma tiled (h : Scattered b ls) : ∃ c, b.blocks.filter (·.block.isPayload) = [c] ∧
    0 < c.block.content.length ∧ c.block.content.length ≤ isizeMax ∧ b.primaryBlock.totalDataLength = none ∧
      b.primaryBlock.bundleProcessingFlags.contains .fragment = false ∧
      Tiled (Piece (b.origin b.firstFragmentBlocks c)) 0 c.block.content.length ls := by
  obtain ⟨c, hc⟩ := h.orderly.payload
  obtain ⟨_, _, _, hfrag, hleaves⟩ := h.cut
  obtain ⟨encoded, -, -, hv, -, -⟩ := fragment_eq_ok hfrag
  have hflag : b.primaryBlock.bundleProcessingFlags.contains .fragment = false := by
    rw [← h.orderly.fields.offset, h.whole]
    rfl
  have htotal : b.primaryBlock.totalDataLength = none := by
    have hsome := h.orderly.fields.total
    rw [hflag] at hsome
    exact Option.isSome_eq_false_iff.mp hsome |> Option.isNone_iff_eq_none.mp
  have hfind := find_of_filter hc
  have hcanonical : (b.payloadCanonicalBlock : Outcome FragmentationError CanonicalBlock) = .ok c := by
    rw [payloadCanonicalBlock, hfind]
  have hlen : c.block.content.length ≤ isizeMax := by
    have hle := h.orderly.length_payloadBytes_le hv
    rw [payloadBytes, hfind] at hle
    exact Nat.le_trans hle (h.room encoded hv)
  exact ⟨c, hc, content_pos hc hfrag, hlen, htotal, hflag,
    hleaves.tiled (Nat.lt_of_le_of_lt hlen (by decide)) rfl (BundleFlags.union_union_self ..)
      (tiled_of_whole h.whole htotal hcanonical hfrag)⟩

lemma ne_nil (h : Scattered b ls) : ls ≠ [] := by
  rintro rfl
  obtain ⟨_, -, hpos, -, -, -, htiled⟩ := h.tiled
  exact absurd htiled hpos.ne

lemma equals_asFragment (h : Scattered b ls) (hl : l ∈ ls) :
    l.primaryBlock.equalsIgnoringFragmentInfo b.asFragment = true := by
  obtain ⟨_, -, -, -, -, -, htiled⟩ := h.tiled
  obtain ⟨_, _, hp, -⟩ := htiled.of_mem hl
  rw [hp.primaryBlock]
  exact beq_self_eq_true _

/-- All of them, in any order and with any repetitions, give the bundle back, up to the position of the payload
block. -/
lemma reassemble (h : Scattered b ls) (hr : ∀ x, x ∈ received ↔ x ∈ ls) :
    ∃ bytes, reassembleBundles received = .ok bytes ∧ b.payloadLast.toVec = .ok bytes := by
  obtain ⟨c, hc, hpos, hlen, htotal, hflag, htiled⟩ := h.tiled
  obtain ⟨_, _, bytes, hmain, hbytes, hvec⟩ :=
    reassembleBundles_tiled hlen (BundleFlags.contains_union_self ..) rfl hpos htiled hr
  rw [show (b.origin b.firstFragmentBlocks c).payload = c.block.content from rfl,
    rebuild_eq hflag h.whole htotal hc hmain] at hvec
  exact ⟨bytes, hbytes, hvec⟩

lemma incomplete (h : Scattered b ls) (hr : ∀ x ∈ received, x ∈ ls) (hne : received ≠ []) (hx : x ∈ ls)
    (hmissing : x ∉ received) : reassembleBundles received = .err (sortByOffset received) := by
  obtain ⟨_, -, -, hlen, -, -, htiled⟩ := h.tiled
  exact reassembleBundles_gap (Nat.lt_of_le_of_lt hlen (by decide)) (BundleFlags.contains_union_self ..) rfl htiled
    hr hne hx hmissing

end Scattered

end Bundle

end Dtn.Bp7
