import Dtn.Impl.Bp7.Bundle

/-!
# Decoding a bundle undoes encoding it

Each decoder of `Impl/Bp7` reads the bytes its encoder wrote. The lemmas about
the composite decoders (`reads_primaryBlock`, `reads_canonicalBlock`,
`tryFrom_indefinite`) do not fix how the parts were written: whatever bytes
the decoder of a part reads will do, so they also serve for input that another
implementation wrote.
-/

namespace Dtn.Bp7

open List Outcome Dtn.Parser Dtn.Cbor Seq Bundle

variable {d : Nat} {w flags bytes : List UInt8} {p : PrimaryBlock} {c : CanonicalBlock}

/-! ## Endpoints -/

lemma reads_endpointType (t : EndpointType) : (EndpointType.deserialize d).Reads (encU64 t.toU64) t := fun r => by
  simp only [EndpointType.deserialize, bind_apply, reads_u64 _ r, ok_bind]
  cases t <;> rfl

lemma reads_dtn_null : (DTNEndpoint.deserialize d).Reads (encU64 0) ⟨"none"⟩ := fun r => by
  have h : item d (encU64 0 ++ r) = .ok ((.uint 0, d), r) := item_head (show 0 < 6 by decide) (by decide) d r
  simp only [DTNEndpoint.deserialize, bind_apply, h, ok_bind, ↓reduceIte, pure_apply]

lemma reads_dtn_text (h : (utf8 s).length < 2 ^ 64) :
    (DTNEndpoint.deserialize d).Reads (encText s) ⟨s⟩ := fun r => by
  simp only [DTNEndpoint.deserialize, encText, bind_apply, append_assoc,
    item_head (show 3 < 6 by decide) h, ok_bind, Head.ofMajor, reads_textOf s r, pure_apply]

lemma reads_dtn (h : e.serialize.length < 2 ^ 64) : (DTNEndpoint.deserialize d).Reads e.serialize e := by
  unfold DTNEndpoint.serialize at h ⊢
  split at h
  · rename_i hn
    rw [if_pos hn]
    obtain rfl : e = ⟨"none"⟩ := by
      cases e; simpa [DTNEndpoint.isNullEndpoint] using hn
    exact reads_dtn_null
  · rename_i hn
    rw [if_neg hn]
    refine reads_dtn_text ?_
    simp only [encText, length_append] at h
    omega

/-- An endpoint is an array of its scheme's number and what the decoder of that scheme reads. -/
lemma reads_endpoint_dtn (S : Serde) (h : (DTNEndpoint.deserialize (d + 1)).Reads w e) :
    (Endpoint.deserialize S (d + 2)).Reads (head 4 2 ++ (encU64 EndpointType.dtn.toU64 ++ w)) (.dtn e) := by
  refine reads_seq (by decide) ?_
  exact (reads_field (reads_endpointType .dtn) _ 1).bind ((reads_field h _ 0).bind_nil (.pure _))

lemma reads_endpoint_ipn (S : Serde) (h : (S.ipnEndpoint (d + 1)).Reads w e) :
    (Endpoint.deserialize S (d + 2)).Reads (head 4 2 ++ (encU64 EndpointType.ipn.toU64 ++ w)) (.ipn e) := by
  refine reads_seq (by decide) ?_
  exact (reads_field (reads_endpointType .ipn) _ 1).bind ((reads_field h _ 0).bind_nil (.pure _))

lemma reads_endpoint (S : Serde) (h : e.serialize.length < 2 ^ 64) :
    (Endpoint.deserialize S (d + 2)).Reads e.serialize e := by
  cases e with
  | dtn => grind [reads_endpoint_dtn, reads_dtn, Endpoint.serialize]
  | ipn e =>
    simpa only [Endpoint.serialize, append_assoc] using reads_endpoint_ipn S (S.ipn_reads_map d e)

/-! ## The laws of `Serde` can be met

A decoder of `ipn` endpoints that accepts an array of the two numbers, or a
map of both names in their order, and nothing else. -/

def plainIpnSeq (s : Seq) : Parser Error IPNEndpoint := do
  let (node, s) ← s.field u64 "node"
  let (service, s) ← s.field u64 "service"
  s.finish
  return ⟨node, service⟩

def plainIpnKey (name : String) : Decoder Unit := fun d => do
  match (← item d).1 with
  | .text n => do if (← textOf n) = name then pure () else .fail .reader
  | _ => .fail .reader

def plainIpn : Decoder IPNEndpoint := fun d => do
  match ← item d with
  | (.array len, d + 1) => plainIpnSeq (.ofLen d len)
  | (.map (some 2), d + 1) => do
    plainIpnKey "node" d
    let node ← u64 d
    plainIpnKey "service" d
    let service ← u64 d
    return ⟨node, service⟩
  | _ => .fail .reader

lemma safe_plainIpnKey (name : String) : (plainIpnKey name d).Safe :=
  (safe_item d).bind fun h => by
    cases h.1 with
    | text n => exact (safe_textOf n).bind fun s => by split <;> [exact .pure _; exact .fail _]
    | _ => exact .fail _

lemma safe_plainIpn : (plainIpn d).Safe :=
  (safe_item d).bind fun h => by
    split
    · exact (safe_field safe_u64 _ _).bind fun _ => (safe_field safe_u64 _ _).bind fun _ =>
        (safe_finish _).bind fun _ => .pure _
    · exact (safe_plainIpnKey _).bind fun _ => safe_u64.bind fun _ => (safe_plainIpnKey _).bind fun _ =>
        safe_u64.bind fun _ => .pure _
    · exact .fail _

lemma reads_plainIpnKey (h : (utf8 name).length < 2 ^ 64) :
    (plainIpnKey name d).Reads (encText name) () := fun r => by
  simp only [plainIpnKey, encText, bind_apply, append_assoc, item_head (show 3 < 6 by decide) h,
    ok_bind, Head.ofMajor, reads_textOf name r, ↓reduceIte, pure_apply]

def Serde.plain : Serde where
  ipnEndpoint := plainIpn
  ipn_safe := safe_plainIpn
  ipn_reads_map d e := by
    have hhead : (item (d + 1)).Reads (head 5 2) (.map (some 2), d + 1) := item_head (by decide) (by decide) _
    rw [IPNEndpoint.serialize, append_assoc, append_assoc, append_assoc]
    exact hhead.bind ((reads_plainIpnKey (by decide)).bind ((reads_u64 e.node).bind
      ((reads_plainIpnKey (by decide)).bind ((reads_u64 e.service).bind_nil (.pure _)))))
  ipn_reads_array d e := by
    have hhead : (item (d + 1)).Reads (head 4 2) (.array (some 2), d + 1) := item_head (by decide) (by decide) _
    have hfinish : (definite d 0).finish.Reads [] () := .pure _
    exact hhead.bind ((reads_field (reads_u64 e.node) _ 1).bind
      ((reads_field (reads_u64 e.service) _ 0).bind_nil (hfinish.bind_nil (.pure _))))
  canonicalBlockSize := 96
  maxAllocation := 2 ^ 47

/-! ## Flags, checksum types and times -/

/-- Only bits that have a meaning are set. -/
def BundleFlags.Defined (f : BundleFlags) : Prop := f.bits &&& BundleFlags.all = f.bits

def BlockFlags.Defined (f : BlockFlags) : Prop := f.bits &&& BlockFlags.all = f.bits

instance (f : BundleFlags) : Decidable f.Defined := inferInstanceAs (Decidable (_ = _))
instance (f : BlockFlags) : Decidable f.Defined := inferInstanceAs (Decidable (_ = _))

lemma reads_bundleFlags (n : UInt64) :
    (BundleFlags.deserialize d).Reads (encU64 n) (BundleFlags.fromBitsTruncate n) := fun r => by
  simp only [BundleFlags.deserialize, bind_apply, reads_u64 n r, ok_bind, pure_apply]

lemma reads_blockFlags (n : UInt64) :
    (BlockFlags.deserialize d).Reads (encU64 n) (BlockFlags.fromBitsTruncate n) := fun r => by
  simp only [BlockFlags.deserialize, bind_apply, reads_u64 n r, ok_bind, pure_apply]

lemma BundleFlags.reads_serialize (h : f.Defined) : (BundleFlags.deserialize d).Reads f.serialize f := by
  have hr := reads_bundleFlags (d := d) f.bits
  rwa [show BundleFlags.fromBitsTruncate f.bits = f from congrArg BundleFlags.mk h] at hr

lemma BlockFlags.reads_serialize (h : f.Defined) : (BlockFlags.deserialize d).Reads f.serialize f := by
  have hr := reads_blockFlags (d := d) f.bits
  rwa [show BlockFlags.fromBitsTruncate f.bits = f from congrArg BlockFlags.mk h] at hr

lemma reads_noCRC : (CRCType.deserialize d).Reads (encU64 0) .noCRC := fun r => by
  simp only [CRCType.deserialize, bind_apply, reads_u64 0 r, ok_bind, ↓reduceIte, pure_apply]

lemma reads_creationTimestamp (t : CreationTimestamp) :
    (CreationTimestamp.deserialize (d + 1)).Reads t.serialize t := by
  refine reads_seq (by decide) ?_
  have ht : (DtnTime.deserialize d).Reads t.creationTime.serialize t.creationTime := fun r => by
    simp only [DtnTime.deserialize, DtnTime.serialize, bind_apply, reads_u64 _ r,
      ok_bind, pure_apply]
  exact (reads_field ht _ 1).bind ((reads_field (reads_u64 t.sequenceNumber) _ 0).bind_nil (.pure _))

/-! ## The primary block -/

/-- The offset and the total length of a fragment, if there are any. -/
def fragmentBytes (offset total : Option UInt64) : List UInt8 :=
  match offset, total with
  | some o, some t => encU64 o ++ encU64 t
  | _, _ => []

/-- The decoder reads a block without checksum from bytes for its parts. -/
lemma reads_primaryBlock (S : Serde) (hflags : (BundleFlags.deserialize (d + 2)).Reads flags p.bundleProcessingFlags)
    (hdest : (Endpoint.deserialize S (d + 2)).Reads dest p.destinationEndpoint)
    (hsource : (Endpoint.deserialize S (d + 2)).Reads source p.sourceNode)
    (hreport : (Endpoint.deserialize S (d + 2)).Reads report p.reportTo) (hcrc : p.crc = .noCRC)
    (hfrag : p.fragmentOffset.isSome = p.totalDataLength.isSome) :
    (PrimaryBlock.deserialize S (d + 3)).Reads
      (head 4 p.elements ++ (encU64 p.version ++ (flags ++ (encU64 0 ++ (dest ++ (source ++ (report ++
        (p.creationTimestamp.serialize ++ (encU64 p.lifetime ++
          fragmentBytes p.fragmentOffset p.totalDataLength))))))))) p := by
  obtain ⟨version, bflags, crc, de, se, re, ts, life, offset, total⟩ := p
  obtain rfl : crc = .noCRC := hcrc
  -- the eight common elements, then `rest` for the two of a fragment
  have common : ∀ {size k : Nat} {rest : List UInt8}, size = k + 8 → size ≤ 11 → ¬(size = 9 ∨ size = 11) →
      (PrimaryBlock.fragmentFields size (.definite (d + 2) k)).Reads rest ((offset, total), .definite (d + 2) 0) →
      (PrimaryBlock.visitSeq S (.definite (d + 2) size)).Reads (encU64 version ++ (flags ++ (encU64 0 ++ (dest ++
        (source ++ (report ++ (ts.serialize ++ (encU64 life ++ rest)))))))) (⟨version, bflags, .noCRC, de, se, re,
          ts, life, offset, total⟩, .definite (d + 2) 0) := by
    intro size k rest hs hle hodd hrest
    subst hs
    have hcrc : (PrimaryBlock.crcValue (k + 8) .noCRC (.definite (d + 2) 0)).Reads []
        (CRCType.noCRC, definite (d + 2) 0) := by
      unfold PrimaryBlock.crcValue; rw [if_neg hodd]; exact .pure _
    unfold PrimaryBlock.visitSeq
    simp only [sizeHint]
    rw [if_pos ⟨by omega, hle⟩]
    refine (reads_field (reads_u64 version) _ (k + 7)).bind ?_
    refine (reads_field hflags _ (k + 6)).bind ?_
    refine (reads_field reads_noCRC _ (k + 5)).bind ?_
    refine (reads_field hdest _ (k + 4)).bind ?_
    refine (reads_field hsource _ (k + 3)).bind ?_
    refine (reads_field hreport _ (k + 2)).bind ?_
    refine (reads_field (reads_creationTimestamp ts) _ (k + 1)).bind ?_
    refine (reads_field (reads_u64 life) _ k).bind ?_
    exact hrest.bind_nil (hcrc.bind_nil (.pure _))
  cases offset with
  | none =>
    obtain rfl : total = none := by cases total <;> simp_all
    exact reads_seq (n := 8) (by decide) (common (k := 0) rfl (by decide) (by decide) (.pure _))
  | some o =>
    obtain ⟨t, rfl⟩ : ∃ t, total = some t := by cases total <;> simp_all
    refine reads_seq (n := 10) (by decide) (common (k := 2) rfl (by decide) (by decide) ?_)
    exact (reads_field (reads_u64 o) _ 1).bind ((reads_field (reads_u64 t) _ 0).bind_nil (.pure _))

lemma serializeFragment_eq (hfrag : p.fragmentOffset.isSome = p.totalDataLength.isSome) :
    p.serializeFragment = .ok (fragmentBytes p.fragmentOffset p.totalDataLength) := by
  grind [PrimaryBlock.serializeFragment, fragmentBytes]

lemma serialize_primaryBlock (hcrc : p.crc = .noCRC) (hfrag : p.fragmentOffset.isSome = p.totalDataLength.isSome) :
    p.serialize = .ok (head 4 p.elements ++ (encU64 p.version ++ (p.bundleProcessingFlags.serialize ++ (encU64 0 ++
      (p.destinationEndpoint.serialize ++ (p.sourceNode.serialize ++ (p.reportTo.serialize ++
        (p.creationTimestamp.serialize ++ (encU64 p.lifetime ++
          fragmentBytes p.fragmentOffset p.totalDataLength))))))))) := by
  simp only [PrimaryBlock.serialize, serializeFragment_eq hfrag, ok_bind, Outcome.pure_def,
    PrimaryBlock.serializeFields, hcrc,
    CRCType.serialize, CRCType.serializeValue, append_nil, append_assoc]

lemma PrimaryBlock.reads_serialize (S : Serde) (hw : p.serialize = .ok w) (hl : w.length < 2 ^ 64)
    (hcrc : p.crc = .noCRC) (hfrag : p.fragmentOffset.isSome = p.totalDataLength.isSome)
    (hflags : p.bundleProcessingFlags.Defined) : (PrimaryBlock.deserialize S (d + 3)).Reads w p := by
  rw [serialize_primaryBlock hcrc hfrag, Outcome.ok.injEq] at hw
  subst hw
  simp only [length_append] at hl
  exact reads_primaryBlock S (BundleFlags.reads_serialize hflags) (reads_endpoint S (by omega))
    (reads_endpoint S (by omega)) (reads_endpoint S (by omega)) hcrc hfrag

/-! ## Canonical blocks -/

lemma reads_hopCount (b : HopCountBlock) : (HopCountBlock.deserialize (d + 1)).Reads b.content b :=
  reads_seq (n := 2) (by decide)
    ((reads_field (reads_u8 b.limit) _ 1).bind ((reads_field (reads_u8 b.count) _ 0).bind_nil (.pure _)))

lemma reads_bundleAge (b : BundleAgeBlock) : (BundleAgeBlock.deserialize d).Reads b.content b :=
  (reads_u64 b.age).bind_nil (.pure _)

lemma reads_previousNode (S : Serde)
    (h : (Endpoint.deserialize S (d + 2)).Reads w e) : (PreviousNodeBlock.deserialize S (d + 2)).Reads w ⟨e⟩ :=
  h.bind_nil (.pure _)

/-- An unknown block does not carry the number of a known one. -/
def Block.Proper : Block → Prop
  | .unkown b => BlockType.tryFrom b.blockType = none
  | _ => True

instance (b : Block) : Decidable b.Proper := by
  cases b <;> unfold Block.Proper <;> infer_instance

lemma Block.ofContent_content (S : Serde) (hb : b.Proper) (h : b.content.length < 2 ^ 64) :
    Block.ofContent S b.blockType b.content = .ok b := by
  cases b with
  | payload => rfl
  | previousNode =>
    have := fromSlice_of_reads (reads_previousNode S (reads_endpoint S h))
    simp only [Block.content, PreviousNodeBlock.content] at this ⊢
    simp only [Block.ofContent, Block.blockType, show BlockType.tryFrom BlockType.previousNode.toU64 =
      some .previousNode from rfl, this, mapErr_ok, ok_bind, Outcome.pure_def]
  | bundleAge b =>
    simp only [Block.ofContent, Block.blockType, Block.content, show BlockType.tryFrom BlockType.bundleAge.toU64 =
      some .bundleAge from rfl, fromSlice_of_reads (reads_bundleAge b), mapErr_ok,
      ok_bind, Outcome.pure_def]
  | hopCount b =>
    simp only [Block.ofContent, Block.blockType, Block.content, show BlockType.tryFrom BlockType.hopCount.toU64 =
      some .hopCount from rfl, fromSlice_of_reads (reads_hopCount b), mapErr_ok, ok_bind,
      Outcome.pure_def]
  | unkown =>
    simp only [Block.Proper] at hb
    simp only [Block.ofContent, Block.blockType, hb, Block.content]

/-- The decoder reads a block without checksum from bytes for its flags and its content. -/
lemma reads_canonicalBlock (S : Serde) (hflags : (BlockFlags.deserialize d).Reads flags c.blockFlags)
    (hcontent : Block.ofContent S blockType content = .ok c.block) (hlen : content.length < 2 ^ 64)
    (hcrc : c.crc = .noCRC) :
    (CanonicalBlock.deserialize S (d + 1)).Reads
      (head 4 5 ++ (encU64 blockType ++ (encU64 c.blockNumber ++ (flags ++ (encU64 0 ++ encBytes content))))) c := by
  obtain ⟨block, blockNumber, _, crc⟩ := c
  obtain rfl : crc = .noCRC := hcrc
  refine reads_seq (n := 5) (by decide) ?_
  refine (reads_field (reads_u64 blockType) _ 4).bind ?_
  refine (reads_field (reads_u64 blockNumber) _ 3).bind ?_
  refine (reads_field hflags _ 2).bind ?_
  refine (reads_field reads_noCRC _ 1).bind ?_
  refine (reads_field (reads_bytes hlen) _ 0).bind_nil ?_
  have hlift : (Parser.lift (Block.ofContent S blockType content)).Reads [] block := fun r => by
    simp only [nil_append, lift_apply, hcontent, ok_bind]
  exact hlift.bind_nil ((Parser.Reads.pure _).bind_nil (.pure _))

lemma CanonicalBlock.serialize_noCRC (hcrc : c.crc = .noCRC) :
    c.serialize = head 4 5 ++ (encU64 c.block.blockType ++ (encU64 c.blockNumber ++ (c.blockFlags.serialize ++
      (encU64 0 ++ encBytes c.block.content)))) := by
  simp only [CanonicalBlock.serialize, hcrc, ↓reduceIte, CRCType.serialize, CRCType.serializeValue, append_nil]

lemma CanonicalBlock.reads_serialize (S : Serde) (hl : c.serialize.length < 2 ^ 64) (hcrc : c.crc = .noCRC)
    (hflags : c.blockFlags.Defined) (hproper : c.block.Proper) :
    (CanonicalBlock.deserialize S (d + 1)).Reads c.serialize c := by
  rw [CanonicalBlock.serialize_noCRC hcrc] at hl ⊢
  simp only [encBytes, length_append] at hl
  have hlen : c.block.content.length < 2 ^ 64 := by omega
  exact reads_canonicalBlock S (BlockFlags.reads_serialize hflags) (Block.ofContent_content S hproper hlen) hlen hcrc

/-! ## Bundles -/

/-- The decoder reads a bundle from bytes for its blocks, in an array of indefinite length. -/
lemma tryFrom_indefinite (S : Serde) {γ : Type} {enc : γ → List UInt8} {f : γ → CanonicalBlock}
    {cs : List γ} (hp : (PrimaryBlock.deserialize S 126).Reads primary p) (hps : ∃ b w, primary = b :: w ∧ b ≠ stop)
    (hc : ∀ c ∈ cs, (CanonicalBlock.deserialize S 126).Reads (enc c) (f c))
    (hcs : ∀ c ∈ cs, ∃ b w, enc c = b :: w ∧ b ≠ stop) (hne : cs ≠ []) :
    tryFrom S ((initial 4 31 :: primary) ++ (cs.flatMap enc ++ [stop])) = .ok ⟨p, cs.map f⟩ := by
  obtain ⟨b, w, hbw, hb⟩ := hps
  have hlen : cs.length ≤ (cs.flatMap enc).length := length_le_length_flatMap fun c hcm => by
    obtain ⟨_, _, e, -⟩ := hcs c hcm
    simp [e]
  have hfield : field (PrimaryBlock.deserialize S) "Error for field 'primary_block'" (.indefinite 126)
      (primary ++ (cs.flatMap enc ++ [stop])) = .ok ((p, .indefinite 126), cs.flatMap enc ++ [stop]) := by
    have hnext := next_indefinite (hp (cs.flatMap enc ++ [stop])) (by simp [hbw, hb]) (by simp [hbw])
    simp only [field, bind_apply, hnext, ok_bind, pure_apply]
  have hblocks : collectBlocks S (.indefinite 126) (cs.flatMap enc ++ [stop]) =
      .ok ((cs.map f, .indefinite 126), [stop]) :=
    collect_indefinite hc hcs (by simp only [length_append]; omega) []
  have hvisit : visitSeq S (.indefinite 126) ((primary ++ cs.flatMap enc) ++ [stop]) =
      .ok ((⟨p, cs.map f⟩, .indefinite 126), [stop]) := by
    simp_all [visitSeq, capacityOverflow, sizeHint]
  have hseq : deserialize S maxLevels _ = _ := seq_indefinite hvisit
  have e : (initial 4 31 :: primary) ++ (cs.flatMap enc ++ [stop]) =
      initial 4 31 :: ((primary ++ cs.flatMap enc) ++ [stop]) := by simp
  simp only [tryFrom, fromSlice, e, hseq, mapErr_ok]

/-- A bundle that survives its wire form. -/
structure Bundle.Regular (b : Bundle) : Prop where
  noCRC : b.primaryBlock.crc = .noCRC ∧ ∀ c ∈ b.blocks, c.crc = .noCRC
  nonempty : b.blocks ≠ []
  fragment : b.primaryBlock.fragmentOffset.isSome = b.primaryBlock.totalDataLength.isSome
  flags : b.primaryBlock.bundleProcessingFlags.Defined ∧ ∀ c ∈ b.blocks, c.blockFlags.Defined
  proper : ∀ c ∈ b.blocks, c.block.Proper

/-- A `Vec<u8>` that exists has a length Rust can allocate. -/
def FitsInMemory (bs : List UInt8) : Prop := bs.length ≤ isizeMax

instance (bs : List UInt8) : Decidable (FitsInMemory bs) := inferInstanceAs (Decidable (_ ≤ _))

lemma length_serialize_le (h : c ∈ cs) : c.serialize.length ≤ (serializeBlocks cs).length := by
  rw [serializeBlocks, flatMap_def]
  exact (sublist_flatten_of_mem (mem_map_of_mem h)).length_le

lemma Bundle.toVec_eq_ok {b : Bundle} (h : b.toVec = .ok bytes) :
    ∃ w, b.primaryBlock.serialize = .ok w ∧
      bytes = (initial 4 31 :: w) ++ (serializeBlocks b.blocks ++ [stop]) := by
  obtain ⟨w, hw, h⟩ := Outcome.bind_eq_ok.mp (mapErr_eq_ok.mp h)
  cases h
  exact ⟨w, hw, rfl⟩

lemma serialize_start (hw : p.serialize = .ok w) : ∃ b v, w = b :: v ∧ b ≠ stop := by
  obtain ⟨_, -, h⟩ := Outcome.bind_eq_ok.mp hw
  cases h
  exact head_array_ne_stop _ _

/-- The decoder gives a regular bundle back. -/
lemma Bundle.Regular.tryFrom_eq {b : Bundle} (h : b.Regular) (hv : b.toVec = .ok bytes)
    (hfit : FitsInMemory bytes) : tryFrom S bytes = .ok b := by
  obtain ⟨_, hw, rfl⟩ := toVec_eq_ok hv
  simp only [FitsInMemory, isizeMax, length_append, length_cons] at hfit
  have hprimary : (PrimaryBlock.deserialize S 126).Reads _ _ :=
    PrimaryBlock.reads_serialize S hw (by omega) h.noCRC.1 h.fragment h.flags.1
  have hblock : ∀ c ∈ b.blocks, (CanonicalBlock.deserialize S 126).Reads c.serialize c := fun c hc => by
    have hlen := length_serialize_le hc
    exact CanonicalBlock.reads_serialize S (by omega) (h.noCRC.2 c hc) (h.flags.2 c hc) (h.proper c hc)
  have htry := tryFrom_indefinite S (f := id) hprimary (serialize_start hw) hblock
    (fun c _ => head_array_ne_stop _ _) h.nonempty
  rwa [map_id] at htry

/-- The encoder succeeds, and unless its output is too long to exist the
decoder gives the bundle back. -/
theorem tryFrom_toVec (S : Serde) {b : Bundle} (h : b.Regular) :
    ∃ bytes, b.toVec = .ok bytes ∧ (FitsInMemory bytes → tryFrom S bytes = .ok b) := by
  obtain ⟨bytes, hv⟩ : ∃ bytes, b.toVec = .ok bytes := by
    rw [toVec, serialize, serialize_primaryBlock h.noCRC.1 h.fragment]
    exact ⟨_, rfl⟩
  exact ⟨bytes, hv, h.tryFrom_eq hv⟩

/-- A fragment with a previous-node, a hop-count, an unknown and a payload
block, from an `ipn` node to a `dtn` one. -/
def sampleBundle : Bundle where
  primaryBlock :=
    { version := 7
      bundleProcessingFlags := .fragment
      crc := .noCRC
      destinationEndpoint := .dtn ⟨"//a"⟩
      sourceNode := .ipn ⟨3, 300⟩
      reportTo := .dtn ⟨"none"⟩
      creationTimestamp := ⟨⟨1000⟩, 2⟩
      lifetime := 70000
      fragmentOffset := some 5
      totalDataLength := some 8 }
  blocks :=
    [⟨.previousNode ⟨.ipn ⟨3, 0⟩⟩, 2, .empty, .noCRC⟩, ⟨.hopCount ⟨30, 1⟩, 3, .mustReplicateToAllFragments, .noCRC⟩,
      ⟨.unkown ⟨200, [1, 2]⟩, 4, .empty, .noCRC⟩, ⟨.payload ⟨[9, 8, 7]⟩, 1, .empty, .noCRC⟩]

lemma sampleBundle_regular : sampleBundle.Regular where
  noCRC := by decide
  nonempty := by decide
  fragment := by decide
  flags := by decide
  proper := by decide

theorem tryFrom_toVec_sampleBundle :
    ∃ bytes, sampleBundle.toVec = .ok bytes ∧ tryFrom .plain bytes = .ok sampleBundle := by
  obtain ⟨bytes, hv, ht⟩ := tryFrom_toVec .plain sampleBundle_regular
  have hl : (sampleBundle.toVec.toOption.elim 0 List.length) ≤ isizeMax := by decide
  rw [hv] at hl
  exact ⟨bytes, hv, ht hl⟩

end Dtn.Bp7
