import Dtn.Proof.Bp7.RoundTrip

/-!
# What the decoder gives

A bundle that comes out of the decoder is `Shaped` (`tryFrom_shaped`): it is
regular but for its checksums. The encoder writes a checksum as an array of
numbers and the decoder wants a byte string, so if the encoding of a shaped
bundle can be decoded at all, the bundle has no checksum and comes back as it
was (`Bundle.Shaped.decoded`).
-/

namespace Dtn.Bp7

open List Outcome Dtn.Cbor Bundle

variable {d : Nat} {b : Bundle} {S : Serde} {p : PrimaryBlock} {fragment bytes : List UInt8} {c : CanonicalBlock}

/-- A bundle that survives its wire form if it has no checksum. -/
structure Bundle.Shaped (b : Bundle) : Prop where
  nonempty : b.blocks ≠ []
  fragment : b.primaryBlock.fragmentOffset.isSome = b.primaryBlock.totalDataLength.isSome
  flags : b.primaryBlock.bundleProcessingFlags.Defined ∧ ∀ c ∈ b.blocks, c.blockFlags.Defined
  proper : ∀ c ∈ b.blocks, c.block.Proper

/-- No block has a checksum. -/
def Bundle.NoCRC (b : Bundle) : Prop := b.primaryBlock.crc = .noCRC ∧ ∀ c ∈ b.blocks, c.crc = .noCRC

instance (b : Bundle) : Decidable b.NoCRC := inferInstanceAs (Decidable (_ ∧ _))

lemma Bundle.Shaped.regular (h : b.Shaped) (hc : b.NoCRC) : b.Regular :=
  { h with noCRC := hc }

/-! ## Decoded bundles -/

lemma yields_bundleFlags (d : Nat) : (BundleFlags.deserialize d).Yields BundleFlags.Defined :=
  .of_bind fun n => .pure (by
    simp only [BundleFlags.Defined, BundleFlags.fromBitsTruncate, UInt64.and_assoc, UInt64.and_self])

lemma yields_blockFlags (d : Nat) : (BlockFlags.deserialize d).Yields BlockFlags.Defined :=
  .of_bind fun n => .pure (by
    simp only [BlockFlags.Defined, BlockFlags.fromBitsTruncate, UInt64.and_assoc, UInt64.and_self])

lemma yields_fragmentFields (size : Nat) (s : Seq) :
    (PrimaryBlock.fragmentFields size s).Yields fun x => x.1.1.isSome = x.1.2.isSome := by
  unfold PrimaryBlock.fragmentFields
  split
  · exact .of_bind fun _ => .of_bind fun _ => .pure rfl
  · exact .pure rfl

lemma yields_primaryBlock (S : Serde) (d : Nat) : (PrimaryBlock.deserialize S d).Yields fun p =>
    p.bundleProcessingFlags.Defined ∧ p.fragmentOffset.isSome = p.totalDataLength.isSome :=
  yields_seq fun s => by
    unfold PrimaryBlock.visitSeq
    split
    · exact .panic _
    · split
      · refine .of_bind fun _ => (Seq.yields_field yields_bundleFlags _ _).bind fun _ hflags => .of_bind fun _ =>
          .of_bind fun _ => .of_bind fun _ => .of_bind fun _ => .of_bind fun _ => .of_bind fun _ =>
          (yields_fragmentFields _ _).bind fun _ hfragment => .of_bind fun _ => .pure ?_
        exact ⟨hflags, hfragment⟩
      · exact .fail _ _

lemma proper_ofContent {b : Block} (h : Block.ofContent S blockType data = .ok b) : b.Proper := by
  unfold Block.ofContent at h
  split at h
  · cases h; trivial
  · obtain ⟨a, -, h⟩ := bind_eq_ok.mp h; cases h; trivial
  · obtain ⟨a, -, h⟩ := bind_eq_ok.mp h; cases h; trivial
  · obtain ⟨_, -, h⟩ := bind_eq_ok.mp h; cases h; trivial
  · cases h; assumption

lemma yields_canonicalBlock (S : Serde) (d : Nat) : (CanonicalBlock.deserialize S d).Yields fun c =>
    c.blockFlags.Defined ∧ c.block.Proper :=
  yields_seq fun s => by
    unfold CanonicalBlock.visitSeq
    split
    · exact .fail _ _
    · split
      · have hblock (n : UInt64) (data : List UInt8) :
            (Parser.lift (Block.ofContent S n data)).Yields Block.Proper := fun bs b r h => by
          obtain ⟨_, ha, h⟩ := bind_eq_ok.mp h
          cases h
          exact proper_ofContent ha
        refine .of_bind fun _ => .of_bind fun _ => (Seq.yields_field yields_blockFlags _ _).bind fun _ hflags =>
          .of_bind fun _ => .of_bind fun _ => (hblock _ _).bind fun _ hproper => .of_bind fun _ => .pure ?_
        exact ⟨hflags, hproper⟩
      · exact .fail _ _

lemma tryFrom_shaped (h : tryFrom S bs = .ok b) : b.Shaped := by
  have hyields : (deserialize S maxLevels).Yields Bundle.Shaped := yields_seq fun s => by
    unfold visitSeq
    split
    · exact .panic _
    · refine (Seq.yields_field (yields_primaryBlock S) _ _).bind fun _ hp =>
        Parser.Yields.bind (P := fun x => ∀ c ∈ x.1, c.blockFlags.Defined ∧ c.block.Proper)
          (fun bs _ _ h => Seq.yields_collect (yields_canonicalBlock S) _ _ h) fun _ hc => ?_
      dsimp only
      split
      · exact .fail _ _
      · rename_i hne
        exact .pure ⟨by simpa using hne, hp.2, ⟨hp.1, fun c h => (hc c h).1⟩, fun c h => (hc c h).2⟩
  exact hyields (fromSlice_eq_ok.mp (mapErr_eq_ok.mp h))

/-! ## Checksums do not survive -/

/-- What is known of a checksum when its type was read. -/
def CRCType.blank : CRCType → CRCType
  | noCRC => noCRC
  | crc16 .. => crc16 0 0
  | crc32 .. => crc32 0 0 0 0

lemma reads_crcType (crc : CRCType) : (CRCType.deserialize d).Reads crc.serialize crc.blank := fun r => by
  cases crc <;> rw [CRCType.deserialize, Parser.bind_apply, CRCType.serialize, reads_u64] <;> rfl

lemma rejects_deserializeValue {crc : CRCType} (h : crc ≠ .noCRC) (n : Nat) :
    (crc.blank.deserializeValue (.definite d (n + 1))).Rejects crc.serializeValue := by
  cases crc with
  | noCRC => exact absurd rfl h
  | crc16 | crc32 =>
    refine (Seq.rejects_field _ _ ?_).bind _
    simp only [CRCType.serializeValue, append_assoc]
    exact rejects_bytes_array (by decide) _

lemma serialize_primaryBlock_crc (hcrc : p.crc ≠ .noCRC) (hfrag : p.serializeFragment = .ok fragment) :
    p.serialize = .ok (head 4 (if p.fragmentOffset.isSome then 11 else 9) ++ (encU64 p.version ++
      (p.bundleProcessingFlags.serialize ++ (p.crc.serialize ++ (p.destinationEndpoint.serialize ++
        (p.sourceNode.serialize ++ (p.reportTo.serialize ++ (p.creationTimestamp.serialize ++ (encU64 p.lifetime ++
          (fragment ++ p.crc.serializeValue)))))))))) := by
  have helements : p.elements = if p.fragmentOffset.isSome then 11 else 9 := by
    unfold PrimaryBlock.elements
    cases p.fragmentOffset <;> simp [hcrc]
  simp only [PrimaryBlock.serialize, hfrag, helements, ok_bind, Outcome.pure_def,
    PrimaryBlock.serializeFields, append_assoc]

lemma reads_fragmentFields (h : p.serializeFragment = .ok fragment)
    (k : Nat) : ∃ x, (PrimaryBlock.fragmentFields (if p.fragmentOffset.isSome then 11 else 9)
      (.definite d ((if p.fragmentOffset.isSome then 2 else 0) + k))).Reads fragment (x, .definite d k) := by
  unfold PrimaryBlock.serializeFragment at h
  cases ho : p.fragmentOffset with
  | none =>
    rw [ho] at h
    cases h
    simp only [Option.isSome_none, Bool.false_eq_true, ↓reduceIte, Nat.zero_add]
    exact ⟨_, .pure _⟩
  | some o =>
    rw [ho] at h
    cases ht : p.totalDataLength with
    | none => rw [ht] at h; cases h
    | some t =>
      rw [ht] at h
      cases h
      simp only [Option.isSome_some, ↓reduceIte, Nat.add_comm 2]
      exact ⟨_, (Seq.reads_field (reads_u64 o) _ (k + 1)).bind ((Seq.reads_field (reads_u64 t) _ k).bind_nil (.pure _))⟩

lemma rejects_primaryBlock (S : Serde) (hw : p.serialize = .ok w) (hl : w.length < 2 ^ 64)
    (hcrc : p.crc ≠ .noCRC) : (PrimaryBlock.deserialize S (d + 3)).Rejects w := by
  obtain ⟨_, hfrag, -⟩ := bind_eq_ok.mp hw
  rw [serialize_primaryBlock_crc hcrc hfrag, Outcome.ok.injEq] at hw
  subst hw
  simp only [length_append] at hl
  obtain ⟨_, hrest⟩ := reads_fragmentFields (d := d + 2) hfrag 1
  generalize hsize : (if p.fragmentOffset.isSome then 11 else 9) = size at hrest ⊢
  generalize hk : (if p.fragmentOffset.isSome then 2 else 0) = k at hrest
  have hsk : size = k + 9 := by subst hsize hk; split <;> rfl
  have hodd : size = 9 ∨ size = 11 := by subst hsize; split <;> simp
  have hvalue : (PrimaryBlock.crcValue size p.crc.blank (.definite (d + 2) 1)).Rejects p.crc.serializeValue := by
    unfold PrimaryBlock.crcValue
    rw [if_pos hodd]
    exact rejects_deserializeValue hcrc 0
  refine rejects_seq (by omega) ?_
  unfold PrimaryBlock.visitSeq
  simp only [Seq.sizeHint]
  rw [if_pos ⟨by omega, by omega⟩, hsk]
  refine (Seq.reads_field (reads_u64 p.version) _ (k + 8)).bind_rejects ?_
  refine (Seq.reads_field (reads_bundleFlags p.bundleProcessingFlags.bits) _ (k + 7)).bind_rejects ?_
  refine (Seq.reads_field (reads_crcType p.crc) _ (k + 6)).bind_rejects ?_
  refine (Seq.reads_field (reads_endpoint S (by omega)) _ (k + 5)).bind_rejects ?_
  refine (Seq.reads_field (reads_endpoint S (by omega)) _ (k + 4)).bind_rejects ?_
  refine (Seq.reads_field (reads_endpoint S (by omega)) _ (k + 3)).bind_rejects ?_
  refine (Seq.reads_field (reads_creationTimestamp p.creationTimestamp) _ (k + 2)).bind_rejects ?_
  refine (Seq.reads_field (reads_u64 p.lifetime) _ (k + 1)).bind_rejects ?_
  rw [hsk] at hrest hvalue
  exact hrest.bind_rejects (hvalue.bind _)

lemma CanonicalBlock.serialize_crc (hcrc : c.crc ≠ .noCRC) :
    c.serialize = head 4 6 ++ (encU64 c.block.blockType ++ (encU64 c.blockNumber ++ (c.blockFlags.serialize ++
      (c.crc.serialize ++ (encBytes c.block.content ++ c.crc.serializeValue))))) := by
  simp only [CanonicalBlock.serialize, hcrc, ↓reduceIte]

lemma rejects_canonicalBlock (S : Serde) (hl : c.serialize.length < 2 ^ 64)
    (hcrc : c.crc ≠ .noCRC) : (CanonicalBlock.deserialize S (d + 1)).Rejects c.serialize := by
  rw [CanonicalBlock.serialize_crc hcrc] at hl ⊢
  simp only [encBytes, length_append] at hl
  refine rejects_seq (by decide) ?_
  refine (Seq.reads_field (reads_u64 c.block.blockType) _ 5).bind_rejects ?_
  refine (Seq.reads_field (reads_u64 c.blockNumber) _ 4).bind_rejects ?_
  refine (Seq.reads_field (reads_blockFlags c.blockFlags.bits) _ 3).bind_rejects ?_
  refine (Seq.reads_field (reads_crcType c.crc) _ 2).bind_rejects ?_
  refine (Seq.reads_field (reads_bytes (by omega)) _ 1).bind_rejects ?_
  -- whatever the content decodes to, the value is read after it
  intro r x h
  obtain ⟨_, _, hblock, h⟩ := Parser.bind_eq_ok.mp h
  obtain ⟨_, -, hblock⟩ := bind_eq_ok.mp hblock
  cases hblock
  exact Parser.Rejects.bind (rejects_deserializeValue hcrc 0) _ r x h

/-- No decoder accepts what its encoder writes for a block with a checksum. -/
theorem crc_rejected (S : Serde) :
    (∀ (p : PrimaryBlock) (w : List UInt8), p.crc ≠ .noCRC → p.serialize = .ok w → FitsInMemory w →
      ∀ q, fromSlice (PrimaryBlock.deserialize S) w ≠ .ok q) ∧
    (∀ c : CanonicalBlock, c.crc ≠ .noCRC → FitsInMemory c.serialize →
      ∀ d, fromSlice (CanonicalBlock.deserialize S) c.serialize ≠ .ok d) := by
  refine ⟨fun p w hcrc hw hfit q h => ?_, fun c hcrc hfit d h => ?_⟩
  · have hl : w.length < 2 ^ 64 := hfit.trans_lt (by decide)
    have h := fromSlice_eq_ok.mp h
    rw [← append_nil w] at h
    exact rejects_primaryBlock S hw hl hcrc [] _ h
  · have hl : c.serialize.length < 2 ^ 64 := hfit.trans_lt (by decide)
    have h := fromSlice_eq_ok.mp h
    rw [← append_nil c.serialize] at h
    exact rejects_canonicalBlock S hl hcrc [] _ h

/-- A payload block with a checksum. -/
def checkedBlock : CanonicalBlock := ⟨.payload ⟨[7]⟩, 1, .empty, .crc16 1 2⟩

/-- A primary block with a checksum. -/
def checkedPrimaryBlock : PrimaryBlock where
  version := 7
  bundleProcessingFlags := ⟨0⟩
  crc := .crc32 1 2 3 4
  destinationEndpoint := .dtn ⟨"//b"⟩
  sourceNode := .dtn ⟨"//a"⟩
  reportTo := .dtn ⟨"none"⟩
  creationTimestamp := ⟨⟨0⟩, 0⟩
  lifetime := 0
  fragmentOffset := none
  totalDataLength := none

/-- The decoder stops at the array of numbers, where it expects a byte string. -/
theorem crc_lost :
    (checkedPrimaryBlock.serialize >>= fun w => fromSlice (PrimaryBlock.deserialize .plain) w) = .err .reader ∧
    fromSlice (CanonicalBlock.deserialize .plain) checkedBlock.serialize = .err .reader := by
  decide +kernel

theorem crc_rejected_checked : (∃ w, checkedPrimaryBlock.serialize = .ok w ∧ FitsInMemory w ∧
      ∀ q, fromSlice (PrimaryBlock.deserialize .plain) w ≠ .ok q) ∧
    checkedBlock.crc ≠ .noCRC ∧ FitsInMemory checkedBlock.serialize ∧
      ∀ d, fromSlice (CanonicalBlock.deserialize .plain) checkedBlock.serialize ≠ .ok d := by
  refine ⟨⟨_, rfl, by decide +kernel, ?_⟩, by decide, by decide +kernel, ?_⟩
  · exact (crc_rejected .plain).1 checkedPrimaryBlock _ (by decide) rfl (by decide +kernel)
  · exact (crc_rejected .plain).2 checkedBlock (by decide) (by decide +kernel)

/-! ## Bundles -/

lemma Bundle.Shaped.toVec (h : b.Shaped) : ∃ bytes, b.toVec = .ok bytes := by
  have hserialize : ∃ w, b.primaryBlock.serialize = .ok w := by
    simp only [PrimaryBlock.serialize, serializeFragment_eq h.fragment, ok_bind, Outcome.pure_def]
    exact ⟨_, rfl⟩
  obtain ⟨_, hw⟩ := hserialize
  exact ⟨_, by rw [Bundle.toVec, Bundle.serialize, hw]; rfl⟩

/-- Behind a primary block without checksum and blocks without one, the decoder stops at a block that has one. -/
lemma rejects_blocks (hb : b.Shaped) (hw : b.primaryBlock.serialize = .ok w)
    (hl : w.length + (serializeBlocks b.blocks).length < 2 ^ 64) (hp : b.primaryBlock.crc = .noCRC)
    (hc : ¬ ∀ c ∈ b.blocks, c.crc = .noCRC) :
    (visitSeq S (.indefinite (d + 3))).Rejects (w ++ serializeBlocks b.blocks) := by
  have hread := PrimaryBlock.reads_serialize (d := d) S hw (by omega) hp hb.fragment hb.flags.1
  obtain ⟨x, _, hx, hstop⟩ := serialize_start hw
  have hfield : (Seq.field (PrimaryBlock.deserialize S) "Error for field 'primary_block'" (.indefinite (d + 3))).Reads w
      (b.primaryBlock, .indefinite (d + 3)) := fun r => by
    have hnext := Seq.next_indefinite (hread r) (by simp [hx, hstop]) (by simp [hx])
    simp only [Seq.field, Parser.bind_apply, hnext, ok_bind, Parser.pure_apply]
  refine hfield.bind_rejects (Parser.Rejects.bind ?_ _)
  -- the first block with a checksum
  obtain ⟨c, hfind⟩ : ∃ c, b.blocks.find? (fun c => decide (c.crc ≠ .noCRC)) = some c :=
    Option.isSome_iff_exists.mp (by simpa [List.find?_isSome] using hc)
  obtain ⟨hcrc, l1, _, hblocks, hl1⟩ := List.find?_eq_some_iff_append.mp hfind
  have hmem : c ∈ b.blocks := by rw [hblocks]; simp
  have hlen := length_serialize_le hmem
  have hbefore : ∀ c ∈ l1, (CanonicalBlock.deserialize S (d + 3)).Reads c.serialize c := fun c hc => by
    have hc' : c ∈ b.blocks := by rw [hblocks]; simp [hc]
    have hlen := length_serialize_le hc'
    exact CanonicalBlock.reads_serialize S (by omega) (by simpa using hl1 c hc) (hb.flags.2 c hc') (hb.proper c hc')
  have hreject := rejects_canonicalBlock (d := d + 2) S (c := c) (by omega) (by simpa using hcrc)
  rw [serializeBlocks, hblocks, flatMap_append, flatMap_cons, ← append_assoc]
  intro r x
  have hcollect := Seq.rejects_collect hbefore (fun c _ => head_array_ne_stop _ _) hreject (head_array_ne_stop _ _)
  exact (hcollect _).append _ r x

lemma Bundle.Shaped.noCRC (hb : b.Shaped) (hv : b.toVec = .ok bytes) (hfit : FitsInMemory bytes)
    (h : tryFrom S bytes = .ok b') : b.NoCRC := by
  obtain ⟨w, hw, rfl⟩ := toVec_eq_ok hv
  simp only [FitsInMemory, isizeMax, length_append, length_cons] at hfit
  have hvisit : ¬ (visitSeq S (.indefinite 126)).Rejects (w ++ serializeBlocks b.blocks) := by
    intro hreject
    have h := fromSlice_eq_ok.mp (mapErr_eq_ok.mp h)
    rw [deserialize, seq, cons_append, Parser.bind_apply, item_indefinite, ok_bind, ← append_assoc] at h
    exact Parser.Rejects.bind hreject _ _ _ h
  by_cases hp : b.primaryBlock.crc = .noCRC
  · exact ⟨hp, by_contra fun hc => hvisit (rejects_blocks hb hw (by omega) hp hc)⟩
  · have hreject := rejects_primaryBlock (d := 123) S hw (by omega) hp
    exact absurd ((Seq.rejects_field _ _ hreject).append _ |>.bind _) hvisit

/-- If the encoding of a shaped bundle can be decoded, the bundle is regular and comes back. -/
lemma Bundle.Shaped.decoded (hb : b.Shaped) (hv : b.toVec = .ok bytes) (hfit : FitsInMemory bytes)
    (h : tryFrom S bytes = .ok b') : b.Regular ∧ b' = b := by
  have hregular := hb.regular (hb.noCRC hv hfit h)
  rw [hregular.tryFrom_eq hv hfit, Outcome.ok.injEq] at h
  exact ⟨hregular, h.symm⟩

end Dtn.Bp7
