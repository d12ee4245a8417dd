import Dtn.Framework.Agrees
import Dtn.Spec.Bp7.Wire
import Dtn.Proof.Bp7.RoundTrip

/-!
# Decoding a canonical bundle and encoding it again

Every canonical bundle is accepted (`tryFrom_encode`). The bytes written for
it again agree with the original ones part by part (`agrees_endpoint`,
`agrees_primaryBlock`, `agrees_block`), so they are the same exactly if no
part changes its form.
-/

namespace Dtn.Bp7.Wire

open List Outcome Dtn.Cbor

variable {d : Nat}

/-! ## Canonical bundles are accepted -/

lemma reads_encode_endpoint (S : Serde) {e : Endpoint} (h : e.encode.length < 2 ^ 64) :
    (Bp7.Endpoint.deserialize S (d + 2)).Reads e.encode e.value := by
  cases e with
  | dtn =>
    simp only [Endpoint.encode, encText, length_append] at h
    exact reads_endpoint_dtn S (reads_dtn_text (by omega))
  | dtnNone => exact reads_endpoint_dtn S reads_dtn_null
  | ipn node service => exact reads_endpoint_ipn S (S.ipn_reads_array d ⟨node, service⟩)

lemma elements_value (p : PrimaryBlock) : p.value.elements = if p.fragment.isSome then 10 else 8 := by
  cases hf : p.fragment <;> simp [PrimaryBlock.value, PrimaryBlock.elements, hf]

lemma fragmentBytes_value (p : PrimaryBlock) :
    fragmentBytes p.value.fragmentOffset p.value.totalDataLength = PrimaryBlock.encodeFragment p.fragment := by
  cases hf : p.fragment <;> simp [PrimaryBlock.value, PrimaryBlock.encodeFragment, fragmentBytes, hf]

lemma isSome_value (p : PrimaryBlock) : p.value.fragmentOffset.isSome = p.value.totalDataLength.isSome := by
  simp only [PrimaryBlock.value, Option.isSome_map]

lemma reads_encode_primaryBlock (S : Serde) {p : PrimaryBlock} (h : p.encode.length < 2 ^ 64) :
    (Bp7.PrimaryBlock.deserialize S (d + 3)).Reads p.encode p.value := by
  simp only [PrimaryBlock.encode, length_append] at h
  have hr := reads_primaryBlock (d := d) S (p := p.value) (reads_bundleFlags p.flags)
    (reads_encode_endpoint S (e := p.destination) (by omega)) (reads_encode_endpoint S (e := p.source) (by omega))
    (reads_encode_endpoint S (e := p.reportTo) (by omega)) rfl (isSome_value p)
  rwa [elements_value, fragmentBytes_value] at hr

lemma ofContent_encode (S : Serde) {c : Content} (h : c.encode.length < 2 ^ 64) :
    Bp7.Block.ofContent S c.blockType c.encode = .ok c.value := by
  cases c with
  | previousNode =>
    have hr := fromSlice_of_reads (reads_previousNode (d := 125) S (reads_encode_endpoint S h))
    simp only [Bp7.Block.ofContent, Content.blockType, Content.encode, show BlockType.tryFrom 6 =
      some .previousNode from rfl, hr, mapErr_ok, ok_bind, Outcome.pure_def, Content.value]
  | payload data => exact Bp7.Block.ofContent_content S (b := .payload ⟨data⟩) trivial h
  | bundleAge age => exact Bp7.Block.ofContent_content S (b := .bundleAge ⟨age⟩) trivial h
  | hopCount limit count => exact Bp7.Block.ofContent_content S (b := .hopCount ⟨limit, count⟩) trivial h
  | unkown t data ht => exact Bp7.Block.ofContent_content S (b := .unkown ⟨t, data⟩) ht h

lemma reads_encode_block (S : Serde) {b : Block} (h : b.encode.length < 2 ^ 64) :
    (CanonicalBlock.deserialize S (d + 1)).Reads b.encode b.value := by
  have hc : b.content.encode.length < 2 ^ 64 := by
    simp only [Block.encode, encBytes, length_append] at h; omega
  exact reads_canonicalBlock S (c := b.value) (reads_blockFlags b.flags) (ofContent_encode S hc) hc rfl

lemma tryFrom_encode (S : Serde) {b : Bundle} (h : b.encode.length < 2 ^ 64) :
    Bp7.Bundle.tryFrom S b.encode = .ok b.value := by
  have hblock : ∀ c ∈ b.blocks, c.encode.length ≤ (b.blocks.flatMap Block.encode).length := fun c hc => by
    rw [flatMap_def]
    exact (sublist_flatten_of_mem (mem_map_of_mem hc)).length_le
  simp only [Bundle.encode, length_append, length_cons] at h
  exact tryFrom_indefinite S (reads_encode_primaryBlock S (by omega)) (head_array_ne_stop _ _)
    (fun c hc => reads_encode_block S (by have := hblock c hc; omega)) (fun c _ => head_array_ne_stop _ _) b.nonempty

/-! ## What is written for them again -/

lemma agrees_u64 (a b : UInt64) : Agrees (encU64 a) (encU64 b) (a = b) := .of_reads (reads_u64 (d := 0)) a b

lemma agrees_endpoint (e : Endpoint) : Agrees e.encode e.value.serialize e.Stable := by
  cases e with
  | dtn =>
    simp only [Endpoint.encode, Endpoint.value, Bp7.Endpoint.serialize, DTNEndpoint.serialize,
      DTNEndpoint.isNullEndpoint, append_assoc, beq_iff_eq]
    refine .same_append _ (.same_append _ ?_)
    split
    · rename_i hn
      have := Agrees.of_heads (show 3 < 7 by decide) (show (utf8 "none").length < 2 ^ 64 by decide)
        (show 0 < 7 by decide) (show 0 < 2 ^ 64 by decide) (by decide) (utf8 "none") []
      subst hn
      rw [append_nil] at this
      exact this.congr (by simp [Endpoint.Stable])
    · grind [Agrees.refl, Endpoint.Stable]
  | dtnNone => exact .refl _
  | ipn =>
    simp only [Endpoint.encode, Endpoint.value, Bp7.Endpoint.serialize, IPNEndpoint.asArray,
      IPNEndpoint.serialize, append_assoc]
    exact .same_append _ (.same_append _ (.of_heads (by decide) (by decide) (by decide) (by decide) (by decide) _ _))

/-- The bytes written for the primary block. -/
def rewritePrimary (p : PrimaryBlock) : List UInt8 :=
  head 4 (if p.fragment.isSome then 10 else 8) ++ (encU64 p.version ++ (encU64 (p.flags &&& BundleFlags.all) ++
    (encU64 0 ++ (p.destination.value.serialize ++ (p.source.value.serialize ++ (p.reportTo.value.serialize ++
      (p.creationTimestamp.serialize ++ (encU64 p.lifetime ++ PrimaryBlock.encodeFragment p.fragment))))))))

lemma serialize_value (p : PrimaryBlock) : p.value.serialize = .ok (rewritePrimary p) := by
  rw [serialize_primaryBlock rfl (isSome_value p), elements_value, fragmentBytes_value]
  rfl

lemma agrees_primaryBlock (p : PrimaryBlock) : Agrees p.encode (rewritePrimary p) p.Stable := by
  have hflags := agrees_u64 p.flags (p.flags &&& BundleFlags.all)
  have h := Agrees.same_append (head 4 (if p.fragment.isSome then 10 else 8)) <| .same_append (encU64 p.version) <|
    hflags.append <| .same_append (encU64 0) <| (agrees_endpoint p.destination).append <|
      (agrees_endpoint p.source).append <| (agrees_endpoint p.reportTo).append_same <|
        p.creationTimestamp.serialize ++ (encU64 p.lifetime ++ PrimaryBlock.encodeFragment p.fragment)
  exact h.congr (and_congr_left' eq_comm)

lemma agrees_content (c : Content) : Agrees c.encode c.value.content c.Stable := by
  cases c with
  | previousNode e => exact agrees_endpoint e
  | _ => exact .refl _

lemma agrees_block (b : Block) : Agrees b.encode b.value.serialize b.Stable := by
  have htype : b.value.block.blockType = b.content.blockType := by
    obtain ⟨c, number, flags⟩ := b
    cases c <;> rfl
  rw [CanonicalBlock.serialize_noCRC (c := b.value) rfl, htype]
  have h := Agrees.same_append (head 4 5) <| .same_append (encU64 b.content.blockType) <|
    .same_append (encU64 b.number) <| (agrees_u64 b.flags (b.flags &&& BlockFlags.all)).append <|
      .same_append (encU64 0) (agrees_content b.content).encBytes
  exact h.congr (and_congr_left' eq_comm)

/-- A canonical bundle is accepted, and what is written for it again are the
same bytes exactly if it has no `ipn` endpoint, no text `none` and no undefined flag bit. -/
theorem reencode_eq_iff (S : Serde) (b : Bundle) (h : FitsInMemory b.encode) :
    ∃ v, Bp7.Bundle.tryFrom S b.encode = .ok v ∧ (v.toVec = .ok b.encode ↔ b.Stable) := by
  have hl : b.encode.length < 2 ^ 64 := by simp only [FitsInMemory, isizeMax] at h; omega
  refine ⟨b.value, tryFrom_encode S hl, ?_⟩
  have hblocks : Bp7.Bundle.serializeBlocks b.value.blocks = b.blocks.flatMap fun c => c.value.serialize := by
    simp only [Bp7.Bundle.serializeBlocks, Bundle.value, flatMap_map]
  have hvec : b.value.toVec = .ok ((initial 4 31 :: rewritePrimary b.primary) ++
      ((b.blocks.flatMap fun c => c.value.serialize) ++ [stop])) := by
    simp only [Bp7.Bundle.toVec, Bp7.Bundle.serialize, hblocks, show b.value.primaryBlock = b.primary.value from rfl,
      serialize_value, ok_bind, Outcome.pure_def, mapErr_ok]
  have hag := (Agrees.same_append [initial 4 31] (agrees_primaryBlock b.primary)).append
    ((Agrees.flatMap fun c (_ : c ∈ b.blocks) => agrees_block c).append_same [stop])
  rw [hvec, Outcome.ok.injEq, eq_comm]
  exact hag.eq_iff hl

/-- A bundle from and to `dtn` nodes, with a payload and a previous-node block. -/
def dtnBundle : Bundle where
  primary := ⟨7, 0x44, .dtn "//b/in", .dtn "//a", .dtnNone, ⟨⟨1000⟩, 0⟩, 3600, none⟩
  blocks := [⟨.previousNode (.dtn "//c"), 2, 0x11⟩, ⟨.payload [1, 2, 3], 1, 0⟩]
  nonempty := by decide

theorem reencode_dtnBundle :
    ∃ v, Bp7.Bundle.tryFrom .plain dtnBundle.encode = .ok v ∧ v.toVec = .ok dtnBundle.encode := by
  obtain ⟨v, hv, hiff⟩ := reencode_eq_iff .plain dtnBundle (by decide)
  exact ⟨v, hv, hiff.mpr (by decide)⟩

/-- A payload of one byte for the endpoint `ipn:1.2`. -/
def ipnBundle : List UInt8 :=
  [0x9f, 0x88, 7, 0, 0, 0x82, 2, 0x82, 1, 2, 0x82, 1, 0, 0x82, 1, 0, 0x82, 0, 0, 0, 0x85, 1, 1, 0, 0, 0x41, 65, 0xff]

/-- The destination of `ipnBundle`, an array on the wire, is written again as a map. -/
theorem reencode_ipnBundle_ne :
    (∃ b : Bundle, b.encode = ipnBundle) ∧
      ∃ v, Bp7.Bundle.tryFrom .plain ipnBundle = .ok v ∧ ∃ bytes, v.toVec = .ok bytes ∧ bytes ≠ ipnBundle := by
  have he : Bundle.encode ⟨⟨7, 0, .ipn 1 2, .dtnNone, .dtnNone, ⟨⟨0⟩, 0⟩, 0, none⟩, [⟨.payload [65], 1, 0⟩],
      by decide⟩ = ipnBundle := by decide
  refine ⟨⟨_, he⟩, _, he ▸ tryFrom_encode .plain (by decide), _, rfl, by decide⟩

end Dtn.Bp7.Wire
