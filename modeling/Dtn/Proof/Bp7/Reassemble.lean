import Dtn.Proof.Bp7.Splice

/-!
# Reassembly undoes fragmentation

Pieces of one bundle are fragments that belong together (`pieces_fragmentSet`),
and each has the bytes of the bundle's payload (`Piece.byteAt_eq`). Pieces that
tile the payload therefore give it back in any order and with any repetitions
(`reassemble_leaves`).
-/

namespace Dtn.Bp7.Bundle

open List Dtn.Cbor Dtn.Cover

variable {ε : Type} {K : Origin}
variable {o l : Nat} {x b : Bundle} {front : List CanonicalBlock} {c : CanonicalBlock} {ls received : List Bundle}

/-! ## Pieces -/

lemma Piece.offset_toNat (h : Piece K o l x) (hK : K.payload.length < 2 ^ 64) :
    x.offset.toNat = o := by grind [h.primaryBlock, h.le, UInt64.toNat_ofNat', offset]

lemma Piece.find_payload (h : Piece K o l x) : x.blocks.find? (·.block.isPayload) =
    some { K.payloadBlock with block := .payload ⟨(K.payload.drop o).take l⟩ } := by
  obtain ⟨_, hb, hf, -⟩ := h.blocks
  rw [hb, List.find?_append, List.find?_eq_none.mpr (fun y hy => by simp [hf y hy])]
  rfl

lemma Piece.payloadBytes_eq (h : Piece K o l x) : x.payloadBytes = (K.payload.drop o).take l := by
  rw [payloadBytes, h.find_payload]
  rfl

lemma Piece.range_eq (h : Piece K o l x) (hK : K.payload.length < 2 ^ 64) : x.range = (o, l) := by
  have hle := h.le
  rw [range, h.offset_toNat hK, h.payloadBytes_eq, length_take, length_drop, Nat.min_eq_left (by omega)]

lemma Piece.ranged (h : Piece K o l x) (hK : K.payload.length < 2 ^ 64) : x.Ranged := by
  have hle := h.le
  refine ⟨by rw [h.find_payload]; rfl, ?_⟩
  rw [h.range_eq hK]
  omega

lemma Piece.byteAt_eq (h : Piece K o l x) (hK : K.payload.length < 2 ^ 64)
    (hi : x.byteAt i = some byte) : K.payload[i]? = some byte := by
  rw [byteAt, h.offset_toNat hK, h.payloadBytes_eq] at hi
  split at hi <;> [rename_i hle; cases hi]
  rw [List.getElem?_take] at hi
  split at hi <;> [skip; cases hi]
  rwa [List.getElem?_drop, Nat.add_sub_cancel' hle] at hi

/-! ## Pieces that tile the payload -/

lemma pieces_fragmentSet (hK : K.payload.length < 2 ^ 64)
    (hflag : K.primaryBlock.bundleProcessingFlags.contains .fragment = true)
    (htotal : K.primaryBlock.totalDataLength = some total) (hne : xs ≠ [])
    (hx : ∀ x ∈ xs, ∃ o l, Piece K o l x) : FragmentSet total xs where
  nonempty := hne
  flag := fun x hxs => by
    obtain ⟨o, l, hp⟩ := hx x hxs
    rw [hp.primaryBlock]
    exact hflag
  same := fun x hxs y hys => by
    obtain ⟨o, l, hp⟩ := hx x hxs
    obtain ⟨_, _, hp'⟩ := hx y hys
    simp only [PrimaryBlock.equalsIgnoringFragmentOffset, hp.primaryBlock, hp'.primaryBlock, beq_self_eq_true]
  offset := fun x hxs => by
    obtain ⟨o, l, hp⟩ := hx x hxs
    rw [hp.primaryBlock]
    rfl
  total := fun x hxs => by
    obtain ⟨o, l, hp⟩ := hx x hxs
    rw [hp.primaryBlock]
    exact htotal
  ranged := fun x hxs => by
    obtain ⟨_, _, hp⟩ := hx x hxs
    exact hp.ranged hK

lemma withPayload_blocks (hf : ∀ x ∈ front, x.block.isPayload = false) (hc : c.block.isPayload = true) :
    withPayload data (front ++ [c]) = front ++ [{ c with block := .payload ⟨data⟩ }] := by
  simp_all [map_congr_left, withPayload]

lemma length_content_le {bytes : List UInt8} (hb : b.blocks = front ++ [c])
    (hv : b.toVec = .ok bytes) : c.block.content.length ≤ bytes.length := by
  obtain ⟨_, -, hv⟩ := Outcome.bind_eq_ok.mp (Outcome.mapErr_eq_ok.mp hv)
  cases hv
  have hmem : c ∈ b.blocks := by rw [hb]; simp
  have hc := length_serialize_le hmem
  simp only [CanonicalBlock.serialize, encBytes, length_append] at hc
  simp only [length_append]
  omega

/-- The payload block is moved to the end. -/
def payloadLast (b : Bundle) : Bundle :=
  { b with blocks := b.firstFragmentBlocks ++ b.blocks.filter (·.block.isPayload) }

lemma payloadLast_of_blocks (hb : b.blocks = front ++ [c]) (hc : c.block.isPayload = true)
    (hf : ∀ x ∈ front, x.block.isPayload = false) : b.payloadLast = b := by
  rw [payloadLast, firstFragmentBlocks_eq hb hc hf, filter_isPayload_eq hb hc hf, ← hb]

/-- The first piece, cleared of its fragment fields and with the whole payload, is the bundle again, up to the position
of the payload block. -/
lemma rebuild_eq (hflag : b.primaryBlock.bundleProcessingFlags.contains .fragment =
      false) (hoffset : b.primaryBlock.fragmentOffset = none) (htotal : b.primaryBlock.totalDataLength = none)
    (hc : b.blocks.filter (·.block.isPayload) = [c])
    (hmain : Piece (b.origin b.firstFragmentBlocks c) 0 l main) : rebuild main c.block.content = b.payloadLast := by
  obtain ⟨front, hblocks, hf, h0⟩ := hmain.blocks
  obtain rfl : front = b.firstFragmentBlocks := h0 rfl
  have hprimary : clearFragment main.primaryBlock = b.primaryBlock := by
    rw [hmain.primaryBlock, clearFragment]
    simp only [origin, BundleFlags.remove_union_fragment hflag]
    obtain ⟨⟨_, _, crc, _, _, _, _, _, offset, total⟩, _⟩ := b
    obtain rfl : offset = none := hoffset
    obtain rfl : total = none := htotal
    rfl
  have hpayload : { c with block := .payload ⟨c.block.content⟩ } = c := by
    have hkind : c.block.isPayload = true := by grind [mem_singleton_self]
    obtain ⟨block, _, _, _⟩ := c
    cases block with
    | payload => rfl
    | _ => cases hkind
  rw [rebuild, hprimary, hblocks, withPayload_blocks hf rfl, payloadLast, hc]
  exact congrArg (fun c => (⟨_, _ ++ [c]⟩ : Bundle)) hpayload

/-- Pieces that tile the payload, in any order and with any repetitions. -/
lemma reassembleBundles_tiled (hK : K.payload.length ≤ isizeMax)
    (hflag : K.primaryBlock.bundleProcessingFlags.contains .fragment = true)
    (htotal : K.primaryBlock.totalDataLength = some (UInt64.ofNat K.payload.length)) (hpos : 0 < K.payload.length)
    (htiled : Tiled (Piece K) 0 K.payload.length ls) (hr : ∀ x, x ∈ received ↔ x ∈ ls) :
    ∃ main l bytes, Piece K 0 l main ∧ reassembleBundles received = .ok bytes ∧
      (rebuild main K.payload).toVec = .ok bytes := by
  have hlt : K.payload.length < 2 ^ 64 := Nat.lt_of_le_of_lt hK (by decide)
  have htoNat : (UInt64.ofNat K.payload.length).toNat = K.payload.length := by
    rw [UInt64.toNat_ofNat']
    exact Nat.mod_eq_of_lt hlt
  have hx : ∀ x ∈ received, ∃ o l, Piece K o l x := fun x hxr => by
    obtain ⟨o, l, hp, -⟩ := htiled.of_mem ((hr x).mp hxr)
    exact ⟨o, l, hp⟩
  have hcover : Covered (UInt64.ofNat K.payload.length) received := by
    refine ⟨fun i hi => ?_, fun x hxr => ?_⟩
    · obtain ⟨x, hxl, o, l, hp, hcovers⟩ := htiled.covers (Nat.zero_le _) (htoNat ▸ hi)
      exact ⟨x, (hr x).mpr hxl, by rw [hp.range_eq hlt]; exact hcovers⟩
    · obtain ⟨o, l, hp⟩ := hx x hxr
      rw [hp.range_eq hlt, htoNat]
      exact hp.le
  have hne : received ≠ [] := by
    obtain ⟨x, hxr, -⟩ := hcover.1 0 (by omega)
    exact ne_nil_of_mem hxr
  have hset := pieces_fragmentSet hlt hflag htotal hne hx
  obtain ⟨main, hmain, hzero, data, bytes, hbytes, hvec, _, hpayload⟩ :=
    hset.reassembleBundles_eq hcover (htoNat.trans_le hK)
  -- what was put together is the payload, in a piece from its front
  obtain rfl : data = K.payload := by
    refine ext_getElem? fun i => ?_
    cases hi : data[i]? with
    | none => grind
    | some byte =>
      obtain ⟨x, hxr, hbyte⟩ := hpayload i byte hi
      obtain ⟨o, l, hp⟩ := hx x hxr
      exact (hp.byteAt_eq hlt hbyte).symm
  obtain ⟨_, l, hp⟩ := hx main hmain
  rw [hp.offset_toNat hlt] at hzero
  exact ⟨main, l, bytes, hzero ▸ hp, hbytes, hvec⟩

/-- Without one of the pieces there is a gap. -/
lemma reassembleBundles_gap (hK : K.payload.length < 2 ^ 64)
    (hflag : K.primaryBlock.bundleProcessingFlags.contains .fragment = true)
    (htotal : K.primaryBlock.totalDataLength = some (UInt64.ofNat K.payload.length))
    (htiled : Tiled (Piece K) 0 K.payload.length ls) (hr : ∀ x ∈ received, x ∈ ls) (hne : received ≠ []) (hx : x ∈ ls)
    (hmissing : x ∉ received) : reassembleBundles received = .err (sortByOffset received) := by
  have hpieces : ∀ y ∈ received, ∃ o l, Piece K o l y := fun y hy => by
    obtain ⟨o, l, hp, -⟩ := htiled.of_mem (hr y hy)
    exact ⟨o, l, hp⟩
  refine (pieces_fragmentSet hK hflag htotal hne hpieces).reassembleBundles_eq_err fun hcover => hmissing ?_
  obtain ⟨o, l, hp, -⟩ := htiled.of_mem hx
  have hrange := hp.range_eq hK
  have hpos := hp.pos
  have hle := hp.le
  obtain ⟨y, hy, hyo⟩ := hcover.1 o (by rw [UInt64.toNat_ofNat', Nat.mod_eq_of_lt hK]; omega)
  have heq : x = y := htiled.eq_of_covers (fun o l z hz => hz.range_eq hK) hx (hr y hy)
    (by rw [hrange]; exact ⟨Nat.le_refl o, Nat.lt_add_of_pos_right hpos⟩) hyo
  rw [heq]
  exact hy

lemma content_pos (hc : b.blocks.filter (·.block.isPayload) = [c]) (hfrag : b.fragment maxSize = .ok (fs, sizes)) :
    0 < c.block.content.length := by
  obtain ⟨_, _, _, hv, hlen, hp, _, -, -⟩ := fragment_eq_ok hfrag
  have hpos := payload_pos hc hv hp hlen
  omega

/-- Fragmenting a whole bundle, fragmenting fragments again to any depth, and
reassembling what is left in any order and with any repetitions gives the
encoding of the bundle. -/
theorem reassemble_leaves {b : Bundle} (hw : b.Whole) {bytes : List UInt8} (hv : b.toVec = .ok bytes)
    (hm : FitsInMemory bytes) {maxSize : Nat} {fs ls received : List Bundle} {sizes : UInt64 × UInt64}
    (hfrag : b.fragment maxSize = .ok (fs, sizes)) (hl : Leaves fs ls) (hr : ∀ x, x ∈ received ↔ x ∈ ls) :
    reassembleBundles received = .ok bytes := by
  obtain ⟨front, c, hb, hc, hf⟩ := hw.payload
  have hfilter := filter_isPayload_eq hb hc hf
  have hlen : c.block.content.length ≤ isizeMax := Nat.le_trans (length_content_le hb hv) hm
  have htiled : Tiled (Piece (b.origin b.firstFragmentBlocks c)) 0 c.block.content.length ls :=
    hl.tiled (Nat.lt_of_le_of_lt hlen (by decide)) rfl (BundleFlags.union_union_self ..)
      (tiled_of_whole hw.offset hw.total (payloadCanonicalBlock_eq hb hc hf) hfrag)
  obtain ⟨main, l, bytes', hmain, hbytes, hvec⟩ := reassembleBundles_tiled hlen (BundleFlags.contains_union_self ..) rfl
    (content_pos hfilter hfrag) htiled hr
  have hrebuild : rebuild main c.block.content = b :=
    (rebuild_eq hw.flag hw.offset hw.total hfilter hmain).trans (payloadLast_of_blocks hb hc hf)
  cases hv.symm.trans (hrebuild ▸ hvec)
  exact hbytes

/-- 400 bytes from `dtn://a` to `dtn://b`, with a hop count. -/
def wholeBundle : Bundle where
  primaryBlock := ⟨7, ⟨0⟩, .noCRC, .dtn ⟨"//b"⟩, .dtn ⟨"//a"⟩, .dtn ⟨"none"⟩, ⟨⟨1000⟩, 1⟩, 3600, none, none⟩
  blocks := [⟨.hopCount ⟨30, 0⟩, 2, .empty, .noCRC⟩, ⟨.payload ⟨(List.range 400).map UInt8.ofNat⟩, 1, .empty, .noCRC⟩]

/-- The fragments of a successful call. -/
def fragments (b : Bundle) (maxSize : Nat) : List Bundle :=
  match b.fragment maxSize with
  | .ok (fs, _) => fs
  | _ => []

lemma Leaves.refl (bs : List Bundle) : Leaves bs bs := by
  induction bs with
  | nil => exact .nil
  | cons _ _ ih => exact .keep ih

/-- `wholeBundle` cut in two, its first fragment cut again, and the pieces received backwards and then once more. -/
theorem reassemble_wholeBundle :
    ∃ first rest ls bytes sizes sizes', wholeBundle.fragment 380 = .ok (first :: rest, sizes) ∧
      first.fragment 240 = .ok (ls, sizes') ∧ wholeBundle.toVec = .ok bytes ∧
      reassembleBundles ((ls ++ rest).reverse ++ (ls ++ rest)) = .ok bytes := by
  have hfrag : wholeBundle.fragment 380 = .ok (((wholeBundle.fragments 380).headD wholeBundle ::
      (wholeBundle.fragments 380).tail), (167, 157)) := by decide +kernel
  generalize (wholeBundle.fragments 380).tail = rest at hfrag
  have hfrag' : ((wholeBundle.fragments 380).headD wholeBundle).fragment 240 =
      .ok (((wholeBundle.fragments 380).headD wholeBundle).fragments 240, (171, 161)) := by decide +kernel
  generalize ((wholeBundle.fragments 380).headD wholeBundle).fragments 240 = ls at hfrag'
  generalize (wholeBundle.fragments 380).headD wholeBundle = first at hfrag hfrag'
  have hw : wholeBundle.Whole := ⟨by decide, rfl, rfl, wholeBundle.blocks.take 1, _, rfl, rfl, by decide⟩
  have hlen : (wholeBundle.toVec.toOption.elim 0 List.length) ≤ isizeMax := by decide +kernel
  obtain ⟨bytes, -, -, hv, -⟩ := fragment_eq_ok hfrag
  rw [hv] at hlen
  exact ⟨first, rest, ls, bytes, _, _, hfrag, hfrag', hv,
    reassemble_leaves hw hv hlen hfrag (.split hfrag' (.refl ls) (.refl rest)) fun x => by rw [mem_append,
      mem_reverse, or_self]⟩

end Dtn.Bp7.Bundle
