import Dtn.Proof.Bp7.RoundTrip

/-!
# The bundle decoder on hostile input

The decoder has three panics: the `unwrap` of a primary block's size hint,
the checksum that a block announces by its element count but not by its
checksum type, and the capacity of the block vector, which the allocator may
not grant either. `Hostile` describes the inputs that reach one of them, and
`tryFrom_ne_panic_iff` says that these are all: every other decoder in the
tree is `Safe`.
-/

namespace Dtn.Bp7

open Dtn.Parser Dtn.Cbor Seq Bundle

variable {d : Nat} {bs : List UInt8}

/-! ## Decoders that never panic -/

lemma safe_endpointType : (EndpointType.deserialize d).Safe :=
  safe_u64.bind fun n => by
    split
    · exact .pure _
    · split <;> [exact .pure _; exact .fail _]

lemma safe_dtnEndpoint : (DTNEndpoint.deserialize d).Safe :=
  (safe_item d).bind fun h => by
    cases h.1 with
    | uint n => dsimp only; split <;> [exact .pure _; exact .fail _]
    | text n => exact (safe_textOf n).bind fun _ => .pure _
    | bytes | array | map | other => exact .fail _

lemma safe_endpoint (S : Serde) : (Endpoint.deserialize S d).Safe :=
  safe_seq fun s => (safe_field safe_endpointType _ s).bind fun
    | (.dtn, s) => (safe_field safe_dtnEndpoint _ s).bind fun _ => .pure _
    | (.ipn, s) => (safe_field S.ipn_safe _ s).bind fun _ => .pure _

lemma safe_bundleFlags : (BundleFlags.deserialize d).Safe := safe_u64.bind fun _ => .pure _

lemma safe_blockFlags : (BlockFlags.deserialize d).Safe := safe_u64.bind fun _ => .pure _

lemma safe_crcType : (CRCType.deserialize d).Safe :=
  safe_u64.bind fun v => by
    repeat' split
    all_goals first | exact .pure _ | exact .fail _

lemma safe_creationTimestamp : (CreationTimestamp.deserialize d).Safe :=
  safe_seq fun s => (safe_field (safe_u64.bind fun _ => .pure _) _ s).bind fun _ =>
    (safe_field safe_u64 _ _).bind fun _ => .pure _

lemma safe_hopCount : (HopCountBlock.deserialize d).Safe := safe_seq fun s => by
  unfold HopCountBlock.visitSeq
  split
  · exact .fail _
  · split
    · exact (safe_field safe_u8 _ s).bind fun _ => (safe_field safe_u8 _ _).bind fun _ => .pure _
    · exact .fail _

lemma ofContent_ne_panic (S : Serde) (blockType : UInt64) (data : List UInt8) :
    Block.ofContent S blockType data ≠ .panic := by
  have nested : ∀ {α : Type} {p : Decoder α} {f : α → Block}, (p maxLevels).Safe →
      ((fromSlice p data).mapErr (fun _ => Error.custom "") >>= fun b => pure (f b)) ≠ .panic := by
    intro α p f hp h
    have hs : fromSlice p data ≠ .panic := fun h => hp data (fromSlice_eq_panic.mp h)
    cases hx : fromSlice p data <;> simp_all [Outcome.mapErr]
  unfold Block.ofContent
  split
  · simp
  · exact nested ((safe_endpoint S).bind fun _ => .pure _)
  · exact nested (safe_u64.bind fun _ => .pure _)
  · exact nested safe_hopCount
  · simp

/-- Only `NoCRC` makes reading the checksum panic. -/
lemma deserializeValue_eq_panic {crc : CRCType} : crc.deserializeValue s bs = .panic ↔ crc = .noCRC := by
  cases crc with
  | noCRC => simp [CRCType.deserializeValue]
  | crc16 | crc32 =>
    simp only [CRCType.deserializeValue, reduceCtorEq, iff_false]
    exact (safe_field safe_bytes _ s).bind (fun v => by
      split <;> [exact .pure _; exact .fail _]) bs

/-! ## The panics of the primary block -/

/-- The checksum type of a primary block of `n` elements, if everything
between its head and its checksum can be read. -/
def primaryCrcType (S : Serde) (n : Nat) : Decoder CRCType := fun d => do
  let _ ← u64 d
  let _ ← BundleFlags.deserialize d
  let crc ← CRCType.deserialize d
  let _ ← Endpoint.deserialize S d
  let _ ← Endpoint.deserialize S d
  let _ ← Endpoint.deserialize S d
  let _ ← CreationTimestamp.deserialize d
  let _ ← u64 d
  if n = 11 then do
    let _ ← u64 d
    let _ ← u64 d
    return crc
  else return crc

/-- A primary block of indefinite length, or one that has a checksum element but no checksum type. -/
def HostilePrimary (S : Serde) (d : Nat) (bs : List UInt8) : Prop :=
  ∃ len d' r, item d bs = .ok ((.array len, d' + 1), r) ∧
    (len = none ∨ ∃ n, len = some n ∧ (n = 9 ∨ n = 11) ∧ ∃ r', primaryCrcType S n d' r = .ok (.noCRC, r'))

/-- After the eight common fields, only a checksum without a type panics. -/
lemma primaryTail_eq_panic {α : Type} (hk : k ≤ 3) {crc : CRCType}
    {g : (Option UInt64 × Option UInt64) × Seq → CRCType × Seq → α} :
    (PrimaryBlock.fragmentFields (k + 8) (.definite d k) >>= fun x =>
        PrimaryBlock.crcValue (k + 8) crc x.2 >>= fun y => pure (g x y)) bs = .panic ↔
      (k + 8 = 9 ∨ k + 8 = 11) ∧ ∃ r, (if k + 8 = 11 then do
        let _ ← u64 d
        let _ ← u64 d
        return crc
      else return crc : Parser Error CRCType) bs = .ok (.noCRC, r) := by
  have hcrc : ∀ {n : Nat} {s : Seq} {f : CRCType × Seq → α} {bs : List UInt8}, n = 9 ∨ n = 11 →
      ((PrimaryBlock.crcValue n crc s >>= fun y => pure (f y)) bs = .panic ↔ crc = .noCRC) := by
    intro n s f bs hn
    unfold PrimaryBlock.crcValue
    rw [if_pos hn, bind_eq_panic, deserializeValue_eq_panic]
    exact or_iff_left fun ⟨_, _, _, h⟩ => by cases h
  rcases (by omega : k = 0 ∨ k = 1 ∨ k = 2 ∨ k = 3) with rfl | rfl | rfl | rfl
  · simp [PrimaryBlock.fragmentFields, PrimaryBlock.crcValue]
  · simp_all [PrimaryBlock.fragmentFields]
  · simp only [PrimaryBlock.fragmentFields, PrimaryBlock.crcValue,
      show ¬(2 + 8 = 9 ∨ 2 + 8 = 11) by decide, ↓reduceIte, false_and, iff_false]
    exact ((safe_field safe_u64 _ _).bind fun _ => (safe_field safe_u64 _ _).bind fun _ => .pure _).bind
      (fun _ => (Parser.Safe.pure _).bind fun _ => .pure _) bs
  · have hfrag : (PrimaryBlock.fragmentFields 11 (.definite d 3)).Safe :=
      (safe_field safe_u64 _ _).bind fun _ => (safe_field safe_u64 _ _).bind fun _ => .pure _
    rw [hfrag.bind_eq_panic]
    simp only [hcrc (n := 11) (by decide), PrimaryBlock.fragmentFields, bind_eq_ok, Nat.reduceAdd,
      Nat.reduceEqDiff, or_true, ↓reduceIte, true_and, pure_apply, Outcome.ok.injEq, Prod.mk.injEq]
    constructor
    · grind [field_eq_ok, levels, rest]
    · rintro ⟨_, a, r1, h1, b, r2, h2, rfl, rfl⟩
      exact ⟨_, _, ⟨(a, .definite d 2), r1, field_eq_ok.mpr ⟨Nat.succ_pos _, h1, rfl⟩, (b, .definite d 1), r2,
        field_eq_ok.mpr ⟨Nat.succ_pos _, h2, rfl⟩, rfl, rfl⟩, rfl⟩

lemma primaryVisit_eq_panic (S : Serde) {n : Nat} :
    PrimaryBlock.visitSeq S (.definite d n) bs = .panic ↔
      (n = 9 ∨ n = 11) ∧ ∃ r, primaryCrcType S n d bs = .ok (.noCRC, r) := by
  have hmore : ∀ {k bs}, (definite d (k + 1)).More bs := Nat.succ_pos _
  have hrest : ∀ {k}, (definite d (k + 1)).rest = .definite d k := rfl
  unfold PrimaryBlock.visitSeq
  simp only [sizeHint]
  by_cases hn : 8 ≤ n ∧ n ≤ 11
  · rw [if_pos hn]
    obtain ⟨k, rfl⟩ : ∃ k, n = k + 8 := ⟨n - 8, by omega⟩
    simp only [field_bind_eq_panic safe_u64, field_bind_eq_panic safe_bundleFlags,
      field_bind_eq_panic safe_crcType, field_bind_eq_panic (safe_endpoint S),
      field_bind_eq_panic safe_creationTimestamp, hmore, hrest, levels, true_and, primaryCrcType, bind_eq_ok,
      primaryTail_eq_panic (show k ≤ 3 by omega)]
    constructor
    · rintro ⟨a1, r1, h1, a2, r2, h2, a3, r3, h3, a4, r4, h4, a5, r5, h5, a6, r6, h6, a7, r7, h7, a8, r8, h8, hk, r, h⟩
      exact ⟨hk, r, a1, r1, h1, a2, r2, h2, a3, r3, h3, a4, r4, h4, a5, r5, h5, a6, r6, h6, a7, r7, h7, a8, r8, h8, h⟩
    · rintro ⟨hk, r, a1, r1, h1, a2, r2, h2, a3, r3, h3, a4, r4, h4, a5, r5, h5, a6, r6, h6, a7, r7, h7, a8, r8, h8, h⟩
      exact ⟨a1, r1, h1, a2, r2, h2, a3, r3, h3, a4, r4, h4, a5, r5, h5, a6, r6, h6, a7, r7, h7, a8, r8, h8, hk, r, h⟩
  · grind [fail_apply]

lemma primaryBlock_eq_panic (S : Serde) : PrimaryBlock.deserialize S d bs = .panic ↔ HostilePrimary S d bs := by
  rw [PrimaryBlock.deserialize, seq_eq_panic, HostilePrimary]
  refine exists_congr fun len => exists_congr fun d' => exists_congr fun r => and_congr_right fun _ => ?_
  cases len with
  | none => exact iff_of_true rfl (.inl rfl)
  | some => simp [ofLen, primaryVisit_eq_panic]

/-! ## The panic of the canonical blocks -/

/-- The checksum type of a canonical block, if everything between its head and its checksum can be read. -/
def blockCrcType (S : Serde) : Decoder CRCType := fun d => do
  let blockType ← u64 d
  let _ ← u64 d
  let _ ← BlockFlags.deserialize d
  let crc ← CRCType.deserialize d
  let data ← bytes d
  let _ ← Parser.lift (Block.ofContent S blockType data)
  return crc

/-- A block that has a checksum element but no checksum type. -/
def HostileBlock (S : Serde) (d : Nat) (bs : List UInt8) : Prop :=
  ∃ d' r, item d bs = .ok ((.array (some 6), d' + 1), r) ∧ ∃ r', blockCrcType S d' r = .ok (.noCRC, r')

lemma blockVisit_eq_panic (S : Serde) :
    CanonicalBlock.visitSeq S (.definite d n) bs = .panic ↔ n = 6 ∧ ∃ r, blockCrcType S d bs = .ok (.noCRC, r) := by
  have hmore : ∀ {k bs}, (definite d (k + 1)).More bs := Nat.succ_pos _
  have hrest : ∀ {k}, (definite d (k + 1)).rest = .definite d k := rfl
  have hlift : ∀ t data, (Parser.lift (Block.ofContent S t data)).Safe := fun t data bs h => by
    rcases Outcome.bind_eq_panic.mp h with h | ⟨_, _, h⟩
    · exact ofContent_ne_panic S t data h
    · cases h
  have htail : ∀ {α : Type} {n : Nat} {crc : CRCType} {s : Seq} {g : CRCType × Seq → α} {r : List UInt8},
      (CanonicalBlock.crcValue n crc s >>= fun y => pure (g y)) r = .panic ↔ n = 6 ∧ crc = .noCRC := by
    intro α n crc s g r
    unfold CanonicalBlock.crcValue
    split
    · rename_i h
      rw [bind_eq_panic, deserializeValue_eq_panic]
      simp [h]
    · rename_i h
      simp [h]
  unfold CanonicalBlock.visitSeq
  simp only [sizeHint]
  by_cases hn : 5 ≤ n ∧ n ≤ 6
  · rw [if_pos hn]
    obtain ⟨k, rfl⟩ : ∃ k, n = k + 5 := ⟨n - 5, by omega⟩
    simp only [field_bind_eq_panic safe_u64, field_bind_eq_panic safe_blockFlags,
      field_bind_eq_panic safe_crcType, field_bind_eq_panic safe_bytes, hmore, hrest, levels, true_and,
      blockCrcType, bind_eq_ok, (hlift _ _).bind_eq_panic, htail, pure_apply, Outcome.ok.injEq, Prod.mk.injEq]
    constructor <;> grind
  · grind [fail_apply]

lemma canonicalBlock_eq_panic (S : Serde) (d : Nat) (bs : List UInt8) :
    CanonicalBlock.deserialize S d bs = .panic ↔ HostileBlock S d bs := by
  rw [CanonicalBlock.deserialize, seq_eq_panic, HostileBlock]
  constructor
  · rintro ⟨len, d', r, hr, h⟩
    cases len with
    | none => cases h
    | some =>
      obtain ⟨rfl, hc⟩ := (blockVisit_eq_panic S).mp h
      exact ⟨d', r, hr, hc⟩
  · rintro ⟨d', r, hr, h⟩
    exact ⟨some 6, d', r, hr, (blockVisit_eq_panic S).mpr ⟨rfl, h⟩⟩

lemma shrinks_crcType : (CRCType.deserialize d).Shrinks :=
  shrinks_u64.bind fun v => by
    repeat' split
    all_goals first | exact .pure _ | exact .fail _

lemma shrinks_deserializeValue (crc : CRCType) (s : Seq) : (crc.deserializeValue s).Shrinks := by
  cases crc with
  | noCRC => exact .panic
  | crc16 | crc32 =>
    refine (shrinks_field (fun _ => shrinks_bytes) _ s).bind fun v => ?_
    split
    split <;> [exact .pure _; exact .fail _]

lemma canonicalBlock_shorter (S : Serde)
    (h : CanonicalBlock.deserialize S d bs = .ok (c, r)) : r.length < bs.length := by
  refine seq_shorter (fun s => ?_) h
  unfold CanonicalBlock.visitSeq
  split
  · exact .fail _
  · split
    · have hu64 := shrinks_field fun d => shrinks_u64 (d := d)
      refine (hu64 _ s).bind fun _ => (hu64 _ _).bind fun _ =>
        (shrinks_field (fun _ => shrinks_u64.bind fun _ => .pure _) _ _).bind fun _ =>
        (shrinks_field (fun _ => shrinks_crcType) _ _).bind fun _ =>
        (shrinks_field (fun _ => shrinks_bytes) _ _).bind fun _ =>
        (Parser.Shrinks.lift _).bind fun _ => Parser.Shrinks.bind ?_ fun _ => .pure _
      unfold CanonicalBlock.crcValue
      split <;> [exact shrinks_deserializeValue _ _; exact .pure _]
    · exact .fail _

/-! ## The whole decoder -/

/-- The inputs that make the decoder panic: an array that declares more
elements than the block vector can have room for, whose primary block is
hostile, or that has a hostile block after a readable primary block and some readable blocks. -/
def Hostile (S : Serde) (bs : List UInt8) : Prop :=
  ∃ len d r, item maxLevels bs = .ok ((.array len, d + 1), r) ∧ (capacityOverflow S (.ofLen d len) ∨
    (ofLen d len).More r ∧ (HostilePrimary S d r ∨ ∃ p r', PrimaryBlock.deserialize S d r = .ok (p, r') ∧
      Seq.Later (CanonicalBlock.deserialize S) (HostileBlock S) (ofLen d len).rest r'))

lemma bundleVisit_eq_panic (S : Serde) :
    visitSeq S s bs = .panic ↔ capacityOverflow S s ∨
      s.More bs ∧ (HostilePrimary S s.levels bs ∨ ∃ p r, PrimaryBlock.deserialize S s.levels bs = .ok (p, r) ∧
        Seq.Later (CanonicalBlock.deserialize S) (HostileBlock S) s.rest r) := by
  unfold visitSeq
  split
  · rename_i h
    simp [h]
  · rename_i h
    have hcollect : ∀ {s : Seq} {r : List UInt8}, collectBlocks S s r = .panic ↔
        Seq.Later (CanonicalBlock.deserialize S) (HostileBlock S) s r := fun {s r} =>
      collect_eq_panic (canonicalBlock_eq_panic S) (canonicalBlock_shorter S) (Nat.lt_succ_self _)
    rw [bind_eq_panic, field_eq_panic, primaryBlock_eq_panic, or_iff_right h]
    constructor
    · rintro (⟨hm, hp⟩ | ⟨⟨p, s'⟩, r, hf, hb⟩)
      · exact ⟨hm, .inl hp⟩
      · obtain ⟨hm, hp, rfl⟩ := field_eq_ok.mp hf
        rcases bind_eq_panic.mp hb with hc | ⟨⟨cs, s'⟩, r', -, he⟩
        · exact ⟨hm, .inr ⟨p, r, hp, hcollect.mp hc⟩⟩
        · dsimp only at he
          split at he <;> cases he
    · rintro ⟨hm, hp | ⟨p, r, hp, hl⟩⟩
      · exact .inl ⟨hm, hp⟩
      · exact .inr ⟨(p, s.rest), r, field_eq_ok.mpr ⟨hm, hp, rfl⟩,
          bind_eq_panic.mpr (.inl (hcollect.mpr hl))⟩

/-- The decoder returns, with a bundle or an error, exactly on the inputs that are not hostile. -/
theorem tryFrom_ne_panic_iff (S : Serde) (bs : List UInt8) : tryFrom S bs ≠ .panic ↔ ¬ Hostile S bs := by
  rw [tryFrom, Ne, Outcome.mapErr_eq_panic, fromSlice_eq_panic, deserialize, seq_eq_panic]
  simp only [bundleVisit_eq_panic, Hostile, levels_ofLen]

/-- A primary block of indefinite length, also behind a tag or in a tagged bundle; one of nine elements
whose checksum type is 0; a canonical block of six elements whose checksum type is 0; and arrays that declare
2⁵⁶ and 2⁶³ elements. -/
theorem tryFrom_eq_panic_inputs :
    tryFrom .plain [0x9f, 0x9f] = .panic ∧
      tryFrom .plain [0x9f, 0xc0, 0x9f] = .panic ∧
      tryFrom .plain [0xd9, 0xd9, 0xf7, 0x9f, 0x9f] = .panic ∧
      tryFrom .plain [0x9f, 0x89, 7, 0, 0, 0x82, 1, 0, 0x82, 1, 0, 0x82, 1, 0, 0x82, 0, 0, 0] = .panic ∧
      tryFrom .plain [0x9f, 0x88, 7, 0, 0, 0x82, 1, 0, 0x82, 1, 0, 0x82, 1, 0, 0x82, 0, 0, 0,
        0x86, 1, 1, 0, 0, 0x40] = .panic ∧
      tryFrom .plain [0x9b, 1, 0, 0, 0, 0, 0, 0, 0] = .panic ∧
      tryFrom .plain [0x9b, 0x80, 0, 0, 0, 0, 0, 0, 0] = .panic := by
  decide +kernel

end Dtn.Bp7
