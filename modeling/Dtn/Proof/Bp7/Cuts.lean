import Dtn.Proof.Bp7.Reassemble
import Mathlib.Data.List.Forall2

/-!
# Where `fragment` cuts

The `i`-th fragment begins at `Cutting.start i`, which depends on the two minimal
sizes only, and the loop gets to its end exactly if each of these fragments is
small enough (`Cutting.Roomy.loop_getElem?`, `Cutting.Roomy.loop_eq_ok`). From
this follows exactly when the fragments have the blocks that the flags ask for
(`fragment_replicates_iff`), tile the payload (`fragment_tiles_iff`) and are made
without a failed assertion (`fragment_fits_iff`).
-/

namespace Dtn.Bp7

open Dtn.Cbor Nat Outcome

namespace Bundle

lemma forall₂_getElem? {α β : Type} {R : α → β → Prop} {as : List α} {bs : List β} (h : List.Forall₂ R as bs)
    {i : Nat} {a : α} {b : β} (ha : as[i]? = some a) (hb : bs[i]? = some b) : R a b := by
  obtain ⟨hi, rfl⟩ := List.getElem?_eq_some_iff.mp ha
  obtain ⟨hi', rfl⟩ := List.getElem?_eq_some_iff.mp hb
  exact h.get hi hi'

/-! ## The loop -/

namespace Cutting

variable {k : Cutting} {fs : List Bundle}

/-- Where the fragments begin, as long as there is payload left. -/
def start (k : Cutting) : Nat → Nat
  | 0 => 0
  | i + 1 => (k.maxSize - k.firstFragmentMinSize) + i * (k.maxSize - k.fragmentMinSize)

/-- The `i`-th fragment. -/
def nth (k : Cutting) (i : Nat) : Bundle := k.piece (k.start i) (k.payloadLengthForFragment (k.start i))

lemma start_mono (h : i ≤ j) : k.start i ≤ k.start j := by
  cases i with
  | zero => exact zero_le _
  | succ =>
    cases j with
    | zero => cases h
    | succ => exact Nat.add_le_add_left (Nat.mul_le_mul_right _ (Nat.le_of_succ_le_succ h)) _

/-- Every fragment has room for some payload. -/
structure Roomy (k : Cutting) : Prop where
  first : k.firstFragmentMinSize < k.maxSize
  le : k.fragmentMinSize ≤ k.firstFragmentMinSize

lemma Roomy.start_pos (hk : k.Roomy) (i : Nat) : 0 < k.start (i + 1) := by
  have := hk.first
  rw [start]
  omega

lemma Roomy.one_le (hk : k.Roomy) (ho : o < k.payload.length) : 1 ≤ k.payloadLengthForFragment o := by
  have hfirst := hk.first
  have hle := hk.le
  rw [payloadLengthForFragment]
  split <;> omega

/-- A fragment is as long as it can be, or ends with the payload. -/
lemma Roomy.start_add (hk : k.Roomy) (i : Nat) :
    k.start i + k.payloadLengthForFragment (k.start i) = k.start (i + 1) ∨
      k.start i + k.payloadLengthForFragment (k.start i) = max k.payload.length (k.start i) ∧
        k.payload.length ≤ k.start (i + 1) := by
  cases i with
  | zero =>
    simp only [payloadLengthForFragment, start, zero_mul, add_zero, ↓reduceIte]
    omega
  | succ i =>
    have hpos := hk.start_pos i
    rw [payloadLengthForFragment, if_neg (by omega)]
    have hnext : k.start (i + 1 + 1) = k.start (i + 1) + (k.maxSize - k.fragmentMinSize) := by
      simp only [start, succ_mul, add_assoc]
    omega

lemma loop_cons (ho : o < k.payload.length) (h : k.loop o = .ok fs) :
    1 ≤ k.payloadLengthForFragment o ∧ ∃ bytes rest, (k.piece o (k.payloadLengthForFragment o)).toVec = .ok bytes ∧
      bytes.length ≤ k.maxSize ∧ k.loop (o + k.payloadLengthForFragment o) = .ok rest ∧
      fs = k.piece o (k.payloadLengthForFragment o) :: rest := by
  rw [loop, if_pos ho] at h
  dsimp only at h
  split at h <;> [rename_i hlen; cases h]
  obtain ⟨bytes, hbytes, h⟩ := bind_eq_ok.mp h
  split at h <;> [rename_i hle; cases h]
  obtain ⟨rest, hrest, h⟩ := bind_eq_ok.mp h
  cases h
  exact ⟨hlen, bytes, rest, mapErr_eq_ok.mp hbytes, hle, hrest, rfl⟩

lemma loop_nil (ho : k.payload.length ≤ o) : k.loop o = .ok [] := by
  rw [loop, if_neg (not_lt.mpr ho)]

/-- The fragments from the `i`-th on, if the loop gets to its end. -/
lemma Roomy.loop_getElem? (hk : k.Roomy) (h : k.loop (k.start i) = .ok fs) (j : Nat) :
    fs[j]? = if k.start (i + j) < k.payload.length then some (k.nth (i + j)) else none := by
  induction j generalizing i fs with
  | zero =>
    split
    · rename_i ho
      obtain ⟨-, bytes, rest, -, -, -, rfl⟩ := loop_cons ho h
      rfl
    · rename_i ho
      cases (loop_nil (not_lt.mp ho)).symm.trans h
      rfl
  | succ j ih =>
    have hend : k.payload.length ≤ k.start (i + 1) → ¬ k.start (i + (j + 1)) < k.payload.length := fun hle =>
      not_lt.mpr (le_trans hle (start_mono (by omega)))
    by_cases ho : k.start i < k.payload.length
    · obtain ⟨-, _, _, -, -, hrest, rfl⟩ := loop_cons ho h
      rw [List.getElem?_cons_succ]
      rcases hk.start_add i with heq | ⟨heq, hle⟩
      · rw [heq] at hrest
        rw [ih hrest, add_assoc, add_comm 1 j]
      · rw [heq, max_eq_left (le_of_lt ho)] at hrest
        cases (loop_nil (le_refl _)).symm.trans hrest
        rw [if_neg (hend hle)]
        rfl
    · have hle := not_lt.mp ho
      cases (loop_nil hle).symm.trans h
      rw [if_neg (hend (le_trans hle (start_mono (le_succ i))))]
      rfl

/-- The loop gets to its end if and only if each fragment is small enough. -/
lemma Roomy.loop_eq_ok (hk : k.Roomy) : (∃ fs, k.loop 0 = .ok fs) ↔
    ∀ i, k.start i < k.payload.length → ∃ bytes, (k.nth i).toVec = .ok bytes ∧ bytes.length ≤ k.maxSize := by
  constructor
  · rintro ⟨fs, h⟩ i
    -- the round at the `i`-th fragment is reached, from any fragment before it
    suffices ∀ n i fs, k.loop (k.start i) = .ok fs → k.start (i + n) < k.payload.length →
        ∃ bytes, (k.nth (i + n)).toVec = .ok bytes ∧ bytes.length ≤ k.maxSize by
      have hi := this i 0 fs h
      rwa [zero_add] at hi
    intro n
    induction n with
    | zero =>
      intro i fs h hi
      obtain ⟨-, bytes, rest, hbytes, hle, -, -⟩ := loop_cons hi h
      exact ⟨bytes, hbytes, hle⟩
    | succ n ih =>
      intro i fs h hi
      have hlt : k.start i < k.payload.length := lt_of_le_of_lt (start_mono (by omega)) hi
      obtain ⟨-, bytes, rest, -, -, hrest, -⟩ := loop_cons hlt h
      rcases hk.start_add i with heq | ⟨-, hle⟩
      · rw [heq] at hrest
        have hnext : i + (n + 1) = i + 1 + n := by omega
        rw [hnext] at hi ⊢
        exact ih (i + 1) rest hrest hi
      · have hle' : k.start (i + 1) ≤ k.start (i + (n + 1)) := start_mono (by omega)
        omega
  · intro h
    suffices ∀ n i, k.payload.length - k.start i ≤ n → ∃ fs, k.loop (k.start i) = .ok fs from this _ 0 (le_refl _)
    intro n
    induction n with
    | zero => exact fun i hn => ⟨[], loop_nil (by omega)⟩
    | succ _ ih =>
      intro i hn
      by_cases ho : k.start i < k.payload.length
      · obtain ⟨_, hbytes, hle⟩ := h i ho
        have hlen := hk.one_le ho
        obtain ⟨rest, hrest⟩ : ∃ rest, k.loop (k.start i + k.payloadLengthForFragment (k.start i)) = .ok rest := by
          rcases hk.start_add i with heq | ⟨heq, -⟩
          · rw [heq]
            exact ih (i + 1) (by omega)
          · exact ⟨[], loop_nil (by omega)⟩
        refine ⟨k.nth i :: rest, ?_⟩
        rw [loop, if_pos ho]
        rw [if_pos hlen, show k.piece (k.start i) _ = k.nth i from rfl, hbytes, mapErr_ok, ok_bind,
          if_pos hle, hrest, ok_bind, pure_def]
      · exact ⟨[], loop_nil (not_lt.mp ho)⟩

lemma Roomy.fits_of_mem (hk : k.Roomy) (h : k.loop 0 = .ok fs) (hf : f ∈ fs) :
    ∃ bytes, f.toVec = .ok bytes ∧ bytes.length ≤ k.maxSize := by
  obtain ⟨i, hi, rfl⟩ := List.mem_iff_getElem.mp hf
  have hget := hk.loop_getElem? (i := 0) h i
  rw [zero_add, List.getElem?_eq_getElem hi] at hget
  split at hget <;> [rename_i hlt; cases hget]
  rw [Option.some.inj hget]
  exact hk.loop_eq_ok.mp ⟨fs, h⟩ i hlt

lemma loop_ne_canNotFragmentThatSmall (o : Nat) (n : UInt64) : k.loop o ≠ .err (.canNotFragmentThatSmall n) := by
  induction o using Cutting.loop.induct k with
  | case1 o hlt _ hlen ih =>
    rw [loop, if_pos hlt]
    rw [if_pos hlen]
    intro h
    rcases bind_eq_err.mp h with h | ⟨bytes, -, h⟩
    · cases hv : (k.piece o (k.payloadLengthForFragment o)).toVec <;> rw [hv] at h <;> cases h
    · split at h
      · rcases bind_eq_err.mp h with h | ⟨rest, -, h⟩
        · exact ih bytes h
        · cases h
      · cases h
  | case2 _ hlt _ hlen =>
    rw [loop, if_pos hlt]
    rw [if_neg hlen]
    rintro ⟨⟩
  | case3 _ hge =>
    rw [loop, if_neg hge]
    rintro ⟨⟩

/-- Without room in the first fragment, the first assertion fails. -/
lemma loop_panic (hpos : 0 < k.payload.length) (h : k.maxSize ≤ k.firstFragmentMinSize) : k.loop 0 = .panic := by
  rw [loop, if_pos hpos]
  rw [if_neg]
  simp only [payloadLengthForFragment, ↓reduceIte]
  omega

end Cutting

/-! ## The fragments of a bundle -/

variable {b : Bundle} {c : CanonicalBlock} {maxSize : Nat} {fs : List Bundle} {minSizes : UInt64 × UInt64}
  {encoded primary : List UInt8}

/-- The primary block of the fragment at this offset into the payload. -/
def fragmentPrimaryBlock (b : Bundle) (c : CanonicalBlock) (o : Nat) : PrimaryBlock :=
  { b.primaryBlock with
    bundleProcessingFlags := b.primaryBlock.bundleProcessingFlags.union .fragment
    fragmentOffset := some (UInt64.ofNat (b.offset.toNat + o))
    totalDataLength := some (b.primaryBlock.totalDataLength.getD (UInt64.ofNat c.block.content.length)) }

/-- The payload block of the fragment with these bytes. -/
def fragmentPayloadBlock (c : CanonicalBlock) (o l : Nat) : CanonicalBlock :=
  { c with block := .payload ⟨(c.block.content.drop o).take l⟩ }

lemma find_of_filter (hc : b.blocks.filter (·.block.isPayload) = [c]) :
    b.blocks.find? (·.block.isPayload) = some c := by
  rw [← List.head?_filter, hc]
  rfl

lemma replicatedBlocks_eq (b : Bundle) : b.replicatedBlocks =
    b.firstFragmentBlocks.filter (·.blockFlags.contains .mustReplicateToAllFragments) := by
  rw [replicatedBlocks, firstFragmentBlocks, List.filter_filter]
  exact congrArg (List.filter · b.blocks) (funext fun c => Bool.and_comm _ _)

lemma length_replicatedBlocks_le (b : Bundle) :
    (serializeBlocks b.replicatedBlocks).length ≤ (serializeBlocks b.firstFragmentBlocks).length := by
  rw [replicatedBlocks_eq, ← length_serializeBlocks_filter (·.blockFlags.contains .mustReplicateToAllFragments)
    b.firstFragmentBlocks]
  exact Nat.le_add_right ..

lemma fragmentMinSizes_le (n : Nat) (b : Bundle) :
    (fragmentMinSizes n b.blocks).2 ≤ (fragmentMinSizes n b.blocks).1 := by
  rw [fragmentMinSizes_eq]
  exact Nat.add_le_add_left (length_replicatedBlocks_le b) _

lemma roomy_cutting (h : (fragmentMinSizes primary.length b.blocks).1 < maxSize) :
    (b.cutting c (fragmentMinSizes primary.length b.blocks) maxSize).Roomy := ⟨h, fragmentMinSizes_le _ b⟩

lemma nth_primaryBlock (k : Cutting) (hk : b.cutting c sizes maxSize = k) (i : Nat) :
    (k.nth i).primaryBlock = b.fragmentPrimaryBlock c (k.start i) := by
  rw [← hk]
  rfl

lemma nth_blocks (k : Cutting) (hk : b.cutting c sizes maxSize = k) (hroomy : k.Roomy) (i : Nat) :
    (k.nth i).blocks = (if i = 0 then b.firstFragmentBlocks else b.fragmentBlocks) ++
      [fragmentPayloadBlock c (k.start i) (k.payloadLengthForFragment (k.start i))] := by
  cases i with
  | zero => rw [← hk]; rfl
  | succ i =>
    have hpos := hroomy.start_pos i
    rw [Cutting.nth, Cutting.piece, if_neg (ne_of_gt hpos), if_neg (succ_ne_zero i), ← hk]
    rfl

lemma fragment_getElem? (h : b.fragment maxSize = .ok (fs, minSizes)) :
    ∃ c encoded primary k, b.blocks.find? (·.block.isPayload) = some c ∧ b.toVec = .ok encoded ∧
      b.primaryBlock.serialize = .ok primary ∧ maxSize < encoded.length ∧
      b.cutting c (fragmentMinSizes primary.length b.blocks) maxSize = k ∧
      (c.block.content = [] ∧ fs = [] ∨
        k.Roomy ∧ (∀ i, fs[i]? = if k.start i < c.block.content.length then some (k.nth i) else none) ∧
          ∀ f ∈ fs, ∃ bytes, f.toVec = .ok bytes ∧ bytes.length ≤ maxSize) := by
  obtain ⟨encoded, primary, c, hv, hlen, hp, hsize, hc, hloop⟩ := fragment_eq_ok h
  refine ⟨c, encoded, primary, _, payloadCanonicalBlock_eq_ok hc, hv, hp, hlen, rfl, ?_⟩
  generalize hk : b.cutting c (fragmentMinSizes primary.length b.blocks) maxSize = k at hloop
  have hpayload : k.payload = c.block.content := by rw [← hk]; rfl
  by_cases hpos : 0 < c.block.content.length
  · right
    have hroomy : k.Roomy := by
      rw [← hk]
      refine roomy_cutting (lt_of_le_of_ne hsize fun heq => ?_)
      rw [Cutting.loop_panic (hpayload ▸ hpos) (by rw [← hk]; exact heq.ge)] at hloop
      cases hloop
    refine ⟨hroomy, fun i => ?_, fun f hf => ?_⟩
    · have hi := hroomy.loop_getElem? (i := 0) hloop i
      rwa [zero_add, hpayload] at hi
    · have hmax : k.maxSize = maxSize := by rw [← hk]; rfl
      exact hmax ▸ hroomy.fits_of_mem hloop hf
  · left
    have hnil : c.block.content = [] := List.length_eq_zero_iff.mp (Nat.eq_zero_of_not_pos hpos)
    refine ⟨hnil, ?_⟩
    cases (Cutting.loop_nil (by rw [hpayload, hnil]; exact zero_le _)).symm.trans hloop
    rfl

lemma fragment_small (h : b.fragment maxSize = .ok (fs, minSizes)) (hf : f ∈ fs) {bytes : List UInt8}
    (hv : f.toVec = .ok bytes) : bytes.length ≤ maxSize := by
  obtain ⟨_, _, _, _, -, -, -, -, -, ⟨-, rfl⟩ | ⟨-, -, hsmall⟩⟩ := fragment_getElem? h
  · cases hf
  · obtain ⟨_, hv', hle⟩ := hsmall f hf
    cases hv.symm.trans hv'
    exact hle

lemma lt_minSize (h : b.fragment maxSize = .err (.canNotFragmentThatSmall k)) (hv : b.toVec = .ok encoded)
    (hfit : FitsInMemory encoded) : maxSize < k.toNat := by
  rw [fragment, hv, mapErr_ok, ok_bind] at h
  split at h <;> [cases h; skip]
  split at h <;> [cases h; skip]
  split at h <;> [cases h; skip]
  obtain ⟨primary, hp, -⟩ := bind_eq_ok.mp (mapErr_eq_ok.mp hv)
  rw [hp, mapErr_ok, ok_bind] at h
  dsimp only at h
  split at h
  · rename_i hsize
    cases h
    have hle := fragmentMinSizes_le primary.length b
    have hlen := length_toVec hv hp
    have hsplit := length_serializeBlocks_filter (·.block.isPayload) b.blocks
    have hfirst := congrArg Prod.fst (fragmentMinSizes_eq primary.length b)
    simp only [firstFragmentBlocks, payloadBlockSerializationOverhead, bundleSerializationOverhead] at hfirst hlen
    simp only [FitsInMemory, isizeMax] at hfit
    rw [UInt64.toNat_ofNat', mod_eq_of_lt (by omega)]
    omega
  · rcases bind_eq_err.mp h with h | ⟨c, -, h⟩
    · unfold payloadCanonicalBlock at h
      split at h <;> cases h
    · rcases bind_eq_err.mp h with h | ⟨fs, -, h⟩
      · exact absurd h (Cutting.loop_ne_canNotFragmentThatSmall 0 k)
      · cases h

/-! ## Blocks -/

lemma filter_eq_filter_not {α : Type} {p : α → Bool} {as : List α} (h : as.filter p = as.filter fun a => !p a) :
    as = [] := by
  refine List.eq_nil_iff_forall_not_mem.mpr fun a ha => ?_
  cases hp : p a with
  | true =>
    have hmem : a ∈ as.filter fun a => !p a := h ▸ List.mem_filter.mpr ⟨ha, hp⟩
    have hnot := (List.mem_filter.mp hmem).2
    rw [hp] at hnot
    cases hnot
  | false =>
    have hmem : a ∈ as.filter p := h ▸ List.mem_filter.mpr ⟨ha, by rw [hp]; rfl⟩
    cases hp.symm.trans (List.mem_filter.mp hmem).2

/-- Later fragments have the blocks that are to be replicated only if there are no blocks at all. -/
lemma fragmentBlocks_eq_replicatedBlocks : b.fragmentBlocks = b.replicatedBlocks ↔ b.firstFragmentBlocks = [] := by
  have hfragment : b.fragmentBlocks =
      b.firstFragmentBlocks.filter fun c => !c.blockFlags.contains .mustReplicateToAllFragments := by
    rw [fragmentBlocks, firstFragmentBlocks, List.filter_filter]
    exact congrArg (List.filter · b.blocks) (funext fun c => Bool.and_comm _ _)
  rw [hfragment, replicatedBlocks_eq]
  constructor
  · exact fun h => filter_eq_filter_not h.symm
  · intro h
    rw [h]
    rfl

/-- The blocks of the fragments are what the flags ask for, if and only if the bundle has no block but payload, or its
payload fits the first fragment. -/
theorem fragment_replicates_iff (h : b.fragment maxSize = .ok (fs, minSizes)) :
    ∃ c primary, b.blocks.find? (·.block.isPayload) = some c ∧ b.primaryBlock.serialize = .ok primary ∧
      ((∀ i f, fs[i]? = some f → ∃ data, f.blocks =
          (if i = 0 then b.firstFragmentBlocks else b.replicatedBlocks) ++ [{ c with block := .payload data }]) ↔
        b.firstFragmentBlocks = [] ∨
          c.block.content.length ≤ maxSize - (fragmentMinSizes primary.length b.blocks).1) := by
  obtain ⟨c, encoded, primary, k, hc, -, hp, -, hk, hfs⟩ := fragment_getElem? h
  refine ⟨c, primary, hc, hp, ?_⟩
  rcases hfs with ⟨hnil, rfl⟩ | ⟨hroomy, hfs, -⟩
  · rw [hnil]
    exact ⟨fun _ => .inr (zero_le _), fun _ => nofun⟩
  · have hone : k.start 1 = maxSize - (fragmentMinSizes primary.length b.blocks).1 := by
      rw [Cutting.start, zero_mul, add_zero, ← hk]
      rfl
    constructor
    · intro hblocks
      refine Decidable.or_iff_not_imp_right.mpr fun hle => fragmentBlocks_eq_replicatedBlocks.mp ?_
      -- there is a second fragment
      have hsecond := hfs 1
      rw [hone, if_pos (Nat.lt_of_not_le hle)] at hsecond
      obtain ⟨data, hdata⟩ := hblocks 1 _ hsecond
      rw [nth_blocks k hk hroomy, if_neg one_ne_zero, if_neg one_ne_zero] at hdata
      exact (List.append_inj' hdata rfl).1
    · intro hcond i f hf
      rw [hfs] at hf
      split at hf <;> [rename_i hlt; cases hf]
      obtain rfl := Option.some.inj hf
      have hfront : (if i = 0 then b.firstFragmentBlocks else b.fragmentBlocks) =
          if i = 0 then b.firstFragmentBlocks else b.replicatedBlocks := by
        split
        · rfl
        · rename_i hi
          rw [fragmentBlocks_eq_replicatedBlocks]
          refine hcond.elim id fun hfits => ?_
          -- a later fragment would begin behind the payload
          have hle : k.start 1 ≤ k.start i := Cutting.start_mono (one_le_iff_ne_zero.mpr hi)
          omega
      rw [nth_blocks k hk hroomy, hfront]
      exact ⟨_, rfl⟩

/-- `wholeBundle` without its hop count. -/
def plainBundle : Bundle := { wholeBundle with blocks := wholeBundle.blocks.drop 1 }

theorem fragment_replicates_plainBundle : ∃ fs minSizes c, plainBundle.fragment 380 = .ok (fs, minSizes) ∧
    plainBundle.blocks.find? (·.block.isPayload) = some c ∧
    ∀ i f, fs[i]? = some f → ∃ data, f.blocks =
      (if i = 0 then plainBundle.firstFragmentBlocks else plainBundle.replicatedBlocks) ++
        [{ c with block := .payload data }] := by
  have h : plainBundle.fragment 380 = .ok (plainBundle.fragments 380, (157, 157)) := by decide +kernel
  obtain ⟨c, primary, hc, -, hiff⟩ := fragment_replicates_iff h
  exact ⟨_, _, c, h, hc, hiff.mpr (.inl rfl)⟩

/-- An age that every fragment is to have, and a hop count that they are not to have. -/
def mixedBundle : Bundle := { wholeBundle with
  blocks := ⟨.bundleAge ⟨5⟩, 3, .mustReplicateToAllFragments, .noCRC⟩ :: wholeBundle.blocks }

/-- The second fragment has the hop count and not the age. -/
theorem fragment_replicates_mixedBundle : ∃ fs minSizes f, mixedBundle.fragment 380 = .ok (fs, minSizes) ∧
    fs[1]? = some f ∧ f.blocks.filter (!·.block.isPayload) = [⟨.hopCount ⟨30, 0⟩, 2, .empty, .noCRC⟩] ∧
    mixedBundle.replicatedBlocks = [⟨.bundleAge ⟨5⟩, 3, .mustReplicateToAllFragments, .noCRC⟩] := by
  have h : mixedBundle.fragment 380 = .ok (mixedBundle.fragments 380, (174, 164)) := by decide +kernel
  have hsecond : ((mixedBundle.fragments 380)[1]?).any (fun f => f.blocks.filter (!·.block.isPayload) =
      [⟨.hopCount ⟨30, 0⟩, 2, .empty, .noCRC⟩]) = true := by decide +kernel
  obtain ⟨f, hf, hblocks⟩ := (Option.any_eq_true _ _).mp hsecond
  exact ⟨_, _, f, h, hf, of_decide_eq_true hblocks, rfl⟩

/-! ## Payloads and offsets -/

/-- What `fragment` is for: two or more smaller bundles that have the payload between them, each at its offset. -/
structure Tiles (b : Bundle) (fs : List Bundle) (parts : List (List UInt8)) : Prop where
  payloads : List.Forall₂ (fun f part => (f.payloadData : Outcome FragmentationError (List UInt8)) = .ok part) fs parts
  all : (b.payloadData : Outcome FragmentationError (List UInt8)) = .ok parts.flatten
  nonempty : ∀ part ∈ parts, part ≠ []
  two : 2 ≤ fs.length
  shorter : ∀ f ∈ fs, ∃ bytes encoded, f.toVec = .ok bytes ∧ b.toVec = .ok encoded ∧ bytes.length < encoded.length
  first : ∀ f, fs[0]? = some f → f.offset = b.offset
  next : ∀ i f f' part, fs[i]? = some f → fs[i + 1]? = some f' → parts[i]? = some part →
    f'.offset.toNat = f.offset.toNat + part.length
  primaryBlock : ∀ f ∈ fs, f.primaryBlock = { b.primaryBlock with
    bundleProcessingFlags := b.primaryBlock.bundleProcessingFlags.union .fragment
    fragmentOffset := some f.offset
    totalDataLength := some (b.primaryBlock.totalDataLength.getD (UInt64.ofNat parts.flatten.length)) }

lemma nth_offset (k : Cutting) (hk : b.cutting c sizes maxSize = k) (i : Nat) :
    (k.nth i).offset = UInt64.ofNat (b.offset.toNat + k.start i) := by
  rw [offset, nth_primaryBlock k hk]
  rfl

/-- The payload of a fragment is as long as it was to be. -/
lemma nth_payload (k : Cutting) (hk : b.cutting c sizes maxSize = k)
    (h : ((k.nth i).payloadData : Outcome FragmentationError (List UInt8)) = .ok part) :
    part.length = k.payloadLengthForFragment (k.start i) := by
  have hpayload : ((k.nth i).payloadData : Outcome FragmentationError (List UInt8)) =
      .ok ((c.block.content.drop (k.start i)).take (k.payloadLengthForFragment (k.start i))) := by
    rw [← hk]
    exact piece_payloadData _ _
  cases hpayload.symm.trans h
  have hle : k.payloadLengthForFragment (k.start i) ≤ c.block.content.length - k.start i := by
    rw [← hk]
    exact min_le_left ..
  rw [List.length_take, List.length_drop, min_eq_left hle]

section

variable {k : Cutting} {sizes : Nat × Nat} {parts : List (List UInt8)}

lemma nth_of_getElem? (hfs : ∀ i, fs[i]? = if k.start i < c.block.content.length then some (k.nth i) else none)
    (hf : fs[i]? = some f) : k.start i < c.block.content.length ∧ f = k.nth i := by
  rw [hfs] at hf
  split at hf <;> [rename_i hi; cases hf]
  exact ⟨hi, (Option.some.inj hf).symm⟩

/-- A fragment behind which there is another one is as long as it can be. -/
lemma start_succ (hk : b.cutting c sizes maxSize = k) (hroomy : k.Roomy)
    (hi : k.start (i + 1) < c.block.content.length) :
    k.start i + k.payloadLengthForFragment (k.start i) = k.start (i + 1) := by
  rcases hroomy.start_add i with heq | ⟨-, hle⟩
  · exact heq
  · rw [← hk] at hle hi
    exact absurd hi (not_lt.mpr hle)

/-- Fragments that tile the payload are at the offsets that they would have without overflow. -/
lemma Tiles.offset_eq (ht : Tiles b fs parts) (hk : b.cutting c sizes maxSize = k) (hroomy : k.Roomy)
    (hfs : ∀ i, fs[i]? = if k.start i < c.block.content.length then some (k.nth i) else none) {i : Nat}
    (hi : k.start i < c.block.content.length) : (k.nth i).offset.toNat = b.offset.toNat + k.start i := by
  have hget {i} (hi : k.start i < c.block.content.length) : fs[i]? = some (k.nth i) := by rw [hfs, if_pos hi]
  induction i with
  | zero => rw [ht.first _ (hget hi)]; rfl
  | succ i ih =>
    have hi' : k.start i < c.block.content.length := lt_of_le_of_lt (Cutting.start_mono (le_succ i)) hi
    obtain ⟨part, hpart⟩ : ∃ part, parts[i]? = some part := by
      have hlt := (List.getElem?_eq_some_iff.mp (hget hi')).1
      rw [ht.payloads.length_eq] at hlt
      exact ⟨_, List.getElem?_eq_getElem hlt⟩
    have hdata := forall₂_getElem? ht.payloads (hget hi') hpart
    rw [ht.next i _ _ part (hget hi') (hget hi) hpart, ih hi', nth_payload k hk hdata,
      ← start_succ hk hroomy hi, add_assoc]

lemma nth_offset_toNat (hk : b.cutting c sizes maxSize = k)
    (hfit : ∀ i, k.start (i + 1) < c.block.content.length → b.offset.toNat + k.start (i + 1) < 2 ^ 64)
    (hi : k.start i < c.block.content.length) : (k.nth i).offset.toNat = b.offset.toNat + k.start i := by
  rw [nth_offset k hk, UInt64.toNat_ofNat']
  cases i with
  | zero => exact mod_eq_of_lt (UInt64.toNat_lt _)
  | succ i => exact mod_eq_of_lt (hfit i hi)

lemma part_ne_nil (hk : b.cutting c sizes maxSize = k) (hroomy : k.Roomy)
    (hfs : ∀ i, fs[i]? = if k.start i < c.block.content.length then some (k.nth i) else none)
    (hparts : List.Forall₂ (fun f part => (f.payloadData : Outcome FragmentationError (List UInt8)) = .ok part) fs
      parts) {part : List UInt8} (hpart : part ∈ parts) : part ≠ [] := by
  intro hnil
  obtain ⟨i, hi, rfl⟩ := List.mem_iff_getElem.mp hpart
  have hi' : i < fs.length := hparts.length_eq ▸ hi
  obtain ⟨hlt, hf⟩ := nth_of_getElem? hfs (List.getElem?_eq_getElem hi')
  have hdata := forall₂_getElem? hparts (List.getElem?_eq_getElem hi') (List.getElem?_eq_getElem hi)
  rw [hf] at hdata
  have hlen := nth_payload k hk hdata
  have hone : 1 ≤ k.payloadLengthForFragment (k.start i) := hroomy.one_le (by rw [← hk]; rw [← hk] at hlt; exact hlt)
  rw [hnil, List.length_nil] at hlen
  omega

end

/-- No fragment would begin behind the largest offset. -/
def StartsFit (b : Bundle) (maxSize : Nat) : Prop := ∀ primary c, b.primaryBlock.serialize = .ok primary →
  b.blocks.find? (·.block.isPayload) = some c → ∀ i,
    let o := (maxSize - (fragmentMinSizes primary.length b.blocks).1) +
      i * (maxSize - (fragmentMinSizes primary.length b.blocks).2)
    o < c.block.content.length → b.offset.toNat + o < 2 ^ 64

/-- Then the fragments are in the order of their offsets. -/
lemma StartsFit.sorted (hfit : b.StartsFit maxSize) (h : b.fragment maxSize = .ok (fs, minSizes)) :
    fs.Pairwise fun f g => f.offset ≤ g.offset := by
  obtain ⟨c, _, primary, k, hc, -, hp, -, hk, hfs⟩ := fragment_getElem? h
  rcases hfs with ⟨-, rfl⟩ | ⟨-, hfs, -⟩
  · exact .nil
  have hfit' (i : Nat) : k.start (i + 1) < c.block.content.length → b.offset.toNat + k.start (i + 1) < 2 ^ 64 := by
    rw [← hk]
    exact hfit primary c hp hc i
  refine List.pairwise_iff_getElem.mpr fun i j hi hj hij => ?_
  obtain ⟨hi', hf⟩ := nth_of_getElem? hfs (List.getElem?_eq_getElem hi)
  obtain ⟨hj', hg⟩ := nth_of_getElem? hfs (List.getElem?_eq_getElem hj)
  rw [UInt64.le_iff_toNat_le, hf, hg, nth_offset_toNat hk hfit' hi', nth_offset_toNat hk hfit' hj']
  exact Nat.add_le_add_left (Cutting.start_mono hij.le) _

/-- A bundle with one payload block is tiled by its fragments, if and only if no offset overflows. -/
theorem fragment_tiles_iff (hc : b.blocks.filter (·.block.isPayload) = [c])
    (h : b.fragment maxSize = .ok (fs, minSizes)) :
    ∃ primary, b.primaryBlock.serialize = .ok primary ∧
      ((∃ parts, Tiles b fs parts) ↔ ∀ i,
        let o := (maxSize - (fragmentMinSizes primary.length b.blocks).1) +
          i * (maxSize - (fragmentMinSizes primary.length b.blocks).2)
        o < c.block.content.length → b.offset.toNat + o < 2 ^ 64) := by
  obtain ⟨c', encoded, primary, k, hc', hv, hp, hlen, hk, hfs⟩ := fragment_getElem? h
  cases (find_of_filter hc).symm.trans hc'
  refine ⟨primary, hp, ?_⟩
  have hstart (i : Nat) : (maxSize - (fragmentMinSizes primary.length b.blocks).1) +
      i * (maxSize - (fragmentMinSizes primary.length b.blocks).2) = k.start (i + 1) := by rw [← hk]; rfl
  have hpos := payload_pos hc hv hp hlen
  have hsize : (fragmentMinSizes primary.length b.blocks).1 ≤ maxSize := by
    obtain ⟨-, primary', -, -, -, hp', hsize, -, -⟩ := fragment_eq_ok h
    cases hp.symm.trans hp'
    exact hsize
  have hpayload : (b.payloadData : Outcome FragmentationError (List UInt8)) = .ok c.block.content := by
    rw [payloadData, payloadCanonicalBlock, hc']
    rfl
  simp only [hstart]
  rcases hfs with ⟨hnil, -⟩ | ⟨hroomy, hfs, hsmall⟩
  · rw [hnil, List.length_nil] at hpos
    omega
  constructor
  · rintro ⟨parts, ht⟩ i hi
    rw [← ht.offset_eq hk hroomy hfs hi]
    exact UInt64.toNat_lt _
  · intro hfit
    obtain ⟨parts, hparts, hflatten⟩ := fragment_payloads h hpayload
    refine ⟨parts, hparts, hflatten ▸ hpayload, fun part => part_ne_nil hk hroomy hfs hparts, ?_, fun f hf => ?_,
      fun f hf => ?_, fun i f f' part hf hf' hpart => ?_, fun f hf => ?_⟩
    · have hlt : k.start (0 + 1) < c.block.content.length := by
        rw [← hstart]
        omega
      have hsecond := hfs (0 + 1)
      rw [if_pos hlt] at hsecond
      exact (List.getElem?_eq_some_iff.mp hsecond).1
    · obtain ⟨bytes, hbytes, hle⟩ := hsmall f hf
      exact ⟨bytes, encoded, hbytes, hv, lt_of_le_of_lt hle hlen⟩
    · obtain ⟨-, rfl⟩ := nth_of_getElem? hfs hf
      rw [nth_offset k hk]
      exact UInt64.ofNat_toNat
    · obtain ⟨hi, rfl⟩ := nth_of_getElem? hfs hf
      obtain ⟨hi', rfl⟩ := nth_of_getElem? hfs hf'
      have hdata := forall₂_getElem? hparts hf hpart
      rw [nth_offset_toNat hk hfit hi', nth_offset_toNat hk hfit hi, nth_payload k hk hdata,
        ← start_succ hk hroomy hi', add_assoc]
    · obtain ⟨i, hi, rfl⟩ := List.mem_iff_getElem.mp hf
      obtain ⟨-, hf⟩ := nth_of_getElem? hfs (List.getElem?_eq_getElem hi)
      rw [hf, nth_offset k hk, hflatten]
      exact nth_primaryBlock k hk i

theorem fragment_tiles_wholeBundle : ∃ fs minSizes parts, wholeBundle.fragment 380 = .ok (fs, minSizes) ∧
    Tiles wholeBundle fs parts := by
  have h : wholeBundle.fragment 380 = .ok (wholeBundle.fragments 380, (167, 157)) := by decide +kernel
  have hlen : (List.map UInt8.ofNat (List.range 400)).length = 400 := by rw [List.length_map, List.length_range]
  obtain ⟨primary, -, hiff⟩ := fragment_tiles_iff
    (c := ⟨.payload ⟨(List.range 400).map UInt8.ofNat⟩, 1, .empty, .noCRC⟩)
    rfl h
  obtain ⟨parts, ht⟩ := hiff.mpr fun i ho => by
    have hoffset : wholeBundle.offset.toNat = 0 := rfl
    rw [Block.content, hlen] at ho
    rw [hoffset]
    omega
  exact ⟨_, _, parts, h, ht⟩

/-- A fragment at the last offset there is. -/
def lastBundle : Bundle := { wholeBundle with
  primaryBlock := { wholeBundle.primaryBlock with
    bundleProcessingFlags := .fragment, fragmentOffset := some 0xffffffffffffffff,
    totalDataLength := some 0xffffffffffffffff } }

/-- The offset of the second fragment is a small number. -/
theorem fragment_tiles_lastBundle : ∃ fs minSizes f f' part, lastBundle.fragment 380 = .ok (fs, minSizes) ∧
    fs[0]? = some f ∧ fs[1]? = some f' ∧ (f.payloadData : Outcome FragmentationError (List UInt8)) = .ok part ∧
    f'.offset.toNat ≠ f.offset.toNat + part.length := by
  have h : lastBundle.fragment 380 = .ok (lastBundle.fragments 380, (185, 175)) := by decide +kernel
  have hfirst : ((lastBundle.fragments 380)[0]?).any (fun f => f.offset.toNat = 2 ^ 64 - 1) = true := by decide +kernel
  have hsecond : ((lastBundle.fragments 380)[1]?).any (fun f => f.offset.toNat < 2 ^ 64 - 1) = true := by decide +kernel
  obtain ⟨f, hf, hoffset⟩ := (Option.any_eq_true _ _).mp hfirst
  obtain ⟨f', hf', hoffset'⟩ := (Option.any_eq_true _ _).mp hsecond
  have hpayload : (lastBundle.payloadData : Outcome FragmentationError (List UInt8)) =
      .ok ((List.range 400).map UInt8.ofNat) := rfl
  obtain ⟨parts, hparts, -⟩ := fragment_payloads h hpayload
  have hlt := (List.getElem?_eq_some_iff.mp hf).1
  rw [hparts.length_eq] at hlt
  refine ⟨_, _, f, f', _, h, hf, hf', forall₂_getElem? hparts hf (List.getElem?_eq_getElem hlt), ?_⟩
  have hoffset := of_decide_eq_true hoffset
  have hoffset' := of_decide_eq_true hoffset'
  omega

/-! ## Sizes -/

/-- The bytes that a bundle with these blocks takes. -/
def size (p : PrimaryBlock) (blocks : List CanonicalBlock) : Nat :=
  (p.serialize.toOption.getD []).length + (serializeBlocks blocks).length + bundleSerializationOverhead

lemma toVec_size (hp : p.serialize = .ok w) (blocks : List CanonicalBlock) :
    ∃ bytes, (⟨p, blocks⟩ : Bundle).toVec = .ok bytes ∧ bytes.length = size p blocks := by
  have hv : (⟨p, blocks⟩ : Bundle).toVec = .ok ((initial 4 31 :: w) ++ (serializeBlocks blocks ++ [stop])) := by
    rw [toVec, serialize, hp]
    rfl
  refine ⟨_, hv, ?_⟩
  rw [length_toVec hv hp, size, hp]
  rfl

lemma length_head_elements (p : PrimaryBlock) : (head 4 p.elements).length = 1 := by
  unfold PrimaryBlock.elements
  repeat' split
  all_goals rfl

lemma one_le_length_head (major n : Nat) : 1 ≤ (head major n).length := by
  unfold head
  repeat' split
  all_goals exact succ_le_succ (zero_le _)

/-- The fields of a fragment make the primary block longer by 26 bytes at most. -/
lemma length_fragmentPrimaryBlock_le (hp : b.primaryBlock.serialize = .ok primary) (c : CanonicalBlock) (o : Nat) :
    ∃ w, (b.fragmentPrimaryBlock c o).serialize = .ok w ∧ w.length ≤ primary.length + 26 := by
  obtain ⟨fragment, -, hp⟩ := bind_eq_ok.mp hp
  obtain rfl := ok.inj hp
  refine ⟨_, rfl, ?_⟩
  have hflags := length_head_le 0 (b.primaryBlock.bundleProcessingFlags.union .fragment).bits.toNat
  have hflags' := one_le_length_head 0 b.primaryBlock.bundleProcessingFlags.bits.toNat
  have hoffset := length_head_le 0 (UInt64.ofNat (b.offset.toNat + o)).toNat
  have htotal := length_head_le 0
    (b.primaryBlock.totalDataLength.getD (UInt64.ofNat c.block.content.length)).toNat
  simp only [List.length_append, length_head_elements, PrimaryBlock.serializeFields, fragmentPrimaryBlock,
    BundleFlags.serialize, encU64]
  omega

/-- What `fragment` has to find for none of its assertions to fail: it gives up at once, or there is room in the first
fragment and, wherever a later one begins, the blocks that it gets leave room for its part of the payload. -/
def Fits (b : Bundle) (c : CanonicalBlock) (primary : List UInt8) (maxSize : Nat) : Prop :=
  let sizes := fragmentMinSizes primary.length b.blocks
  maxSize < sizes.1 ∨ sizes.1 < maxSize ∧ ∀ i,
    let o := (maxSize - sizes.1) + i * (maxSize - sizes.2)
    o < c.block.content.length → size (b.fragmentPrimaryBlock c o)
      (b.fragmentBlocks ++ [fragmentPayloadBlock c o (min (c.block.content.length - o) (maxSize - sizes.2))]) ≤ maxSize

lemma nth_size (k : Cutting) (hp : b.primaryBlock.serialize = .ok primary) (hk : b.cutting c sizes maxSize = k)
    (i : Nat) :
    ∃ bytes, (k.nth i).toVec = .ok bytes ∧ bytes.length = size (b.fragmentPrimaryBlock c (k.start i))
      (k.nth i).blocks := by
  obtain ⟨_, hw, -⟩ := length_fragmentPrimaryBlock_le hp c (k.start i)
  have hsize := toVec_size hw (k.nth i).blocks
  rw [← nth_primaryBlock k hk i] at hsize ⊢
  exact hsize

/-- The first fragment is never too large. -/
lemma nth_zero_fits (k : Cutting) (hp : b.primaryBlock.serialize = .ok primary)
    (hk : b.cutting c (fragmentMinSizes primary.length b.blocks) maxSize = k) (hroomy : k.Roomy) :
    ∃ bytes, (k.nth 0).toVec = .ok bytes ∧ bytes.length ≤ maxSize := by
  obtain ⟨bytes, hbytes, hlen⟩ := nth_size k hp hk 0
  refine ⟨bytes, hbytes, ?_⟩
  obtain ⟨_, hw, _⟩ := length_fragmentPrimaryBlock_le hp c (k.start 0)
  have hpayload := length_serialize_le_content (fragmentPayloadBlock c 0 (k.payloadLengthForFragment 0))
  have hpart : (fragmentPayloadBlock c 0 (k.payloadLengthForFragment 0)).block.content.length ≤
      maxSize - (fragmentMinSizes primary.length b.blocks).1 := by
    refine le_trans (List.length_take_le ..) ?_
    rw [← hk]
    exact min_le_right ..
  have hfirst : (fragmentMinSizes primary.length b.blocks).1 < maxSize := by
    have hfirst := hroomy.first
    rwa [← hk] at hfirst
  rw [nth_blocks k hk hroomy, if_pos rfl, size, hw, serializeBlocks, List.flatMap_append, List.length_append,
    List.flatMap_cons, List.flatMap_nil, List.append_nil] at hlen
  rw [fragmentMinSizes_eq] at hpart hfirst
  simp only [toOption, Option.getD_some, serializeBlocks, Cutting.start] at hlen hpart hfirst
  omega

/-- The fragment fields are there if and only if the flag says so. -/
structure Consistent (p : PrimaryBlock) : Prop where
  offset : p.fragmentOffset.isSome = p.bundleProcessingFlags.contains .fragment
  total : p.totalDataLength.isSome = p.bundleProcessingFlags.contains .fragment

/-- The call, once the bundle is known to be one that may be fragmented. -/
lemma fragment_eq (hc : b.blocks.filter (·.block.isPayload) = [c]) (hfields : Consistent b.primaryBlock)
    (hmay : b.primaryBlock.bundleProcessingFlags.contains .mustNotFragment = false) (hv : b.toVec = .ok encoded)
    (hp : b.primaryBlock.serialize = .ok primary) (hlen : maxSize < encoded.length) :
    b.fragment maxSize =
      let sizes := fragmentMinSizes primary.length b.blocks
      if sizes.1 > maxSize ∨ sizes.2 > maxSize then .err (.canNotFragmentThatSmall (UInt64.ofNat sizes.1))
      else do
        let fragments ← (b.cutting c sizes maxSize).loop 0
        return (fragments, UInt64.ofNat sizes.1, UInt64.ofNat sizes.2) := by
  have hvalid : (b.primaryBlock.bundleProcessingFlags.contains .fragment &&
      (b.primaryBlock.fragmentOffset.isNone || b.primaryBlock.totalDataLength.isNone)) = false := by
    rw [← Option.not_isSome, ← Option.not_isSome, hfields.offset, hfields.total, Bool.or_self, Bool.and_not_self]
  have hpayload : (b.payloadCanonicalBlock : Outcome FragmentationError CanonicalBlock) = .ok c := by
    rw [payloadCanonicalBlock, find_of_filter hc]
  rw [fragment, hv, mapErr_ok, ok_bind, if_neg (not_le.mpr hlen),
    if_neg (by rw [hmay]; exact Bool.false_ne_true), if_neg (by rw [hvalid]; exact Bool.false_ne_true), hp,
    mapErr_ok, ok_bind, hpayload]
  rfl

/-- The call returns, with an error or with fragments that are small enough, if and only if each fragment has room. -/
lemma fragment_returns_iff (hc : b.blocks.filter (·.block.isPayload) = [c]) (hfields : Consistent b.primaryBlock)
    (hmay : b.primaryBlock.bundleProcessingFlags.contains .mustNotFragment = false) (hv : b.toVec = .ok encoded)
    (hp : b.primaryBlock.serialize = .ok primary) (hlen : maxSize < encoded.length) :
    ((∃ n, b.fragment maxSize = .err (.canNotFragmentThatSmall n)) ∨
        ∃ fs minSizes, b.fragment maxSize = .ok (fs, minSizes) ∧
          ∀ f ∈ fs, ∃ bytes, f.toVec = .ok bytes ∧ bytes.length ≤ maxSize) ↔ b.Fits c primary maxSize := by
  have hpos := payload_pos hc hv hp hlen
  have hle := fragmentMinSizes_le primary.length b
  rw [Fits, fragment_eq hc hfields hmay hv hp hlen]
  by_cases hsmall : (fragmentMinSizes primary.length b.blocks).1 > maxSize
  · rw [if_pos (.inl hsmall)]
    exact ⟨fun _ => .inl hsmall, fun _ => .inl ⟨_, rfl⟩⟩
  rw [if_neg (by omega)]
  generalize hk : b.cutting c (fragmentMinSizes primary.length b.blocks) maxSize = k
  have hpayload : k.payload = c.block.content := by rw [← hk]; rfl
  have hmax : k.maxSize = maxSize := by rw [← hk]; rfl
  by_cases hequal : maxSize = (fragmentMinSizes primary.length b.blocks).1
  · -- no byte of the payload fits the first fragment
    have hpanic : k.loop 0 = .panic :=
      Cutting.loop_panic (by rw [hpayload]; omega) (by rw [hmax, ← hk]; exact hequal.le)
    rw [hpanic, panic_bind]
    constructor
    · rintro (⟨_, h⟩ | ⟨_, _, h, -⟩) <;> cases h
    · rintro (h | ⟨h, -⟩) <;> omega
  have hroomy : k.Roomy := by
    rw [← hk]
    exact roomy_cutting (by omega)
  have hstart (i : Nat) : (maxSize - (fragmentMinSizes primary.length b.blocks).1) +
      i * (maxSize - (fragmentMinSizes primary.length b.blocks).2) = k.start (i + 1) := by rw [← hk]; rfl
  have hpart (i : Nat) : k.payloadLengthForFragment (k.start (i + 1)) =
      min (c.block.content.length - k.start (i + 1)) (maxSize - (fragmentMinSizes primary.length b.blocks).2) := by
    rw [Cutting.payloadLengthForFragment, if_neg (ne_of_gt (hroomy.start_pos i)), ← hk]
    rfl
  -- the fragments are small enough if the later ones are
  have hlater : (∃ fs, k.loop 0 = .ok fs) ↔ ∀ i, k.start (i + 1) < c.block.content.length →
      size (b.fragmentPrimaryBlock c (k.start (i + 1))) (b.fragmentBlocks ++ [fragmentPayloadBlock c (k.start (i + 1))
        (min (c.block.content.length - k.start (i + 1))
          (maxSize - (fragmentMinSizes primary.length b.blocks).2))]) ≤ maxSize := by
    rw [hroomy.loop_eq_ok, hpayload, hmax]
    constructor
    · intro h i hi
      obtain ⟨bytes, hbytes, _⟩ := h (i + 1) hi
      obtain ⟨_, hbytes', hsize⟩ := nth_size k hp hk (i + 1)
      cases hbytes.symm.trans hbytes'
      rw [nth_blocks k hk hroomy, if_neg (succ_ne_zero i), hpart] at hsize
      omega
    · intro h i hi
      cases i with
      | zero => exact nth_zero_fits k hp hk hroomy
      | succ i =>
        obtain ⟨bytes, hbytes, hsize⟩ := nth_size k hp hk (i + 1)
        rw [nth_blocks k hk hroomy, if_neg (succ_ne_zero i), hpart] at hsize
        exact ⟨bytes, hbytes, hsize ▸ h i hi⟩
  simp only [hstart]
  rw [← hlater]
  constructor
  · rintro (⟨n, h⟩ | ⟨fs, minSizes, h, -⟩)
    · rcases bind_eq_err.mp h with h | ⟨fs, -, h⟩
      · exact absurd h (Cutting.loop_ne_canNotFragmentThatSmall 0 n)
      · cases h
    · obtain ⟨fs', hloop, -⟩ := bind_eq_ok.mp h
      exact .inr ⟨by omega, fs', hloop⟩
  · rintro (h | ⟨-, fs, hloop⟩)
    · omega
    · exact .inr ⟨fs, _, by rw [hloop]; rfl, fun f hf => hmax ▸ hroomy.fits_of_mem hloop hf⟩

/-- A bundle with one payload block that may be fragmented is, whatever its other blocks: the call ends with an error or
with fragments that are small enough, if and only if each fragment has room. -/
theorem fragment_fits_iff (hc : b.blocks.filter (·.block.isPayload) = [c]) (hfields : Consistent b.primaryBlock)
    (hmay : b.primaryBlock.bundleProcessingFlags.contains .mustNotFragment = false) (hv : b.toVec = .ok encoded)
    (hlen : maxSize < encoded.length) :
    ∃ primary, b.primaryBlock.serialize = .ok primary ∧
      (((∃ n, b.fragment maxSize = .err (.canNotFragmentThatSmall n)) ∨
          ∃ fs minSizes, b.fragment maxSize = .ok (fs, minSizes) ∧
            ∀ f ∈ fs, ∃ bytes, f.toVec = .ok bytes ∧ bytes.length ≤ maxSize) ↔
        b.Fits c primary maxSize) := by
  obtain ⟨primary, hp, -⟩ := bind_eq_ok.mp (mapErr_eq_ok.mp hv)
  exact ⟨primary, hp, fragment_returns_iff hc hfields hmay hv hp hlen⟩

theorem fragment_fits_wholeBundle : ∃ primary fs minSizes, wholeBundle.primaryBlock.serialize = .ok primary ∧
    wholeBundle.fragment 380 = .ok (fs, minSizes) ∧
    wholeBundle.Fits ⟨.payload ⟨(List.range 400).map UInt8.ofNat⟩, 1, .empty, .noCRC⟩ primary 380 := by
  have h : wholeBundle.fragment 380 = .ok (wholeBundle.fragments 380, (167, 157)) := by decide +kernel
  obtain ⟨c, encoded, -, k, -, hv, -, hlen, -, hfs⟩ := fragment_getElem? h
  obtain ⟨primary, hp, hiff⟩ := fragment_fits_iff
    (c := ⟨.payload ⟨(List.range 400).map UInt8.ofNat⟩, 1, .empty, .noCRC⟩)
    rfl ⟨rfl, rfl⟩ rfl hv hlen
  refine ⟨primary, _, _, hp, h, hiff.mp (.inr ⟨_, _, h, ?_⟩)⟩
  rcases hfs with ⟨-, hnil⟩ | ⟨-, -, hsmall⟩
  · rw [hnil]
    exact List.forall_mem_nil _
  · exact hsmall

/-- A large block that only the first fragment is to have. -/
def bulkyBundle : Bundle := { wholeBundle with
  blocks := ⟨.unkown ⟨192, List.replicate 200 0⟩, 3, .empty, .noCRC⟩ :: wholeBundle.blocks }

/-- There is no room in the first fragment, and in the second one not for the block that it should not have. -/
theorem fragment_asserts : wholeBundle.fragment 167 = .panic ∧ bulkyBundle.fragment 500 = .panic ∧
    (wholeBundle.toVec.toOption.any fun bytes => 167 < bytes.length) = true ∧
    (bulkyBundle.toVec.toOption.any fun bytes => 500 < bytes.length) = true := by
  decide +kernel

end Bundle

end Dtn.Bp7
