import Dtn.Proof.Bp7.Forward

/-!
# Hop limits along a chain of nodes

`chain` is what the nodes of a chain make of a bundle: each decodes what it
gets, counts its hop and passes the encoding on, until one of them finds the
limit exceeded. Of the bundle only the count of the first hop count changes on
the way (`withHopCount`, `chain_cons`). The count stays within the limit as long
as neither of the two is 255 (`hops_bounded_iff`): a count of 255 becomes 0, and
no count is above a limit of 255, so such a bundle is passed on forever.
-/

namespace Dtn.Bp7

open Dtn.Cbor Bundle

lemma changeFirst_append {α : Type} {f : α → Option α} {a y : α} {l1 : List α} (hl1 : ∀ x ∈ l1, f x = none)
    (ha : f a = some y) (l2 : List α) : changeFirst f (l1 ++ a :: l2) = some (l1 ++ y :: l2) := by
  induction l1 with
  | nil => simp [changeFirst, ha]
  | cons => grind [changeFirst]

lemma HopCountBlock.length_content (h : HopCountBlock) : 3 ≤ h.content.length ∧ h.content.length ≤ 5 := by
  have hu8 : ∀ x : UInt8, 1 ≤ (encU64 x.toUInt64).length ∧ (encU64 x.toUInt64).length ≤ 2 := fun x => by
    have hx : x.toUInt64.toNat < 256 := by rw [UInt8.toNat_toUInt64]; exact x.toNat_lt
    unfold encU64 head
    split
    · simp
    · rw [if_pos (by simpa using hx)]
      simp [beBytes]
  have hlimit := hu8 h.limit
  have hcount := hu8 h.count
  simp only [content, List.length_append, show (head 4 2).length = 1 from rfl]
  omega

/-- The hop count after one hop more. -/
def HopCountBlock.succ (h : HopCountBlock) : HopCountBlock := { h with count := h.count + 1 }

lemma CanonicalBlock.length_serialize_hopCount (c : CanonicalBlock) (h h' : HopCountBlock) :
    ({ c with block := .hopCount h' } : CanonicalBlock).serialize.length ≤
      ({ c with block := .hopCount h } : CanonicalBlock).serialize.length + 2 := by
  have hbytes : ∀ x : HopCountBlock, (encBytes x.content).length = x.content.length + 1 := fun x => by
    have hx := x.length_content
    rw [encBytes, head, if_pos (by omega), List.length_append, List.length_singleton, Nat.add_comm]
  have hh := h.length_content
  have hh' := h'.length_content
  simp only [CanonicalBlock.serialize, Block.content, Block.blockType, List.length_append, hbytes]
  omega

namespace Bundle

/-- What each node of a chain makes of the bundle, with the answer of `inc_hop_count`.
A node is known by the limit that it gives to bundles without one. -/
def chain (S : Serde) : (nodes : List UInt8) → (bytes : List UInt8) → List (Bundle × Bool)
  | [], _ => []
  | hopLimit :: nodes, bytes =>
    match tryFrom S bytes with
    | .ok b =>
      let counted := b.incHopCount hopLimit
      counted :: match counted.2, counted.1.toVec with
        | true, .ok bytes' => chain S nodes bytes'
        | _, _ => []
    | _ => []

/-- No more nodes pass the bundle on than hops are left, and each has counted exactly one hop more. -/
structure Bounded (h : HopCountBlock) (passed : List (Bundle × Bool)) : Prop where
  accepted : (passed.filter (·.2)).length ≤ h.limit.toNat - h.count.toNat
  counts : (h.count :: passed.filterMap fun r => r.1.hopCount.map (·.count)).IsChain fun c c' => c'.toNat = c.toNat + 1

/-! ## The block that changes -/

/-- The bundle whose first hop count is `h`, in a block that is otherwise `c`. -/
def withHopCount (p : PrimaryBlock) (l1 : List CanonicalBlock) (c : CanonicalBlock) (l2 : List CanonicalBlock)
    (h : HopCountBlock) : Bundle := ⟨p, l1 ++ { c with block := .hopCount h } :: l2⟩

variable {S : Serde} {p : PrimaryBlock} {l1 l2 : List CanonicalBlock} {c : CanonicalBlock} {h h' : HopCountBlock}

lemma exists_withHopCount (hb : b.hopCount = some h) :
    ∃ l1 c l2, b = withHopCount b.primaryBlock l1 c l2 h ∧ ∀ d ∈ l1, ∀ y, d.block ≠ .hopCount y := by
  obtain ⟨xs, hx⟩ : ∃ xs, b.hopCounts = h :: xs := by
    rw [hopCount_eq] at hb
    exact List.head?_eq_some_iff.mp hb
  obtain ⟨l1, c, l2, hblocks, hc, hl1, -⟩ := incHopCount_first hx 0
  obtain ⟨_, bs⟩ := b
  obtain ⟨block, number, flags, crc⟩ := c
  obtain rfl : block = _ := hc
  obtain rfl : bs = _ := hblocks
  exact ⟨l1, ⟨.hopCount h, number, flags, crc⟩, l2, rfl, hl1⟩

section

variable (hl1 : ∀ d ∈ l1, ∀ y, d.block ≠ .hopCount y)

include hl1

lemma hopCount_withHopCount : (withHopCount p l1 c l2 h).hopCount = some h := by grind [hopCount, withHopCount]

lemma incHopCount_withHopCount (hopLimit : UInt8) : (withHopCount p l1 c l2 h).incHopCount hopLimit =
    (withHopCount p l1 c l2 h.succ, decide (h.count + 1 ≤ h.limit)) := by
  unfold incHopCount
  rw [hopCount_withHopCount hl1]
  dsimp only [withHopCount]
  rw [changeFirst_append (y := { c with block := .hopCount h.succ })]
  · grind
  · rfl

end

/-- Another hop count changes the length of the encoding by at most two. -/
lemma length_toVec_withHopCount {bytes bytes' : List UInt8} (hv : (withHopCount p l1 c l2 h).toVec = .ok bytes)
    (hv' : (withHopCount p l1 c l2 h').toVec = .ok bytes') : bytes'.length ≤ bytes.length + 2 := by
  obtain ⟨_, hw, rfl⟩ := toVec_eq_ok hv
  obtain ⟨_, hw', rfl⟩ := toVec_eq_ok hv'
  cases hw.symm.trans hw'
  have hblock := c.length_serialize_hopCount h h'
  simp only [withHopCount, serializeBlocks, List.flatMap_append, List.flatMap_cons, List.length_append,
    List.length_cons] at hblock ⊢
  omega

lemma withHopCount_adjusts (h h' : HopCountBlock) : (withHopCount p l1 c l2 h).Adjusts (withHopCount p l1 c l2 h') :=
  .change (c := { c with block := .hopCount h }) rfl rfl trivial

/-! ## Chains -/

lemma Bounded.nil (h : HopCountBlock) : Bounded h [] := ⟨Nat.zero_le _, .singleton _⟩

/-- A count below 255 can be raised, so the bound of the next node gives that of this one. -/
lemma Bounded.cons (hcount : h.count ≠ 255) (hb : b.hopCount = some h.succ)
    (hpassed : h.count + 1 ≤ h.limit → Bounded h.succ passed) :
    Bounded h ((b, decide (h.count + 1 ≤ h.limit)) :: if h.count + 1 ≤ h.limit then passed else []) := by
  have hsucc : h.succ.count.toNat = h.count.toNat + 1 := by
    have hlt := h.count.toNat_lt
    have hne : h.count.toNat ≠ 255 := fun he => hcount (UInt8.toNat_inj.mp he)
    rw [HopCountBlock.succ, UInt8.toNat_add, show (1 : UInt8).toNat = 1 from rfl, Nat.mod_eq_of_lt (by omega)]
  by_cases hle : h.count + 1 ≤ h.limit
  · have hnext := hpassed hle
    have hleft : h.count.toNat + 1 ≤ h.limit.toNat := hsucc ▸ UInt8.le_iff_toNat_le.mp hle
    rw [if_pos hle]
    constructor
    · have := hnext.accepted
      simp only [decide_eq_true hle, List.filter_cons_of_pos, List.length_cons]
      rw [hsucc, show h.succ.limit = h.limit from rfl] at this
      omega
    · grind [hnext.counts]
  · rw [if_neg hle]
    constructor
    · simp [hle]
    · grind

section

variable (hl1 : ∀ d ∈ l1, ∀ y, d.block ≠ .hopCount y)
  (hfits : ∀ h bytes, (withHopCount p l1 c l2 h).toVec = .ok bytes → FitsInMemory bytes) {bytes bytes' : List UInt8}

include hl1 in
lemma chain_cons (hb : tryFrom S bytes = .ok (withHopCount p l1 c l2 h))
    (hv : (withHopCount p l1 c l2 h.succ).toVec = .ok bytes') (hopLimit : UInt8) (nodes : List UInt8) :
    chain S (hopLimit :: nodes) bytes = (withHopCount p l1 c l2 h.succ, decide (h.count + 1 ≤ h.limit)) ::
      if h.count + 1 ≤ h.limit then chain S nodes bytes' else [] := by grind [incHopCount_withHopCount, chain]

include hfits

/-- The next node of a chain gets the bundle that was sent, or nothing comes of it. -/
lemma chain_next (hb : tryFrom S bytes = .ok (withHopCount p l1 c l2 h)) :
    ∃ bytes', (withHopCount p l1 c l2 h.succ).toVec = .ok bytes' ∧
      (tryFrom S bytes' = .ok (withHopCount p l1 c l2 h.succ) ∨ ∀ nodes, chain S nodes bytes' = []) := by
  have hshaped := (withHopCount_adjusts h h.succ).shaped (tryFrom_shaped hb)
  obtain ⟨bytes', hv⟩ := hshaped.toVec
  refine ⟨bytes', hv, ?_⟩
  cases hnext : tryFrom S bytes' with
  | ok => exact .inl (by rw [(hshaped.decoded hv (hfits _ _ hv) hnext).2])
  | err | panic => exact .inr fun nodes => by cases nodes <;> simp [chain, hnext]

include hl1

/-- Neither the count nor the limit at its largest value: the chain ends in time. -/
lemma chain_bounded (hb : tryFrom S bytes = .ok (withHopCount p l1 c l2 h)) (hcount : h.count ≠ 255)
    (hlimit : h.limit ≠ 255) (nodes : List UInt8) : Bounded h (chain S nodes bytes) := by
  induction nodes generalizing bytes h with
  | nil => exact .nil h
  | cons _ _ ih =>
    obtain ⟨_, hv, hnext⟩ := chain_next hfits hb
    rw [chain_cons hl1 hb hv]
    refine .cons hcount (hopCount_withHopCount hl1) fun hle => ?_
    rcases hnext with hnext | hnil
    · refine ih hnext (fun hmax => ?_) hlimit
      rw [show h.count + 1 = 255 from hmax] at hle
      exact hlimit (UInt8.le_antisymm (UInt8.le_iff_toNat_le.mpr (Nat.le_of_lt_succ h.limit.toNat_lt)) hle)
    · rw [hnil]
      exact .nil _

/-- With a checksum the chain ends at the second node, which cannot decode what it gets. -/
lemma chain_bounded_crc (hb : tryFrom S bytes = .ok (withHopCount p l1 c l2 h)) (hcount : h.count ≠ 255)
    (hcrc : ¬ (withHopCount p l1 c l2 h).NoCRC) (nodes : List UInt8) : Bounded h (chain S nodes bytes) := by
  cases nodes with
  | nil => exact .nil h
  | cons =>
    obtain ⟨_, hv, hnext⟩ := chain_next hfits hb
    rw [chain_cons hl1 hb hv]
    refine .cons hcount (hopCount_withHopCount hl1) fun _ => ?_
    rcases hnext with hnext | hnil
    · have hshaped := (withHopCount_adjusts h h.succ).shaped (tryFrom_shaped hb)
      exact absurd ((withHopCount_adjusts h.succ h).noCRC (hshaped.noCRC hv (hfits _ _ hv) hnext)) hcrc
    · rw [hnil]
      exact .nil _

/-- Nothing exceeds the limit of 255, so every node passes the bundle on. -/
lemma chain_endless (hb : tryFrom S bytes = .ok (withHopCount p l1 c l2 h)) (hlimit : h.limit = 255)
    (hcrc : (withHopCount p l1 c l2 h).NoCRC) (nodes : List UInt8) :
    ((chain S nodes bytes).filter (·.2)).length = nodes.length := by
  induction nodes generalizing bytes h with
  | nil => rfl
  | cons _ _ ih =>
    have hshaped := (withHopCount_adjusts h h.succ).shaped (tryFrom_shaped hb)
    have hcrc' := (withHopCount_adjusts h h.succ).noCRC hcrc
    have hle : h.count + 1 ≤ h.limit := by grind
    obtain ⟨_, hv⟩ := hshaped.toVec
    have hnext := (hshaped.regular hcrc').tryFrom_eq (S := S) hv (hfits _ _ hv)
    rw [chain_cons hl1 hb hv, if_pos hle, decide_eq_true hle, List.filter_cons_of_pos rfl, List.length_cons,
      ih hnext hlimit hcrc', List.length_cons]

end

/-- The hop limit bounds every chain unless the count is 255 already or the limit is 255. -/
theorem hops_bounded_iff {b : Bundle} {bytes encoded : List UInt8} (hb : tryFrom S bytes = .ok b)
    (hh : b.hopCount = some h) (hv : b.toVec = .ok encoded) (hroom : encoded.length + 2 ≤ isizeMax) :
    (∀ nodes, Bounded h (chain S nodes bytes)) ↔ h.count ≠ 255 ∧ (h.limit ≠ 255 ∨ ¬ b.NoCRC) := by
  obtain ⟨l1, c, l2, hwith, hl1⟩ := exists_withHopCount hh
  rw [hwith] at hb hv ⊢
  have hfits : ∀ h' bytes', (withHopCount b.primaryBlock l1 c l2 h').toVec = .ok bytes' → FitsInMemory bytes' :=
    fun h' bytes' hv' => (length_toVec_withHopCount hv hv').trans hroom
  constructor
  · intro hall
    refine ⟨fun hcount => ?_, ?_⟩
    · -- the count of the first node would have to be 256
      obtain ⟨bytes', hv', -⟩ := chain_next hfits hb
      have hcounts := (hall [0]).counts
      rw [chain_cons hl1 hb hv', List.filterMap_cons, hopCount_withHopCount hl1] at hcounts
      have hstep : (h.count + 1).toNat = h.count.toNat + 1 := (List.isChain_cons_cons.mp hcounts).1
      rw [hcount] at hstep
      exact absurd hstep (by decide)
    · by_contra! hmax
      have haccepted := (hall (List.replicate 256 0)).accepted
      rw [chain_endless hl1 hfits hb hmax.1 hmax.2, List.length_replicate] at haccepted
      have := h.limit.toNat_lt
      omega
  · grind [chain_bounded, chain_bounded_crc]

/-- A bundle with a hop count. -/
def limited (limit count : UInt8) : Bundle where
  primaryBlock := { checkedPrimaryBlock with crc := .noCRC }
  blocks := [⟨.hopCount ⟨limit, count⟩, 2, .empty, .noCRC⟩, ⟨.payload ⟨[7]⟩, 1, .empty, .noCRC⟩]

/-- One hop is left, but the count wraps around and three nodes pass the bundle on. -/
theorem hops_unbounded : ∃ bytes, (limited 255 254).toVec = .ok bytes ∧
    (chain .plain [20, 20, 20] bytes).map (fun r => (r.1.hopCount, r.2)) =
      [(some ⟨255, 255⟩, true), (some ⟨255, 0⟩, true), (some ⟨255, 1⟩, true)] :=
  ⟨_, rfl, by decide +kernel⟩

theorem hops_bounded_limited : ∃ bytes, (limited 3 1).toVec = .ok bytes ∧
    tryFrom .plain bytes = .ok (limited 3 1) ∧ ∀ nodes, Bounded ⟨3, 1⟩ (chain .plain nodes bytes) := by
  refine ⟨_, rfl, by decide +kernel, ?_⟩
  exact (hops_bounded_iff (b := limited 3 1) (h := ⟨3, 1⟩) (by decide +kernel) rfl rfl (by decide +kernel)).mpr
    ⟨by decide, .inl (by decide)⟩

end Bundle

end Dtn.Bp7
