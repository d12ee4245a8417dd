import Mathlib.Data.List.Nodup
import Dtn.Impl.Bp7.Forward
import Dtn.Proof.Bp7.Pieces

/-!
# What forwarding leaves alone

`setPreviousNode` and `incHopCount` change one block that is no payload block,
or add one at the end (`Adjusts`). So the primary block and the payload stay, a
shaped bundle stays one (`Adjusts.shaped`), no checksum is added, and distinct
block numbers stay distinct (`Adjusts.numbered`). Which block changes, and how, is
said by `Edits` (`setPreviousNode_edits`, `incHopCount_edits`); of the hop counts
only the first one changes (`incHopCount_cons`).
-/

namespace Dtn.Bp7

open List

lemma changeFirst_eq_some {α : Type} {f : α → Option α} {as as' : List α} (h : changeFirst f as = some as') :
    ∃ l1 a a' l2, as = l1 ++ a :: l2 ∧ as' = l1 ++ a' :: l2 ∧ f a = some a' ∧ ∀ x ∈ l1, f x = none := by
  induction as generalizing as' with
  | nil => cases h
  | cons a as =>
    rw [changeFirst] at h
    split at h
    · rename_i a' ha
      cases h
      exact ⟨[], a, a', as, rfl, rfl, ha, by simp⟩
    · grind [Option.map_eq_some_iff]

lemma changeFirst_eq_none {α : Type} {f : α → Option α} {as : List α} (h : changeFirst f as = none) :
    ∀ x ∈ as, f x = none := by
  induction as with
  | nil => simp
  | cons => grind [Option.map_eq_none_iff, changeFirst]

namespace Bundle

variable {b : Bundle} {x : HopCountBlock} {xs : List HopCountBlock} {n : Nat}

/-- The second bundle is the first one with another body in a block that is no
payload block, or with such a block at its end. -/
inductive Adjusts : Bundle → Bundle → Prop
  | change {pb : PrimaryBlock} {l1 l2 : List CanonicalBlock} {c : CanonicalBlock} {block : Block}
    (hc : c.block.isPayload = false) (hblock : block.isPayload = false) (hproper : block.Proper) :
    Adjusts ⟨pb, l1 ++ c :: l2⟩ ⟨pb, l1 ++ { c with block } :: l2⟩
  | push {b : Bundle} {block : Block} (hblock : block.isPayload = false) (hproper : block.Proper) :
    Adjusts b (b.push block)

lemma setPreviousNode_adjusts (b : Bundle) (endpoint : Endpoint) : b.Adjusts (b.setPreviousNode endpoint) := by
  unfold setPreviousNode
  dsimp only
  split
  · rename_i blocks hblocks
    obtain ⟨_, _, _, _, hb, rfl, hc, -⟩ := changeFirst_eq_some hblocks
    obtain ⟨_, bs⟩ := b
    obtain rfl : bs = _ := hb
    split at hc <;> cases hc
    rename_i hprevious
    exact .change (by rw [hprevious]; rfl) rfl trivial
  · exact .push rfl trivial

lemma incHopCount_adjusts (b : Bundle) (hopLimit : UInt8) : b.Adjusts (b.incHopCount hopLimit).1 := by
  unfold incHopCount
  dsimp only
  split
  · rename_i blocks h hblocks _
    obtain ⟨_, _, _, _, hb, rfl, hc, -⟩ := changeFirst_eq_some hblocks
    obtain ⟨_, bs⟩ := b
    obtain rfl : bs = _ := hb
    split at hc <;> cases hc
    rename_i hcount
    exact .change (by rw [hcount]; rfl) rfl trivial
  · exact .push rfl trivial

namespace Adjusts

variable {b b' : Bundle}

lemma primaryBlock (h : b.Adjusts b') : b'.primaryBlock = b.primaryBlock := by cases h <;> rfl

lemma payloadData {ε : Type} (h : b.Adjusts b') : (b'.payloadData : Outcome ε (List UInt8)) = b.payloadData := by
  have hfind : b'.blocks.find? (·.block.isPayload) = b.blocks.find? (·.block.isPayload) := by
    cases h with
    | change hc hblock => simp [List.find?_append, hc, hblock]
    | push hblock => simp [Bundle.push, List.find?_append, hblock]
  rw [Bundle.payloadData, Bundle.payloadData, Bundle.payloadCanonicalBlock, Bundle.payloadCanonicalBlock, hfind]

lemma shaped (h : b.Adjusts b') (hb : b.Shaped) : b'.Shaped := by
  cases h with
  | @change _ l1 l2 c block =>
    have hflags : ∀ x ∈ l1 ++ c :: l2, x.blockFlags.Defined := hb.flags.2
    have hprop : ∀ x ∈ l1 ++ c :: l2, x.block.Proper := hb.proper
    simp only [forall_mem_append, forall_mem_cons] at hflags hprop
    refine ⟨by simp, hb.fragment, ⟨hb.flags.1, ?_⟩, ?_⟩ <;> grind
  | push =>
    refine ⟨by simp [Bundle.push], hb.fragment, ⟨hb.flags.1, ?_⟩, ?_⟩
    · simp only [Bundle.push, forall_mem_append, forall_mem_singleton]
      exact ⟨hb.flags.2, rfl⟩
    · grind [hb.proper, Bundle.push]

lemma noCRC (h : b.Adjusts b') (hb : b.NoCRC) : b'.NoCRC := by
  cases h with
  | @change _ l1 l2 c =>
    have hcrc : ∀ x ∈ l1 ++ c :: l2, x.crc = .noCRC := hb.2
    simp only [forall_mem_append, forall_mem_cons] at hcrc
    exact ⟨hb.1, by simpa only [forall_mem_append, forall_mem_cons] using hcrc⟩
  | push =>
    refine ⟨hb.1, ?_⟩
    simp only [Bundle.push, forall_mem_append, forall_mem_singleton]
    exact ⟨hb.2, trivial⟩

end Adjusts

/-! ## Hop counts -/

/-- All hop counts, in their order. -/
def hopCounts (b : Bundle) : List HopCountBlock := b.blocks.filterMap fun c => match c.block with
  | .hopCount h => some h
  | _ => none

lemma hopCount_eq (b : Bundle) : b.hopCount = b.hopCounts.head? := List.head?_filterMap.symm

lemma hopCounts_setPreviousNode (b : Bundle) (endpoint : Endpoint) :
    (b.setPreviousNode endpoint).hopCounts = b.hopCounts := by
  unfold setPreviousNode
  dsimp only
  split
  · rename_i blocks hblocks
    obtain ⟨_, _, _, _, hb, rfl, hc, -⟩ := changeFirst_eq_some hblocks
    split at hc <;> cases hc
    rename_i hprevious
    simp [hopCounts, hb, hprevious]
  · simp [hopCounts, push]

/-- Without a hop count, one is added that is within its limit. -/
lemma incHopCount_nil (h : b.hopCounts = []) (hopLimit : UInt8) :
    b.incHopCount hopLimit = (b.push (.hopCount ⟨hopLimit, 0⟩), true) := by grind [hopCount_eq, incHopCount]

/-- The first block with a hop count is the one whose count changes. -/
lemma incHopCount_first (h : b.hopCounts = x :: xs)
    (hopLimit : UInt8) : ∃ l1 c l2, b.blocks = l1 ++ c :: l2 ∧ c.block = .hopCount x ∧
      (∀ d ∈ l1, ∀ y, d.block ≠ .hopCount y) ∧ b.incHopCount hopLimit =
        ({ b with blocks := l1 ++ { c with block := .hopCount { x with count := x.count + 1 } } :: l2 },
          decide (x.count + 1 ≤ x.limit)) := by
  unfold incHopCount
  dsimp only
  split
  · rename_i blocks y hblocks hy
    obtain rfl : x = y := by
      rw [hopCount_eq, h] at hy
      exact Option.some.inj hy
    obtain ⟨l1, c, _, l2, hb, rfl, hc, hl1⟩ := changeFirst_eq_some hblocks
    have hbefore : ∀ d ∈ l1, ∀ y, d.block ≠ .hopCount y := fun d hd y hy => by
      have := hl1 d hd
      rw [hy] at this
      cases this
    split at hc <;> cases hc
    rename_i z hz
    -- the blocks before it have no hop count
    have hfirst : l1.filterMap (fun c => match c.block with
        | .hopCount h => some h
        | _ => none) = [] := by simp_all
    simp only [hopCounts, hb, filterMap_append, filterMap_cons, hfirst, hz, nil_append] at h
    cases h
    exact ⟨l1, c, l2, hb, hz, hbefore, rfl⟩
  · rename_i hnone
    exfalso
    cases hchange : changeFirst (fun c : CanonicalBlock => match c.block with
        | .hopCount h => some { c with block := .hopCount { h with count := h.count + 1 } }
        | _ => none) b.blocks with
    | some blocks => exact hnone blocks x hchange (by rw [hopCount_eq, h]; rfl)
    | none =>
      have hall := changeFirst_eq_none hchange
      have hmem : x ∈ b.hopCounts := by rw [h]; exact mem_cons_self
      obtain ⟨c, hc, hx⟩ := mem_filterMap.mp hmem
      split at hx
      · grind
      · cases hx

lemma incHopCount_cons (h : b.hopCounts = x :: xs)
    (hopLimit : UInt8) : (b.incHopCount hopLimit).1.hopCounts = { x with count := x.count + 1 } :: xs ∧
      (b.incHopCount hopLimit).2 = decide (x.count + 1 ≤ x.limit) := by
  obtain ⟨l1, c, _, hb, hc, _, heq⟩ := incHopCount_first h hopLimit
  rw [heq]
  refine ⟨?_, rfl⟩
  have hfirst : l1.filterMap (fun c => match c.block with
      | .hopCount h => some h
      | _ => none) = [] := by simp_all
  simp only [hopCounts, hb, filterMap_append, filterMap_cons, hfirst, hc, nil_append] at h ⊢
  cases h
  rfl

/-- Whether the limit is met does not depend on the previous node. -/
lemma incHopCount_setPreviousNode (b : Bundle) (endpoint : Endpoint) (hopLimit : UInt8) :
    ((b.setPreviousNode endpoint).incHopCount hopLimit).2 = (b.incHopCount hopLimit).2 := by
  cases h : b.hopCounts with
  | nil => rw [incHopCount_nil h, incHopCount_nil ((hopCounts_setPreviousNode ..).trans h)]
  | cons =>
    rw [(incHopCount_cons h hopLimit).2, (incHopCount_cons ((hopCounts_setPreviousNode ..).trans h) hopLimit).2]

/-! ## Edits -/

/-- The first block of a kind has its body replaced as `R` says, or there is none and one with the body `new` is
added. -/
inductive Edits (kind : Block → Bool) (R : Block → Block → Prop) (new : Block) :
    List CanonicalBlock → List CanonicalBlock → Prop
  | first {l1 l2 : List CanonicalBlock} {c : CanonicalBlock} {block : Block} (hbefore : ∀ x ∈ l1, kind x.block = false)
    (hc : kind c.block = true) (hR : R c.block block) : Edits kind R new (l1 ++ c :: l2) (l1 ++ { c with block } :: l2)
  | append {bs : List CanonicalBlock} {n : UInt64} (hnone : ∀ x ∈ bs, kind x.block = false) :
    Edits kind R new bs (bs ++ [⟨new, n, .empty, .noCRC⟩])

def isPreviousNode : Block → Bool
  | .previousNode _ => true
  | _ => false

def isHopCount : Block → Bool
  | .hopCount _ => true
  | _ => false

/-- The second body is the hop count of the first one with one hop more. -/
def Counted (x y : Block) : Prop :=
  ∃ h h' : HopCountBlock, x = .hopCount h ∧ y = .hopCount h' ∧ h'.limit = h.limit ∧ h'.count.toNat = h.count.toNat + 1

lemma setPreviousNode_edits (b : Bundle) (endpoint : Endpoint) :
    Edits isPreviousNode (fun _ y => y = .previousNode ⟨endpoint⟩) (.previousNode ⟨endpoint⟩) b.blocks
      (b.setPreviousNode endpoint).blocks := by
  have hkind : ∀ c : CanonicalBlock, (match c.block with
      | .previousNode _ => some { c with block := .previousNode ⟨endpoint⟩ }
      | _ => none) = none → isPreviousNode c.block = false := fun c h => by
    cases hc : c.block <;> rw [hc] at h <;> [rfl; cases h; rfl; rfl; rfl]
  unfold setPreviousNode
  dsimp only
  split
  · rename_i blocks hblocks
    obtain ⟨_, _, _, _, hb, rfl, hc, hl1⟩ := changeFirst_eq_some hblocks
    split at hc <;> cases hc
    rename_i hprevious
    rw [hb]
    exact .first (fun x hx => hkind x (hl1 x hx)) (by rw [hprevious]; rfl) rfl
  · rename_i hnone
    exact .append fun x hx => hkind x (changeFirst_eq_none hnone x hx)

lemma incHopCount_edits (hopLimit : UInt8) (hcounts : ∀ h ∈ b.hopCounts, h.count < 255) :
    Edits isHopCount Counted (.hopCount ⟨hopLimit, 0⟩) b.blocks (b.incHopCount hopLimit).1.blocks := by
  have hkind : ∀ c : CanonicalBlock, (∀ y, c.block ≠ .hopCount y) → isHopCount c.block = false := fun c h => by
    cases hc : c.block <;> [rfl; rfl; rfl; exact absurd hc (h _); rfl]
  cases hx : b.hopCounts with
  | nil =>
    rw [incHopCount_nil hx]
    refine .append fun c hc => hkind c fun y hy => ?_
    have := filterMap_eq_nil_iff.mp hx c hc
    rw [hy] at this
    cases this
  | cons x =>
    obtain ⟨_, c, _, hb, hc, hl1, heq⟩ := incHopCount_first hx hopLimit
    have hlt : x.count.toNat < 255 := hcounts x (by rw [hx]; exact mem_cons_self)
    have hcounted : Counted c.block (.hopCount { x with count := x.count + 1 }) := by
      refine ⟨x, _, hc, rfl, rfl, ?_⟩
      rw [UInt8.toNat_add, show (1 : UInt8).toNat = 1 from rfl, Nat.mod_eq_of_lt (by omega)]
    rw [heq, hb]
    exact .first (fun d hd => hkind d (hl1 d hd)) (by rw [hc]; rfl) hcounted

/-! ## Block numbers -/

/-- The block numbers are distinct and at most `n`. -/
structure Numbered (n : Nat) (bs : List CanonicalBlock) : Prop where
  distinct : (bs.map (·.blockNumber)).Nodup
  bound : ∀ c ∈ bs, c.blockNumber.toNat ≤ n

lemma Numbered.mono (h : Numbered n bs) (hnm : n ≤ m) : Numbered m bs :=
  ⟨h.distinct, fun c hc => (h.bound c hc).trans hnm⟩

instance : Std.LawfulOrderLeftLeaningMax UInt64 where
  max_eq_left a b h := by
    change (if a ≤ b then b else a) = a
    split <;> [exact UInt64.le_antisymm h ‹_›; rfl]
  max_eq_right a b h := by
    change (if a ≤ b then b else a) = b
    exact if_pos (UInt64.le_of_lt (UInt64.not_le.mp h))

lemma nextBlockNumber_toNat (h : ∀ c ∈ b.blocks, c.blockNumber.toNat ≤ n) (hn : n + 1 < 2 ^ 64) :
    b.nextBlockNumber.toNat ≤ n + 1 ∧ ∀ c ∈ b.blocks, c.blockNumber.toNat < b.nextBlockNumber.toNat := by
  unfold nextBlockNumber
  cases hmax : (b.blocks.map (·.blockNumber)).max? with
  | none => simp_all
  | some =>
    obtain ⟨hmem, hle⟩ := List.max?_eq_some_iff.mp hmax
    obtain ⟨c, hc, rfl⟩ := mem_map.mp hmem
    have hadd : (c.blockNumber + 1).toNat = c.blockNumber.toNat + 1 := by grind [UInt64.toNat_add]
    rw [Option.getD_some, hadd]
    refine ⟨Nat.succ_le_succ (h c hc), fun d hd => Nat.lt_succ_of_le ?_⟩
    exact UInt64.le_iff_toNat_le.mp (hle _ (mem_map_of_mem hd))

lemma Numbered.push (h : Numbered n b.blocks) (hn : n + 1 < 2 ^ 64) (block : Block) :
    Numbered (n + 1) (b.push block).blocks := by
  obtain ⟨_, hlt⟩ := nextBlockNumber_toNat h.bound hn
  constructor
  · simp only [Bundle.push, map_append, map_cons, map_nil]
    refine nodup_append.mpr ⟨h.distinct, nodup_singleton _, fun x hx y hy e => ?_⟩
    obtain ⟨c, hc, rfl⟩ := mem_map.mp hx
    obtain rfl := mem_singleton.mp hy
    have := hlt c hc
    rw [e] at this
    exact Nat.lt_irrefl _ this
  · grind [Bundle.push]

lemma Adjusts.numbered (h : b.Adjusts b') (hb : Numbered n b.blocks) (hn : n + 1 < 2 ^ 64) :
    Numbered (n + 1) b'.blocks := by
  cases h with
  | change =>
    refine ⟨by simpa using hb.distinct, ?_⟩
    have hbound := (hb.mono (Nat.le_succ n)).bound
    simp only [forall_mem_append, forall_mem_cons] at hbound ⊢
    exact hbound
  | push => exact hb.push hn _

end Bundle

end Dtn.Bp7
