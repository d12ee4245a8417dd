import Dtn.Impl.Bp7.Bundle

/-!
# What a node changes in a bundle it forwards (`bp7/src/bundle.rs`)

`setPreviousNode` and `incHopCount` each change the first block of their kind,
or add one behind the others.
-/

namespace Dtn.Bp7

/-- The list with its first element changed that `f` gives something for, if there is one. -/
def changeFirst {α : Type} (f : α → Option α) : List α → Option (List α)
  | [] => none
  | a :: as =>
    match f a with
    | some a' => some (a' :: as)
    | none => (changeFirst f as).map (a :: ·)

namespace Bundle

def nextBlockNumber (b : Bundle) : UInt64 := (b.blocks.map (·.blockNumber)).max?.getD 0 + 1

/-- The bundle with a block more, which gets the next number. -/
def push (b : Bundle) (block : Block) : Bundle :=
  { b with blocks := b.blocks ++ [⟨block, b.nextBlockNumber, .empty, .noCRC⟩] }

def setPreviousNode (b : Bundle) (endpoint : Endpoint) : Bundle :=
  let change (c : CanonicalBlock) : Option CanonicalBlock :=
    match c.block with
    | .previousNode _ => some { c with block := .previousNode ⟨endpoint⟩ }
    | _ => none
  match changeFirst change b.blocks with
  | some blocks => { b with blocks }
  | none => b.push (.previousNode ⟨endpoint⟩)

/-- The first hop count. -/
def hopCount (b : Bundle) : Option HopCountBlock :=
  b.blocks.findSome? fun c => match c.block with
    | .hopCount h => some h
    | _ => none

/-- The bundle after one hop more, and whether it is within its limit. A count of 255 becomes 0. -/
def incHopCount (b : Bundle) (hopLimit : UInt8) : Bundle × Bool :=
  let change (c : CanonicalBlock) : Option CanonicalBlock :=
    match c.block with
    | .hopCount h => some { c with block := .hopCount { h with count := h.count + 1 } }
    | _ => none
  match changeFirst change b.blocks, b.hopCount with
  | some blocks, some h => ({ b with blocks }, h.count + 1 ≤ h.limit)
  | _, _ => (b.push (.hopCount ⟨hopLimit, 0⟩), true)

end Bundle

end Dtn.Bp7
