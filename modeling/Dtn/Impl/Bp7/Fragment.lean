import Dtn.Impl.Bp7.Bundle

/-!
# Fragmentation and reassembly (`bp7/src/bundle.rs`)

`Bundle.fragment` cuts the payload of a bundle into pieces whose bundles are
small enough, `Bundle.canReassembleBundles` sorts fragments and sweeps over
their ranges, and `Bundle.reassembleBundles` splices their payloads together.
Sums of `u64` and `usize` values wrap, as they do in a release build; a slice
that does not exist, a failed assertion and an `unwrap` of `None` panic.
-/

namespace Dtn.Bp7

inductive FragmentationError where
  | serializationError (e : SerializationError)
  | canNotFragmentThatSmall (size : UInt64)
  | mustNotFragment
  | bundleInvalid
  deriving DecidableEq

/-- `BUNDLE_SERIALIZATION_OVERHEAD`. -/
def bundleSerializationOverhead : Nat := 2

/-- `PAYLOAD_BLOCK_SERIALIZATION_OVERHEAD`. -/
def payloadBlockSerializationOverhead : Nat := 128

namespace Bundle

variable {ε : Type}

/-- The first payload block; a bundle without one is a panic. -/
def payloadCanonicalBlock (b : Bundle) : Outcome ε CanonicalBlock :=
  match b.blocks.find? (·.block.isPayload) with
  | some c => .ok c
  | none => .panic

/-- `payload_block().data`. -/
def payloadData (b : Bundle) : Outcome ε (List UInt8) := do
  let c ← b.payloadCanonicalBlock
  return c.block.content

/-! ## Fragmentation -/

/-- `first_fragment_min_size` and `fragment_min_size`: both start at the size
of the parts every fragment has, and the loop over the blocks adds theirs. -/
def fragmentMinSizes (primaryBlockSize : Nat) (blocks : List CanonicalBlock) : Nat × Nat :=
  let base := primaryBlockSize + payloadBlockSerializationOverhead + bundleSerializationOverhead
  blocks.foldl (fun sizes c =>
    if c.block.isPayload then sizes
    else
      let blockSize := c.serialize.length
      (sizes.1 + blockSize,
        if c.blockFlags.contains .mustReplicateToAllFragments then sizes.2 + blockSize else sizes.2))
    (base, base)

/-- The blocks of the first fragment, before its payload block. -/
def firstFragmentBlocks (b : Bundle) : List CanonicalBlock := b.blocks.filter fun c => !c.block.isPayload

/-- The blocks of every later fragment, before its payload block. -/
def fragmentBlocks (b : Bundle) : List CanonicalBlock :=
  b.blocks.filter fun c => !c.block.isPayload && !c.blockFlags.contains .mustReplicateToAllFragments

/-- What `fragment` has computed when its loop starts. -/
structure Cutting where
  newPrimaryBlock : PrimaryBlock
  payloadCanonicalBlock : CanonicalBlock
  payload : List UInt8
  globalPayloadOffset : UInt64
  firstFragmentBlocks : List CanonicalBlock
  fragmentBlocks : List CanonicalBlock
  firstFragmentMinSize : Nat
  fragmentMinSize : Nat
  maxSize : Nat

namespace Cutting

variable (k : Cutting)

/-- `payload_length_for_fragment`, at this offset into the payload. -/
def payloadLengthForFragment (offset : Nat) : Nat :=
  min (k.payload.length - offset)
    (k.maxSize - if offset = 0 then k.firstFragmentMinSize else k.fragmentMinSize)

/-- The fragment with `len` bytes of the payload from `offset` on. -/
def piece (offset len : Nat) : Bundle where
  primaryBlock :=
    { k.newPrimaryBlock with fragmentOffset := some (UInt64.ofNat (k.globalPayloadOffset.toNat + offset)) }
  blocks := (if offset = 0 then k.firstFragmentBlocks else k.fragmentBlocks) ++
    [{ k.payloadCanonicalBlock with block := .payload ⟨(k.payload.drop offset).take len⟩ }]

/-- The loop, from this offset on. -/
def loop (offset : Nat) : Outcome FragmentationError (List Bundle) :=
  if offset < k.payload.length then
    let len := k.payloadLengthForFragment offset
    if 1 ≤ len then do
      let encoded ← (k.piece offset len).toVec.mapErr .serializationError
      if encoded.length ≤ k.maxSize then do
        let fragments ← loop (offset + len)
        return k.piece offset len :: fragments
      else .panic
    else .panic
  else .ok []
  termination_by k.payload.length - offset

end Cutting

/-- The loop's inputs, from the bundle's payload block and the two minimal sizes. -/
def cutting (b : Bundle) (c : CanonicalBlock) (sizes : Nat × Nat) (maxSize : Nat) : Cutting where
  newPrimaryBlock :=
    { b.primaryBlock with
      bundleProcessingFlags := b.primaryBlock.bundleProcessingFlags.union .fragment
      fragmentOffset := some 0
      totalDataLength := some (b.primaryBlock.totalDataLength.getD (UInt64.ofNat c.block.content.length)) }
  payloadCanonicalBlock := c
  payload := c.block.content
  globalPayloadOffset := b.primaryBlock.fragmentOffset.getD 0
  firstFragmentBlocks := b.firstFragmentBlocks
  fragmentBlocks := b.fragmentBlocks
  firstFragmentMinSize := sizes.1
  fragmentMinSize := sizes.2
  maxSize := maxSize

def fragment (b : Bundle) (maxSize : Nat) : Outcome FragmentationError (List Bundle × UInt64 × UInt64) := do
  let encoded ← b.toVec.mapErr .serializationError
  if encoded.length ≤ maxSize then .panic
  else if b.primaryBlock.bundleProcessingFlags.contains .mustNotFragment then .err .mustNotFragment
  else if b.primaryBlock.bundleProcessingFlags.contains .fragment &&
      (b.primaryBlock.fragmentOffset.isNone || b.primaryBlock.totalDataLength.isNone) then .err .bundleInvalid
  else do
    let primary ← b.primaryBlock.serialize.mapErr fun e => .serializationError (.serializationError e)
    let sizes := fragmentMinSizes primary.length b.blocks
    if sizes.1 > maxSize ∨ sizes.2 > maxSize then .err (.canNotFragmentThatSmall (UInt64.ofNat sizes.1))
    else do
      let c ← b.payloadCanonicalBlock
      let fragments ← (b.cutting c sizes maxSize).loop 0
      return (fragments, UInt64.ofNat sizes.1, UInt64.ofNat sizes.2)

/-! ## Reassembly -/

/-- `fragment_offset.unwrap()`, where `None` was ruled out. -/
def offset (b : Bundle) : UInt64 := b.primaryBlock.fragmentOffset.getD 0

/-- One step of the `try_fold`: `none` is `ControlFlow::Break`. -/
def coverStep (acc offset len : UInt64) : Option UInt64 :=
  if offset < acc then some (max acc (offset + len))
  else if acc = offset then some (offset + len)
  else none

/-- The `try_fold` over the sorted bundles. -/
def coverLoop : UInt64 → List Bundle → Outcome ε (Option UInt64)
  | acc, [] => .ok (some acc)
  | acc, b :: bundles => do
    let data ← b.payloadData
    match coverStep acc b.offset (UInt64.ofNat data.length) with
    | some acc => coverLoop acc bundles
    | none => .ok none

/-- `bundles.sort_by`, a stable sort by fragment offset. -/
def sortByOffset (bundles : List Bundle) : List Bundle :=
  bundles.mergeSort fun a b => a.offset ≤ b.offset

/-- `can_reassemble_bundles`: the answer, and the vector it leaves behind.
The sort looks at the offset of every bundle, so one without an offset is a panic. -/
def canReassembleBundles (bundles : List Bundle) : Outcome ε (Bool × List Bundle) :=
  match bundles with
  | [] => .ok (false, [])
  | first :: _ =>
    if !first.primaryBlock.bundleProcessingFlags.contains .fragment then .panic
    else if !bundles.all fun b => first.primaryBlock.equalsIgnoringFragmentOffset b.primaryBlock then .panic
    else
      match first.primaryBlock.totalDataLength with
      | none => .panic
      | some totalDataLength =>
        if bundles.any (·.primaryBlock.fragmentOffset.isNone) then .panic
        else
          let sorted := sortByOffset bundles
          if (sorted.map offset).head? ≠ some 0 then .ok (false, sorted)
          else do
            let len ← coverLoop 0 sorted
            return (len = some totalDataLength, sorted)

/-- The splice loop: `data` is what has been put together so far. -/
def spliceLoop : List UInt8 → List Bundle → Outcome ε (List UInt8)
  | data, [] => .ok data
  | data, b :: bundles => do
    let payload ← b.payloadData
    if (b.offset.toNat + payload.length) % 2 ^ 64 < data.length then spliceLoop data bundles
    else
      let start := (2 ^ 64 + data.length - b.offset.toNat) % 2 ^ 64
      if payload.length < start then .panic
      else spliceLoop (data ++ payload.drop start) bundles

/-- Put `data` into every payload block. -/
def withPayload (data : List UInt8) (blocks : List CanonicalBlock) : List CanonicalBlock :=
  blocks.map fun c => if c.block.isPayload then { c with block := .payload ⟨data⟩ } else c

/-- `main_bundle` after its fragment fields are cleared. -/
def clearFragment (p : PrimaryBlock) : PrimaryBlock :=
  { p with
    bundleProcessingFlags := p.bundleProcessingFlags.remove .fragment
    fragmentOffset := none
    totalDataLength := none }

/-- `Vec::with_capacity`. -/
def withCapacity (capacity : Nat) : Outcome ε Unit := if isizeMax < capacity then .panic else .ok ()

/-- `reassemble_bundles`; the error hands the bundles back. -/
def reassembleBundles (bundles : List Bundle) : Outcome (List Bundle) (List UInt8) := do
  let (can, bundles) ← canReassembleBundles bundles
  if !can then .err bundles
  else
    match bundles with
    | [] => .panic
    | main :: rest =>
      match main.primaryBlock.totalDataLength with
      | none => .panic
      | some totalDataLength => do
        withCapacity totalDataLength.toNat
        let first ← main.payloadData
        let data ← spliceLoop first rest
        Outcome.unwrap
          { primaryBlock := clearFragment main.primaryBlock
            blocks := withPayload data main.blocks : Bundle }.toVec

end Bundle

end Dtn.Bp7
