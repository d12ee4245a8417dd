import Dtn.Impl.Bp7.Block

/-!
# Bundles (`bp7/src/bundle.rs`, serde code)

A bundle is a primary block and a list of canonical blocks, on the wire an
array of indefinite length. `Bundle.toVec` is `Vec::<u8>::try_from(&bundle)`
and `Bundle.tryFrom` is `Bundle::try_from(&[u8])`.
-/

namespace Dtn.Bp7

open Dtn.Cbor

structure Bundle where
  primaryBlock : PrimaryBlock
  blocks : List CanonicalBlock
  deriving DecidableEq

inductive SerializationError where
  | serializationError (e : Cbor.Error)
  | conversionError
  deriving DecidableEq

namespace Bundle

/-- The blocks after the primary one. -/
def serializeBlocks (blocks : List CanonicalBlock) : List UInt8 := blocks.flatMap CanonicalBlock.serialize

def serialize (b : Bundle) : Outcome Cbor.Error (List UInt8) := do
  let primary ← b.primaryBlock.serialize
  return (initial 4 31 :: primary) ++ (serializeBlocks b.blocks ++ [stop])

/-- `Vec::<u8>::try_from(&bundle)`. -/
def toVec (b : Bundle) : Outcome SerializationError (List UInt8) := b.serialize.mapErr .serializationError

/-- `Vec::with_capacity` panics if the capacity it is asked for exceeds `isize::MAX` bytes, and aborts the process if
the allocator does not grant it. -/
def capacityOverflow (S : Serde) (s : Seq) : Bool :=
  match s.sizeHint with
  | some v => min isizeMax S.maxAllocation < v * S.canonicalBlockSize
  | none => false

/-- `while let Some(block) = seq.next_element()?`. -/
def collectBlocks (S : Serde) (s : Seq) : Parser Error (List CanonicalBlock × Seq) := fun bs =>
  s.collect (CanonicalBlock.deserialize S) (bs.length + 1) bs

/-- `BundleVisitor::visit_seq`. -/
def visitSeq (S : Serde) (s : Seq) : Parser Error (Bundle × Seq) :=
  if capacityOverflow S s then .panic
  else do
    let (primaryBlock, s) ← s.field (PrimaryBlock.deserialize S) "Error for field 'primary_block'"
    let (blocks, s) ← collectBlocks S s
    if blocks.isEmpty then .fail (.invalidLength 0 "must have at least one block")
    else return ({ primaryBlock, blocks }, s)

def deserialize (S : Serde) : Decoder Bundle := seq (visitSeq S)

/-- `Bundle::try_from(&[u8])`. -/
def tryFrom (S : Serde) (bs : List UInt8) : Outcome SerializationError Bundle :=
  (fromSlice (deserialize S) bs).mapErr .serializationError

def validate (b : Bundle) : Bool := b.primaryBlock.validate && b.blocks.all (·.validate)

end Bundle

end Dtn.Bp7
