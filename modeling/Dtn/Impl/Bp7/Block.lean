import Dtn.Impl.Bp7.Endpoint

/-!
# The blocks of a bundle (`bp7/src/{bundleflags,blockflags,crc,time,primaryblock}.rs`, `bp7/src/block/`)

The data model of the primary and the canonical blocks, with the encoders
(`serialize`) and the serde visitors (`visitSeq`) of each.
-/

namespace Dtn.Bp7

open Dtn.Cbor

/-! ## Flags -/

/-- A `bitflags` value. -/
structure BundleFlags where
  bits : UInt64
  deriving DecidableEq

namespace BundleFlags

def fragment : BundleFlags := ⟨0x00000001⟩
def administrativeRecord : BundleFlags := ⟨0x00000002⟩
def mustNotFragment : BundleFlags := ⟨0x00000004⟩
def bundleReceiptionStatusRequested : BundleFlags := ⟨0x00004000⟩
def bundleForwardingStatusRequest : BundleFlags := ⟨0x00010000⟩
def bundleDeliveryStatusRequested : BundleFlags := ⟨0x00020000⟩
def bundleDeletionStatusRequested : BundleFlags := ⟨0x00040000⟩

/-- Every defined bit, of those too that nothing looks at. -/
def all : UInt64 := 0x00074067

def contains (f g : BundleFlags) : Bool := f.bits &&& g.bits == g.bits
def union (f g : BundleFlags) : BundleFlags := ⟨f.bits ||| g.bits⟩
def remove (f g : BundleFlags) : BundleFlags := ⟨f.bits &&& ~~~g.bits⟩
def fromBitsTruncate (bits : UInt64) : BundleFlags := ⟨bits &&& all⟩

def serialize (f : BundleFlags) : List UInt8 := encU64 f.bits
def deserialize : Decoder BundleFlags := fun d => do return fromBitsTruncate (← u64 d)

end BundleFlags

structure BlockFlags where
  bits : UInt64
  deriving DecidableEq

namespace BlockFlags

def mustReplicateToAllFragments : BlockFlags := ⟨0x01⟩

/-- Every defined bit. -/
def all : UInt64 := 0x17

def empty : BlockFlags := ⟨0⟩
def contains (f g : BlockFlags) : Bool := f.bits &&& g.bits == g.bits
def fromBitsTruncate (bits : UInt64) : BlockFlags := ⟨bits &&& all⟩

def serialize (f : BlockFlags) : List UInt8 := encU64 f.bits
def deserialize : Decoder BlockFlags := fun d => do return fromBitsTruncate (← u64 d)

end BlockFlags

/-! ## Checksums -/

inductive CRCType where
  | noCRC
  | crc16 (b₀ b₁ : UInt8)
  | crc32 (b₀ b₁ b₂ b₃ : UInt8)
  deriving DecidableEq

namespace CRCType

/-- The type number; the value is written as an element of its own. -/
def serialize : CRCType → List UInt8
  | noCRC => encU64 0
  | crc16 .. => encU64 1
  | crc32 .. => encU64 2

/-- The value: a Rust array of bytes is an array of numbers. -/
def serializeValue : CRCType → List UInt8
  | noCRC => []
  | crc16 b₀ b₁ => head 4 2 ++ encU64 b₀.toUInt64 ++ encU64 b₁.toUInt64
  | crc32 b₀ b₁ b₂ b₃ =>
    head 4 4 ++ encU64 b₀.toUInt64 ++ encU64 b₁.toUInt64 ++ encU64 b₂.toUInt64 ++ encU64 b₃.toUInt64

def deserialize : Decoder CRCType := fun d => do
  let v ← u64 d
  if v = 0 then pure noCRC
  else if v = 1 then pure (crc16 0 0)
  else if v = 2 then pure (crc32 0 0 0 0)
  else .fail (.invalidValue v.toNat "crc type must be bbetween 0 to 2")

/-- `deserialize_value`: called on the type read before, it panics if that is `NoCRC`. -/
def deserializeValue : CRCType → Seq → Parser Error (CRCType × Seq)
  | noCRC, _ => .panic
  | crc16 .., s => do
    let (val, s) ← s.field bytes "Error for crc content"
    match val with
    | [b₀, b₁] => pure (crc16 b₀ b₁, s)
    | _ => .fail (.invalidLength val.length "Expected 2 bytes for crc16")
  | crc32 .., s => do
    let (val, s) ← s.field bytes "Error for crc content"
    match val with
    | [b₀, b₁, b₂, b₃] => pure (crc32 b₀ b₁ b₂ b₃, s)
    | _ => .fail (.invalidLength val.length "Expected 4 bytes for crc32")

end CRCType

/-! ## Time -/

structure DtnTime where
  timestamp : UInt64
  deriving DecidableEq

structure CreationTimestamp where
  creationTime : DtnTime
  sequenceNumber : UInt64
  deriving DecidableEq

def DtnTime.serialize (t : DtnTime) : List UInt8 := encU64 t.timestamp
def DtnTime.deserialize : Decoder DtnTime := fun d => do return ⟨← u64 d⟩

namespace CreationTimestamp

def serialize (t : CreationTimestamp) : List UInt8 :=
  head 4 2 ++ (t.creationTime.serialize ++ encU64 t.sequenceNumber)

def visitSeq (s : Seq) : Parser Error (CreationTimestamp × Seq) := do
  let (creationTime, s) ← s.field DtnTime.deserialize "Error for field 'creation_time'"
  let (sequenceNumber, s) ← s.field u64 "Error for field 'sequence_number'"
  return (⟨creationTime, sequenceNumber⟩, s)

def deserialize : Decoder CreationTimestamp := seq visitSeq

end CreationTimestamp

/-! ## The primary block -/

structure PrimaryBlock where
  version : UInt64
  bundleProcessingFlags : BundleFlags
  crc : CRCType
  destinationEndpoint : Endpoint
  sourceNode : Endpoint
  reportTo : Endpoint
  creationTimestamp : CreationTimestamp
  lifetime : UInt64
  fragmentOffset : Option UInt64
  totalDataLength : Option UInt64
  deriving DecidableEq

namespace PrimaryBlock

/-- The number of elements `serialize` declares. -/
def elements (p : PrimaryBlock) : Nat :=
  if p.crc = .noCRC ∧ p.fragmentOffset = none then 8
  else if p.crc ≠ .noCRC ∧ p.fragmentOffset = none then 9
  else if p.crc = .noCRC then 10
  else 11

/-- The elements every primary block has. -/
def serializeFields (p : PrimaryBlock) : List UInt8 :=
  encU64 p.version ++ (p.bundleProcessingFlags.serialize ++ (p.crc.serialize ++
    (p.destinationEndpoint.serialize ++ (p.sourceNode.serialize ++ (p.reportTo.serialize ++
      (p.creationTimestamp.serialize ++ encU64 p.lifetime))))))

/-- The two elements of a fragment. A fragment offset without a total length is
the panic of `total_data_length.unwrap()`. -/
def serializeFragment (p : PrimaryBlock) : Outcome Error (List UInt8) :=
  match p.fragmentOffset with
  | none => .ok []
  | some o =>
    match p.totalDataLength with
    | none => .panic
    | some t => .ok (encU64 o ++ encU64 t)

def serialize (p : PrimaryBlock) : Outcome Error (List UInt8) := do
  let fragment ← p.serializeFragment
  return head 4 p.elements ++ (p.serializeFields ++ (fragment ++ p.crc.serializeValue))

/-- The offset and the total length, which a block of 10 or 11 elements has. -/
def fragmentFields (size : Nat) (s : Seq) : Parser Error ((Option UInt64 × Option UInt64) × Seq) :=
  if size = 10 ∨ size = 11 then do
    let (fragmentOffset, s) ← s.field u64 "Error for field 'fragment_offset'"
    let (totalDataLength, s) ← s.field u64 "Error for field 'total_data_length'"
    return ((some fragmentOffset, some totalDataLength), s)
  else pure ((none, none), s)

/-- The checksum, which a block of 9 or 11 elements has. -/
def crcValue (size : Nat) (crc : CRCType) (s : Seq) : Parser Error (CRCType × Seq) :=
  if size = 9 ∨ size = 11 then crc.deserializeValue s else pure (crc, s)

/-- `PrimaryBlockVisitor::visit_seq`; without a size hint, `unwrap` panics. -/
def visitSeq (S : Serde) (s : Seq) : Parser Error (PrimaryBlock × Seq) :=
  match s.sizeHint with
  | none => .panic
  | some size =>
    if 8 ≤ size ∧ size ≤ 11 then do
      let (version, s) ← s.field u64 "Error for field 'version'"
      let (bundleProcessingFlags, s) ← s.field BundleFlags.deserialize "Error for field 'bundle_processing_flags'"
      let (crc, s) ← s.field CRCType.deserialize "Error for field 'crc_type'"
      let (destinationEndpoint, s) ← s.field (Endpoint.deserialize S) "Error for field 'destination_endpoint'"
      let (sourceNode, s) ← s.field (Endpoint.deserialize S) "Error for field 'source_node'"
      let (reportTo, s) ← s.field (Endpoint.deserialize S) "Error for field 'report_to'"
      let (creationTimestamp, s) ← s.field CreationTimestamp.deserialize "Error for field 'creation_timestamp'"
      let (lifetime, s) ← s.field u64 "Error for field 'lifetime'"
      let ((fragmentOffset, totalDataLength), s) ← fragmentFields size s
      let (crc, s) ← crcValue size crc s
      return ({ version, bundleProcessingFlags, crc, destinationEndpoint, sourceNode, reportTo,
                creationTimestamp, lifetime, fragmentOffset, totalDataLength }, s)
    else .fail (.invalidLength size "Primary block has 8 to 11 elements")

def deserialize (S : Serde) : Decoder PrimaryBlock := seq (visitSeq S)

def equalsIgnoringFragmentOffset (p q : PrimaryBlock) : Bool :=
  { p with fragmentOffset := none } == { q with fragmentOffset := none }

def equalsIgnoringFragmentInfo (p q : PrimaryBlock) : Bool :=
  { p with fragmentOffset := none, totalDataLength := none } ==
    { q with fragmentOffset := none, totalDataLength := none }

/-- Not looked at is whether the flags say that this is a fragment. -/
def validate (p : PrimaryBlock) : Bool :=
  p.version == 7 && p.fragmentOffset.isSome == p.totalDataLength.isSome && p.sourceNode.validate &&
    p.destinationEndpoint.validate && p.reportTo.validate

end PrimaryBlock

/-! ## Canonical blocks -/

inductive BlockType where
  | payload
  | previousNode
  | bundleAge
  | hopCount
  deriving DecidableEq

def BlockType.toU64 : BlockType → UInt64
  | payload => 1
  | previousNode => 6
  | bundleAge => 7
  | hopCount => 10

/-- `BlockType::try_from`. -/
def BlockType.tryFrom (n : UInt64) : Option BlockType :=
  if n = 1 then some payload
  else if n = 6 then some previousNode
  else if n = 7 then some bundleAge
  else if n = 10 then some hopCount
  else none

structure PayloadBlock where
  data : List UInt8
  deriving DecidableEq

structure PreviousNodeBlock where
  previousNode : Endpoint
  deriving DecidableEq

structure BundleAgeBlock where
  age : UInt64
  deriving DecidableEq

structure HopCountBlock where
  limit : UInt8
  count : UInt8
  deriving DecidableEq

structure UnkownBlock where
  blockType : UInt64
  data : List UInt8
  deriving DecidableEq

/-- The bodies that are CBOR items themselves are written as a byte string that holds the item. -/
def PreviousNodeBlock.content (b : PreviousNodeBlock) : List UInt8 := b.previousNode.serialize
def BundleAgeBlock.content (b : BundleAgeBlock) : List UInt8 := encU64 b.age
def HopCountBlock.content (b : HopCountBlock) : List UInt8 :=
  head 4 2 ++ (encU64 b.limit.toUInt64 ++ encU64 b.count.toUInt64)

def PreviousNodeBlock.deserialize (S : Serde) : Decoder PreviousNodeBlock := fun d => do
  return ⟨← Endpoint.deserialize S d⟩

def BundleAgeBlock.deserialize : Decoder BundleAgeBlock := fun d => do return ⟨← u64 d⟩

/-- `HopCountBlockVisitor::visit_seq`. -/
def HopCountBlock.visitSeq (s : Seq) : Parser Error (HopCountBlock × Seq) :=
  match s.sizeHint with
  | none => .fail (.custom "Hop Count Block must know the length of its contents")
  | some size =>
    if size = 2 then do
      let (limit, s) ← s.field u8 "Error for field 'limit'"
      let (count, s) ← s.field u8 "Error for field 'count'"
      return (⟨limit, count⟩, s)
    else .fail (.invalidLength size "Hop Count Block has 2 elements")

def HopCountBlock.deserialize : Decoder HopCountBlock := seq HopCountBlock.visitSeq

inductive Block where
  | payload (b : PayloadBlock)
  | previousNode (b : PreviousNodeBlock)
  | bundleAge (b : BundleAgeBlock)
  | hopCount (b : HopCountBlock)
  | unkown (b : UnkownBlock)
  deriving DecidableEq

namespace Block

def blockType : Block → UInt64
  | payload _ => BlockType.payload.toU64
  | previousNode _ => BlockType.previousNode.toU64
  | bundleAge _ => BlockType.bundleAge.toU64
  | hopCount _ => BlockType.hopCount.toU64
  | unkown b => b.blockType

/-- The bytes of the block's byte string. -/
def content : Block → List UInt8
  | payload b => b.data
  | previousNode b => b.content
  | bundleAge b => b.content
  | hopCount b => b.content
  | unkown b => b.data

/-- `matches!(b, Block::Payload(_))`. -/
def isPayload : Block → Bool
  | payload _ => true
  | _ => false

/-- The block with this type number and these bytes. A nested decoder that
fails makes its error a custom one, whose text is left out. -/
def ofContent (S : Serde) (blockType : UInt64) (data : List UInt8) : Outcome Error Block :=
  match BlockType.tryFrom blockType with
  | some .payload => .ok (.payload ⟨data⟩)
  | some .previousNode => do
    let b ← (fromSlice (PreviousNodeBlock.deserialize S) data).mapErr fun _ => .custom ""
    return .previousNode b
  | some .bundleAge => do
    let b ← (fromSlice BundleAgeBlock.deserialize data).mapErr fun _ => .custom ""
    return .bundleAge b
  | some .hopCount => do
    let b ← (fromSlice HopCountBlock.deserialize data).mapErr fun _ => .custom ""
    return .hopCount b
  | none => .ok (.unkown ⟨blockType, data⟩)

end Block

structure CanonicalBlock where
  block : Block
  blockNumber : UInt64
  blockFlags : BlockFlags
  crc : CRCType
  deriving DecidableEq

namespace CanonicalBlock

def serialize (b : CanonicalBlock) : List UInt8 :=
  head 4 (if b.crc = .noCRC then 5 else 6) ++ (encU64 b.block.blockType ++ (encU64 b.blockNumber ++
    (b.blockFlags.serialize ++ (b.crc.serialize ++ (encBytes b.block.content ++ b.crc.serializeValue)))))

/-- The checksum, which a block of 6 elements has. -/
def crcValue (size : Nat) (crc : CRCType) (s : Seq) : Parser Error (CRCType × Seq) :=
  if size = 6 then crc.deserializeValue s else pure (crc, s)

/-- `BlockVisitor::visit_seq`. -/
def visitSeq (S : Serde) (s : Seq) : Parser Error (CanonicalBlock × Seq) :=
  match s.sizeHint with
  | none => .fail (.custom "Canonical Block must know the length of its contents")
  | some size =>
    if 5 ≤ size ∧ size ≤ 6 then do
      let (blockTypeNum, s) ← s.field u64 "Error for field 'block_type'"
      let (blockNumber, s) ← s.field u64 "Error for field 'block_number'"
      let (blockFlags, s) ← s.field BlockFlags.deserialize "Error for field 'block_flags'"
      let (crc, s) ← s.field CRCType.deserialize "Error for field 'crc_type'"
      let (dataBytes, s) ← s.field bytes "Error for field 'data'"
      let block ← .lift (Block.ofContent S blockTypeNum dataBytes)
      let (crc, s) ← crcValue size crc s
      return ({ block, blockNumber, blockFlags, crc }, s)
    else .fail (.invalidLength size "Block has 5 to 6 elements")

def deserialize (S : Serde) : Decoder CanonicalBlock := seq (visitSeq S)

def validate (_ : CanonicalBlock) : Bool := true

end CanonicalBlock

end Dtn.Bp7
