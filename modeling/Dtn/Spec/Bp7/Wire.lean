import Dtn.Impl.Bp7.Bundle

/-!
# The canonical wire form of a bundle

RFC 9171 without checksums, as a data type of its own: what another
implementation puts on the wire. Numbers and lengths are in their shortest
form, inner arrays are definite, an `ipn` endpoint is an array of its two
numbers, and the flag fields hold any number. `encode` writes the form and
`value` is what this repository makes of it.

Hop limits and counts are bytes, as RFC 9171 has them: the decoder refuses
larger ones.
-/

namespace Dtn.Bp7.Wire

open Dtn.Cbor

/-- `[1, text]`, `[1, 0]` and `[2, [node, service]]`. -/
inductive Endpoint where
  | dtn (uri : String)
  | dtnNone
  | ipn (node service : UInt64)
  deriving DecidableEq

namespace Endpoint

def encode : Endpoint → List UInt8
  | dtn uri => head 4 2 ++ (encU64 1 ++ encText uri)
  | dtnNone => head 4 2 ++ (encU64 1 ++ encU64 0)
  | ipn node service => head 4 2 ++ (encU64 2 ++ IPNEndpoint.asArray ⟨node, service⟩)

def value : Endpoint → Bp7.Endpoint
  | dtn uri => .dtn ⟨uri⟩
  | dtnNone => .dtn ⟨"none"⟩
  | ipn node service => .ipn ⟨node, service⟩

/-- The endpoint is written again as it was: it is no `ipn` endpoint, and no text that
spells out the null endpoint. -/
def Stable : Endpoint → Prop
  | dtn uri => uri ≠ "none"
  | dtnNone => True
  | ipn _ _ => False

instance (e : Endpoint) : Decidable e.Stable := by
  cases e <;> unfold Stable <;> infer_instance

end Endpoint

structure PrimaryBlock where
  version : UInt64
  flags : UInt64
  destination : Endpoint
  source : Endpoint
  reportTo : Endpoint
  creationTimestamp : CreationTimestamp
  lifetime : UInt64
  /-- The offset and the total length of a fragment. -/
  fragment : Option (UInt64 × UInt64)
  deriving DecidableEq

namespace PrimaryBlock

def encodeFragment : Option (UInt64 × UInt64) → List UInt8
  | none => []
  | some (offset, total) => encU64 offset ++ encU64 total

def encode (p : PrimaryBlock) : List UInt8 :=
  head 4 (if p.fragment.isSome then 10 else 8) ++ (encU64 p.version ++ (encU64 p.flags ++ (encU64 0 ++
    (p.destination.encode ++ (p.source.encode ++ (p.reportTo.encode ++ (p.creationTimestamp.serialize ++
      (encU64 p.lifetime ++ encodeFragment p.fragment))))))))

def value (p : PrimaryBlock) : Bp7.PrimaryBlock where
  version := p.version
  bundleProcessingFlags := .fromBitsTruncate p.flags
  crc := .noCRC
  destinationEndpoint := p.destination.value
  sourceNode := p.source.value
  reportTo := p.reportTo.value
  creationTimestamp := p.creationTimestamp
  lifetime := p.lifetime
  fragmentOffset := p.fragment.map Prod.fst
  totalDataLength := p.fragment.map Prod.snd

def Stable (p : PrimaryBlock) : Prop :=
  p.flags &&& BundleFlags.all = p.flags ∧ p.destination.Stable ∧ p.source.Stable ∧ p.reportTo.Stable

instance (p : PrimaryBlock) : Decidable p.Stable := inferInstanceAs (Decidable (_ ∧ _))

end PrimaryBlock

/-- What a block holds; an unknown block has none of the known numbers. -/
inductive Content where
  | payload (data : List UInt8)
  | previousNode (e : Endpoint)
  | bundleAge (age : UInt64)
  | hopCount (limit count : UInt8)
  | unkown (blockType : UInt64) (data : List UInt8) (h : BlockType.tryFrom blockType = none)
  deriving DecidableEq

namespace Content

def blockType : Content → UInt64
  | payload _ => 1
  | previousNode _ => 6
  | bundleAge _ => 7
  | hopCount _ _ => 10
  | unkown t _ _ => t

def encode : Content → List UInt8
  | payload data => data
  | previousNode e => e.encode
  | bundleAge age => encU64 age
  | hopCount limit count => head 4 2 ++ (encU64 limit.toUInt64 ++ encU64 count.toUInt64)
  | unkown _ data _ => data

def value : Content → Bp7.Block
  | payload data => .payload ⟨data⟩
  | previousNode e => .previousNode ⟨e.value⟩
  | bundleAge age => .bundleAge ⟨age⟩
  | hopCount limit count => .hopCount ⟨limit, count⟩
  | unkown t data _ => .unkown ⟨t, data⟩

def Stable : Content → Prop
  | previousNode e => e.Stable
  | _ => True

instance (c : Content) : Decidable c.Stable := by
  cases c <;> unfold Stable <;> infer_instance

end Content

structure Block where
  content : Content
  number : UInt64
  flags : UInt64
  deriving DecidableEq

namespace Block

def encode (b : Block) : List UInt8 :=
  head 4 5 ++ (encU64 b.content.blockType ++ (encU64 b.number ++ (encU64 b.flags ++ (encU64 0 ++
    encBytes b.content.encode))))

def value (b : Block) : CanonicalBlock where
  block := b.content.value
  blockNumber := b.number
  blockFlags := .fromBitsTruncate b.flags
  crc := .noCRC

def Stable (b : Block) : Prop := b.flags &&& BlockFlags.all = b.flags ∧ b.content.Stable

instance (b : Block) : Decidable b.Stable := inferInstanceAs (Decidable (_ ∧ _))

end Block

structure Bundle where
  primary : PrimaryBlock
  blocks : List Block
  nonempty : blocks ≠ []
  deriving DecidableEq

namespace Bundle

def encode (b : Bundle) : List UInt8 :=
  (initial 4 31 :: b.primary.encode) ++ (b.blocks.flatMap Block.encode ++ [stop])

def value (b : Bundle) : Bp7.Bundle := ⟨b.primary.value, b.blocks.map Block.value⟩

/-- Neither an `ipn` endpoint nor a text `none` anywhere, and only defined flag bits. -/
def Stable (b : Bundle) : Prop := b.primary.Stable ∧ ∀ c ∈ b.blocks, c.Stable

instance (b : Bundle) : Decidable b.Stable := inferInstanceAs (Decidable (_ ∧ _))

end Bundle

end Dtn.Bp7.Wire
