import Dtn.Impl.Bp7.Fragment

/-!
# Stored bundles (`dtrd/src/bundlestorageagent/mod.rs`)

The storage agent owns the bundles; the other agents have references. A
reference is a copy of what is known of the bundle with a weak pointer to its
data, and two bundles or references count as equal if their primary blocks are.
-/

namespace Dtn.Dtrd

open Dtn.Bp7

variable {ε : Type}

inductive State where
  | received
  | valid
  | defragmentationPending
  | deliveryQueued
  | delivered
  | forwardingQueued
  | forwarded
  | invalid
  deriving DecidableEq

/-- The vector behind an `Arc`, with a number that tells it from others with the same bytes. -/
structure Data where
  address : Nat
  bytes : List UInt8
  deriving DecidableEq

structure StoredBundle where
  bundleData : Data
  state : State
  size : UInt64
  payloadSize : UInt64
  minSize : Option UInt64
  primaryBlock : PrimaryBlock
  deriving DecidableEq

/-- `StoredBundleRef`; its `bundleData` is a `Weak`. -/
structure StoredBundleRef where
  bundleData : Data
  state : State
  size : UInt64
  payloadSize : UInt64
  minSize : Option UInt64
  primaryBlock : PrimaryBlock
  deriving DecidableEq

def idFromPb (pb : PrimaryBlock) (size : UInt64) : String :=
  pb.sourceNode.display ++ ":" ++ toString pb.creationTimestamp.creationTime.timestamp ++ ":" ++
    toString pb.creationTimestamp.sequenceNumber ++ ":" ++ toString (pb.fragmentOffset.getD 0) ++ ":" ++ toString size

namespace StoredBundle

def getId (sb : StoredBundle) : String := idFromPb sb.primaryBlock sb.size

/-- The id with each `/` replaced. -/
def getFilename (sb : StoredBundle) : String :=
  String.ofList (sb.getId.toList.map fun c => if c = '/' then '_' else c)

def getBundle (S : Serde) (sb : StoredBundle) : Outcome ε Bundle := (Bundle.tryFrom S sb.bundleData.bytes).unwrap

def getRef (sb : StoredBundle) : StoredBundleRef :=
  ⟨sb.bundleData, sb.state, sb.size, sb.payloadSize, sb.minSize, sb.primaryBlock⟩

/-- `StoredBundle::from` on a vector that gets the given number. -/
def ofVec (S : Serde) (address : Nat) (bundleData : List UInt8) : Outcome ε StoredBundle := do
  let bundle ← (Bundle.tryFrom S bundleData).unwrap
  let payload ← bundle.payloadData
  return {
    bundleData := ⟨address, bundleData⟩
    state := .received
    size := UInt64.ofNat bundleData.length
    payloadSize := UInt64.ofNat payload.length
    minSize := none
    primaryBlock := bundle.primaryBlock }

end StoredBundle

namespace StoredBundleRef

def getId (r : StoredBundleRef) : String := idFromPb r.primaryBlock r.size

/-- `Weak::upgrade`, given which vectors still exist. -/
def getBundleData (r : StoredBundleRef) (live : Nat → Bool) : Option (List UInt8) :=
  if live r.bundleData.address then some r.bundleData.bytes else none

/-- `PartialEq`. -/
def eq (r r' : StoredBundleRef) : Bool := r.primaryBlock == r'.primaryBlock

end StoredBundleRef

end Dtn.Dtrd
