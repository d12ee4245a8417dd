import Dtn.Impl.Bp7.Bundle

/-!
# Administrative records (`bp7/src/administrative_record/`)

The only record is the bundle status report. Its encoder and its serde visitors
are embedded here.
-/

namespace Dtn.Bp7

open Dtn.Cbor

structure BundleStatusItem where
  isAsserted : Bool
  timestamp : Option DtnTime
  deriving DecidableEq

/-- `BundleStatusReason`, with its `repr(u64)` numbers. -/
inductive BundleStatusReason where
  | noAdditionalInformation
  | lifetimeExpired
  | forwardedOverUnideirectionLink
  | transmissionCanceled
  | depletedStorage
  | destinationEndpointIDUnavailable
  | noKnownRouteToDestinationFromHere
  | noTimelyContactWithNextNodeOnRoute
  | blockUnintelligible
  | hopLimitExceeded
  | trafficPared
  | blockUnsupported
  deriving DecidableEq

def BundleStatusReason.toU64 : BundleStatusReason → UInt64
  | noAdditionalInformation => 0
  | lifetimeExpired => 1
  | forwardedOverUnideirectionLink => 2
  | transmissionCanceled => 3
  | depletedStorage => 4
  | destinationEndpointIDUnavailable => 5
  | noKnownRouteToDestinationFromHere => 6
  | noTimelyContactWithNextNodeOnRoute => 7
  | blockUnintelligible => 8
  | hopLimitExceeded => 9
  | trafficPared => 10
  | blockUnsupported => 11

structure BundleStatusInformation where
  receivedBundle : BundleStatusItem
  forwardedBundle : BundleStatusItem
  deliveredBundle : BundleStatusItem
  deletedBundle : BundleStatusItem
  deriving DecidableEq

structure BundleStatusReport where
  statusInformation : BundleStatusInformation
  reason : BundleStatusReason
  bundleSource : Endpoint
  bundleCreationTimestamp : CreationTimestamp
  fragmentOffset : Option UInt64
  fragmentLength : Option UInt64
  deriving DecidableEq

inductive AdministrativeRecord where
  | bundleStatusReport (report : BundleStatusReport)
  deriving DecidableEq

/-- `true` and `false` are the simple values 21 and 20. -/
def encBool (b : Bool) : List UInt8 := [initial 7 (if b then 21 else 20)]

def BundleStatusItem.serialize (i : BundleStatusItem) : List UInt8 :=
  match i.isAsserted, i.timestamp with
  | true, some t => head 4 2 ++ (encBool true ++ t.serialize)
  | asserted, _ => head 4 1 ++ encBool asserted

def BundleStatusInformation.serialize (i : BundleStatusInformation) : List UInt8 :=
  head 4 4 ++ (i.receivedBundle.serialize ++ (i.forwardedBundle.serialize ++ (i.deliveredBundle.serialize ++
    i.deletedBundle.serialize)))

def BundleStatusReport.serialize (r : BundleStatusReport) : List UInt8 :=
  let fields := r.statusInformation.serialize ++ (encU64 r.reason.toU64 ++ (r.bundleSource.serialize ++
    r.bundleCreationTimestamp.serialize))
  match r.fragmentOffset, r.fragmentLength with
  | some offset, some length => head 4 6 ++ (fields ++ (encU64 offset ++ encU64 length))
  | _, _ => head 4 4 ++ fields

/-- `Vec::<u8>::try_from(record)`, which has no way to fail. -/
def AdministrativeRecord.toVec : AdministrativeRecord → List UInt8
  | bundleStatusReport report => head 4 2 ++ (encU64 1 ++ report.serialize)

/-! ## Decoding -/

/-- The time, which an asserted item of two elements has. -/
def BundleStatusItem.timestampField (length : Nat) (isAsserted : Bool) (s : Seq) :
    Parser Error (Option DtnTime × Seq) :=
  if length = 2 ∧ isAsserted = true then s.next DtnTime.deserialize else pure (none, s)

/-- `BundleStatusItemVisitor::visit_seq`. -/
def BundleStatusItem.visitSeq (s : Seq) : Parser Error (BundleStatusItem × Seq) :=
  match s.sizeHint with
  | none => .fail (.custom "CBOR Array for BundleStatusItem must have a size hint")
  | some length =>
    if length > 2 then .fail (.invalidLength length "A BundleStatusItem must have 1 or 2 elements")
    else do
      let (isAsserted, s) ← s.field bool "Error for field 'is_asserted'"
      let (timestamp, s) ← timestampField length isAsserted s
      return (⟨isAsserted, timestamp⟩, s)

def BundleStatusItem.deserialize : Decoder BundleStatusItem := seq visitSeq

/-- The reason with this number. -/
def BundleStatusReason.tryFrom (n : UInt64) : Option BundleStatusReason :=
  if n = 0 then some noAdditionalInformation
  else if n = 1 then some lifetimeExpired
  else if n = 2 then some forwardedOverUnideirectionLink
  else if n = 3 then some transmissionCanceled
  else if n = 4 then some depletedStorage
  else if n = 5 then some destinationEndpointIDUnavailable
  else if n = 6 then some noKnownRouteToDestinationFromHere
  else if n = 7 then some noTimelyContactWithNextNodeOnRoute
  else if n = 8 then some blockUnintelligible
  else if n = 9 then some hopLimitExceeded
  else if n = 10 then some trafficPared
  else if n = 11 then some blockUnsupported
  else none

/-- `Deserialize_repr`; the text of its error is the library's and left out. -/
def BundleStatusReason.deserialize : Decoder BundleStatusReason := fun d => do
  match tryFrom (← u64 d) with
  | some reason => pure reason
  | none => .fail (.custom "")

/-- `BundleStatusInformationVisitor::visit_seq`. -/
def BundleStatusInformation.visitSeq (s : Seq) : Parser Error (BundleStatusInformation × Seq) :=
  match s.sizeHint with
  | none => .fail (.custom "CBOR Array for BundleStatusInformation must have a size hint")
  | some length =>
    if length ≠ 4 then .fail (.invalidLength length "A BundleStatusInformation must have 4 elements")
    else do
      let (receivedBundle, s) ← s.field BundleStatusItem.deserialize "Error for field 'received_bundle'"
      let (forwardedBundle, s) ← s.field BundleStatusItem.deserialize "Error for field 'forwarded_bundle'"
      let (deliveredBundle, s) ← s.field BundleStatusItem.deserialize "Error for field 'delivered_bundle'"
      let (deletedBundle, s) ← s.field BundleStatusItem.deserialize "Error for field 'deleted_bundle'"
      return (⟨receivedBundle, forwardedBundle, deliveredBundle, deletedBundle⟩, s)

def BundleStatusInformation.deserialize : Decoder BundleStatusInformation := seq visitSeq

/-- The offset and the length of a fragment, which a report of six elements has. -/
def BundleStatusReport.fragmentFields (length : Nat) (s : Seq) :
    Parser Error ((Option UInt64 × Option UInt64) × Seq) :=
  if length = 6 then do
    let (fragmentOffset, s) ← s.field u64 "Error for field 'fragment_offset'"
    let (fragmentLength, s) ← s.field u64 "Error for field 'fragment_length'"
    return ((some fragmentOffset, some fragmentLength), s)
  else pure ((none, none), s)

/-- `BundleStatusReportVisitor::visit_seq`. -/
def BundleStatusReport.visitSeq (S : Serde) (s : Seq) : Parser Error (BundleStatusReport × Seq) :=
  match s.sizeHint with
  | none => .fail (.custom "CBOR Array for BundleStatusReport must have a size hint")
  | some length =>
    if length ≠ 4 ∧ length ≠ 6 then .fail (.invalidLength length "A BundleStatusReport must have 4 or 6 elements")
    else do
      let (statusInformation, s) ← s.field BundleStatusInformation.deserialize "Error for field 'status_information'"
      let (reason, s) ← s.field BundleStatusReason.deserialize "Error for field 'reason'"
      let (bundleSource, s) ← s.field (Endpoint.deserialize S) "Error for field 'bundle_source'"
      let (bundleCreationTimestamp, s) ←
        s.field CreationTimestamp.deserialize "Error for field 'bundle_creation_timestamp'"
      let ((fragmentOffset, fragmentLength), s) ← fragmentFields length s
      return ({ statusInformation, reason, bundleSource, bundleCreationTimestamp, fragmentOffset, fragmentLength }, s)

def BundleStatusReport.deserialize (S : Serde) : Decoder BundleStatusReport := seq (visitSeq S)

/-- `Deserialize_repr` of `AdministrativeRecordType`, whose only number is 1. -/
def AdministrativeRecord.typeNumber : Decoder Unit := fun d => do
  if (← u64 d) = 1 then pure () else .fail (.custom "")

/-- `AdministrativeRecordVisitor::visit_seq`. -/
def AdministrativeRecord.visitSeq (S : Serde) (s : Seq) : Parser Error (AdministrativeRecord × Seq) := do
  let (_, s) ← s.field typeNumber "Error for field 'administrative_record_type'"
  let (report, s) ← s.field (BundleStatusReport.deserialize S) "Error for field 'bundle_status_report'"
  return (.bundleStatusReport report, s)

def AdministrativeRecord.deserialize (S : Serde) : Decoder AdministrativeRecord := seq (visitSeq S)

/-- `AdministrativeRecord::try_from(Vec<u8>)`. -/
def AdministrativeRecord.tryFrom (S : Serde) (bs : List UInt8) : Outcome SerializationError AdministrativeRecord :=
  (fromSlice (deserialize S) bs).mapErr .serializationError

end Dtn.Bp7
