import Dtn.Impl.Dtrd.Bundles

/-!
# The storage agent (`dtrd/src/bundlestorageagent/agent.rs`)

`handle` is the agent's answer to one message: its new state, and what it
sends to the protocol agent and does to its directory, in this order. `started`
is what it does before its first message. No handler returns an error, so the
error type is empty.
-/

namespace Dtn.Dtrd.Storage

open Dtn.Bp7

/-- `Daemon`, once `started` has set its endpoint. `nextAddress` numbers the vectors made here. -/
structure Daemon where
  bundles : List StoredBundle
  endpoint : Endpoint
  lastCreatedDtnTime : Option DtnTime
  lastSequenceNumber : UInt64
  nextAddress : Nat
  deriving DecidableEq

inductive Message where
  | storeReceivedBundle (bundleData : List UInt8)
  | storeNewBundle (bundleData : List UInt8)
  | updateBundle (bundleref : StoredBundleRef) (newState : State) (newData : Option (List UInt8))
  | fragmentBundle (bundleref : StoredBundleRef) (targetSize : UInt64)
  deriving DecidableEq

inductive Effect where
  | eventBundleUpdated (bundle : StoredBundleRef)
  | writeBundleToFile (name : String) (data : List UInt8)
  | deleteBundleFile (name : String)
  deriving DecidableEq

variable (S : Serde)

/-- `position` and `remove`: the first stored bundle with this primary block, and the others. -/
def removeFirst (pb : PrimaryBlock) : List StoredBundle → Option (StoredBundle × List StoredBundle)
  | [] => none
  | sb :: sbs =>
    if sb.primaryBlock = pb then some (sb, sbs)
    else (removeFirst pb sbs).map fun (found, rest) => (found, sb :: rest)

namespace Daemon

/-- Put a stored bundle behind the others and announce it. -/
def push (d : Daemon) (sb : StoredBundle) : Daemon × List Effect :=
  ({ d with bundles := d.bundles ++ [sb] }, [.eventBundleUpdated sb.getRef])

def storeBundle (d : Daemon) (bundleData : List UInt8) (minSize : Option UInt64) (state : State) (persist : Bool) :
    Outcome Empty (Daemon × List Effect) := do
  let sb ← StoredBundle.ofVec S d.nextAddress bundleData
  let sb := { sb with minSize, state }
  let (d, events) := { d with nextAddress := d.nextAddress + 1 }.push sb
  return (d, if persist then .writeBundleToFile sb.getFilename sb.bundleData.bytes :: events else events)

def storeReceivedBundle (d : Daemon) (bundleData : List UInt8) : Outcome Empty (Daemon × List Effect) :=
  d.storeBundle S bundleData none .received false

/-- The sequence number of a bundle created at this time, and what is remembered of it. -/
def nextSequenceNumber (d : Daemon) (timestamp : DtnTime) : Daemon × UInt64 :=
  if some timestamp = d.lastCreatedDtnTime then
    ({ d with lastSequenceNumber := d.lastSequenceNumber + 1 }, d.lastSequenceNumber + 1)
  else ({ d with lastCreatedDtnTime := some timestamp, lastSequenceNumber := 0 }, 0)

def withSequenceNumber (b : Bundle) (n : UInt64) : Bundle :=
  { b with primaryBlock := { b.primaryBlock with
    creationTimestamp := { b.primaryBlock.creationTimestamp with sequenceNumber := n } } }

def storeNewBundle (d : Daemon) (bundleData : List UInt8) : Outcome Empty (Daemon × List Effect) := do
  let bundle ← (Bundle.tryFrom S bundleData).unwrap
  if !(← bundle.primaryBlock.sourceNode.matchesNode d.endpoint) then .panic
  else if bundle.primaryBlock.fragmentOffset.isSome then .panic
  else do
    let (d, n) := d.nextSequenceNumber bundle.primaryBlock.creationTimestamp.creationTime
    let bundleData ← (withSequenceNumber bundle n).toVec.unwrap
    let sb ← StoredBundle.ofVec S d.nextAddress bundleData
    return { d with nextAddress := d.nextAddress + 1 }.push sb

/-- The fragments behind the first one. -/
def storeFragments (d : Daemon) (minSize : UInt64) : List Bundle → Outcome Empty (Daemon × List Effect)
  | [] => .ok (d, [])
  | bundle :: bundles => do
    let bundleData ← bundle.toVec.unwrap
    let (d, effects) ← d.storeBundle S bundleData (some minSize) .valid true
    let (d, effects') ← storeFragments d minSize bundles
    return (d, effects ++ effects')

def fragmentBundle (d : Daemon) (bundleref : StoredBundleRef) (targetSize : UInt64) :
    Outcome Empty (Daemon × List Effect) :=
  match removeFirst bundleref.primaryBlock d.bundles with
  | none => .ok (d, [])
  | some (sb, bundles) => do
    let d := { d with bundles }
    let bundle ← sb.getBundle S
    match bundle.fragment targetSize.toNat with
    | .ok (first :: fragments, firstMinSize, minSize) => do
      let bundleData ← first.toVec.unwrap
      let (d, effects) ← d.storeBundle S bundleData (some firstMinSize) .valid true
      let (d, effects') ← d.storeFragments S minSize fragments
      return (d, effects ++ effects' ++ [.deleteBundleFile sb.getFilename])
    | .err (.canNotFragmentThatSmall minSize) => return d.push { sb with minSize := some minSize }
    | _ => .panic

/-- The loop that takes the fragments out of the vector: these, and the rest. -/
def splitFragments (pb : PrimaryBlock) : List StoredBundle → Outcome Empty (List StoredBundle × List StoredBundle)
  | [] => .ok ([], [])
  | sb :: sbs => do
    let bundle ← sb.getBundle S
    let (fragments, rest) ← splitFragments pb sbs
    return if bundle.primaryBlock.equalsIgnoringFragmentInfo pb then (sb :: fragments, rest) else
    (fragments, sb :: rest)

/-- `get_bundle` of each. -/
def getBundles : List StoredBundle → Outcome Empty (List Bundle)
  | [] => .ok []
  | sb :: sbs => do
    let bundle ← sb.getBundle S
    let bundles ← getBundles sbs
    return bundle :: bundles

def tryDefragmentBundle (d : Daemon) (bundle : StoredBundleRef) : Outcome Empty (Daemon × List Effect) := do
  let (fragments, rest) ← splitFragments S bundle.primaryBlock d.bundles
  if fragments.isEmpty then .panic
  else do
    let bundles ← getBundles S fragments
    match Bundle.reassembleBundles bundles with
    | .ok bundleData => do
      let (d, effects) ← { d with bundles := rest }.storeBundle S bundleData none .valid true
      return (d, effects ++ fragments.map fun sb => .deleteBundleFile sb.getFilename)
    | .err _ => return ({ d with bundles := rest ++ fragments }, [])
    | .panic => .panic

/-- The entry with its new state, and with the new data if there is some. Its other fields stay. -/
def changeState (d : Daemon) (sb : StoredBundle) (newState : State) : Option (List UInt8) → Daemon × List Effect
  | none => d.push { sb with state := newState }
  | some data =>
    { d with nextAddress := d.nextAddress + 1 }.push { sb with state := newState, bundleData := ⟨d.nextAddress, data⟩ }

/-- The `match new_state`, for an entry that was taken out of the vector. -/
def enterState (d : Daemon) (sb : StoredBundle) (newState : State) (newData : Option (List UInt8)) :
    Outcome Empty (Daemon × List Effect) :=
  match newState with
  | .valid | .deliveryQueued | .forwardingQueued => .ok (d.changeState sb newState newData)
  | .defragmentationPending => tryDefragmentBundle S { d with bundles := d.bundles ++ [sb] } sb.getRef
  | .delivered | .forwarded | .invalid => .ok (d, [.deleteBundleFile sb.getFilename])
  | .received => .panic

def updateBundle (d : Daemon) (bundleref : StoredBundleRef) (newState : State) (newData : Option (List UInt8)) :
    Outcome Empty (Daemon × List Effect) :=
  match removeFirst bundleref.primaryBlock d.bundles with
  | none => .ok (d, [])
  | some (sb, bundles) => do
    let (d, effects) ← enterState S { d with bundles } sb newState newData
    -- only a bundle that was not valid before is written
    return (d, if newState = .valid ∧ sb.state ≠ .valid
      then .writeBundleToFile sb.getFilename sb.bundleData.bytes :: effects else effects)

def handle (d : Daemon) : Message → Outcome Empty (Daemon × List Effect)
  | .storeReceivedBundle bundleData => d.storeReceivedBundle S bundleData
  | .storeNewBundle bundleData => d.storeNewBundle S bundleData
  | .updateBundle bundleref newState newData => d.updateBundle S bundleref newState newData
  | .fragmentBundle bundleref targetSize => d.fragmentBundle S bundleref targetSize

/-! ## Start -/

/-- The loop over the files of the directory. A file with another name than its bundle's is a panic. -/
def load (address : Nat) : List (String × List UInt8) → Outcome Empty (List StoredBundle)
  | [] => .ok []
  | (name, content) :: files => do
    let sb ← StoredBundle.ofVec S address content
    if sb.getFilename ≠ name then .panic
    else do
      let existingBundles ← load (address + 1) files
      return { sb with state := .valid } :: existingBundles

def started (endpoint : Endpoint) (files : List (String × List UInt8)) : Outcome Empty (Daemon × List Effect) := do
  let bundles ← load S 0 files
  return (⟨bundles, endpoint, none, 0, bundles.length⟩, bundles.map fun sb => .eventBundleUpdated sb.getRef)

end Daemon

end Dtn.Dtrd.Storage
