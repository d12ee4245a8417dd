import Dtn.Framework.Table
import Dtn.Impl.Bp7.AdministrativeRecord
import Dtn.Impl.Bp7.Forward
import Dtn.Impl.Dtrd.Storage

/-!
# The protocol agent (`dtrd/src/bundleprotocolagent/agent.rs`)

`handle` is the agent's answer to one message: its new state, and what it
sends to the storage agent, to the convergence layer and to the clients. A
handler also depends on what other threads do in the meantime: whether the
actor behind an address still runs, whether its mailbox has room, which bundle
data still exists, and the time. `World` and the list of answers in `Context`
stand for these.
-/

namespace Dtn.Dtrd.Protocol

open Dtn.Bp7

/-- `HOP_LIMIT_DEFAULT`. -/
def hopLimitDefault : UInt8 := 16

structure NexthopInfo where
  nextHop : Endpoint
  maxSize : Option UInt64
  deriving DecidableEq

/-- `Daemon`, once `started` has set its endpoint. The address of an actor is its number. -/
structure Daemon where
  endpoint : Endpoint
  bundlesPendingLocalDelivery : Table Endpoint (List StoredBundleRef)
  bundlesPendingForwarding : Table Endpoint (List StoredBundleRef)
  localBundles : Table Endpoint (List StoredBundleRef)
  remoteBundles : Table Endpoint (List StoredBundleRef)
  localConnections : Table Endpoint Nat
  remoteConnections : Table Endpoint Nat
  remoteRoutes : Table Endpoint NexthopInfo
  deriving DecidableEq

def Daemon.new (endpoint : Endpoint) : Daemon := ⟨endpoint, .empty, .empty, .empty, .empty, .empty, .empty, .empty⟩

inductive Message where
  | eventBundleUpdated (bundle : StoredBundleRef)
  | eventBundleDelivered (endpoint : Endpoint) (bundle : StoredBundleRef)
  | eventBundleDeliveryFailed (endpoint : Endpoint) (bundle : StoredBundleRef)
  | eventClientConnected (destination : Endpoint) (sender : Nat)
  | eventClientDisconnected (destination : Endpoint)
  | eventPeerConnected (destination : Endpoint) (sender : Nat)
  | eventPeerDisconnected (destination : Endpoint)
  | eventBundleForwarded (endpoint : Endpoint) (bundle : StoredBundleRef)
  | eventBundleForwardingFailed (endpoint : Endpoint) (bundle : StoredBundleRef)
  | eventRoutingTableUpdate (routes : Table Endpoint NexthopInfo)
  deriving DecidableEq

/-- What the agent sends. -/
inductive Command where
  | storage (message : Storage.Message)
  | clientDeliverBundle (client : Nat) (bundle : StoredBundleRef)
  | agentForwardBundle (agent : Nat) (bundle : StoredBundleRef)
  deriving DecidableEq

/-- What a handler finds and does not change. -/
structure World where
  running : Nat → Bool
  live : Nat → Bool
  now : DtnTime

/-- The state of a handler: `accepts` says of each further `try_send` to a running actor whether its mailbox has
room. -/
structure Context where
  daemon : Daemon
  accepts : List Bool
  sent : List Command

inductive SendResult where
  | ok
  | full
  | closed
  deriving DecidableEq

variable (S : Serde) (w : World)

namespace Context

def send (c : Context) (command : Command) : Context := { c with sent := c.sent ++ [command] }

/-- `Recipient::try_send`, up to the message. -/
def trySend (c : Context) (address : Nat) : SendResult × Context :=
  if w.running address then
    match c.accepts with
    | true :: accepts => (.ok, { c with accepts })
    | false :: accepts => (.full, { c with accepts })
    | [] => (.full, c)
  else (.closed, c)

/-! ## Status reports -/

def sendStatusReport (c : Context) (bundle : StoredBundleRef) (reason : BundleStatusReason)
    (isReceived isForwarded isDelivered isDeleted : Bool) : Outcome Empty Context := do
  let item (asserted : Bool) : BundleStatusItem := ⟨asserted, if asserted then some w.now else none⟩
  let pb := bundle.primaryBlock
  let data := (AdministrativeRecord.bundleStatusReport {
    statusInformation := ⟨item isReceived, item isForwarded, item isDelivered, item isDeleted⟩
    reason := reason
    bundleSource := pb.sourceNode
    bundleCreationTimestamp := pb.creationTimestamp
    fragmentOffset := pb.fragmentOffset
    fragmentLength := pb.fragmentOffset.map fun _ => bundle.payloadSize }).toVec
  let report : Bundle := {
    primaryBlock := {
      version := 7
      bundleProcessingFlags := .administrativeRecord
      crc := .noCRC
      destinationEndpoint := pb.reportTo
      sourceNode := c.daemon.endpoint
      reportTo := c.daemon.endpoint
      creationTimestamp := ⟨w.now, 0⟩
      lifetime := pb.lifetime
      fragmentOffset := none
      totalDataLength := none }
    blocks := [⟨.payload ⟨data⟩, 1, .empty, .noCRC⟩] }
  let bundleData ← report.toVec.unwrap
  return c.send (.storage (.storeNewBundle bundleData))

def sendStatusReportDelivered (c : Context) (bundle : StoredBundleRef) : Outcome Empty Context :=
  if !bundle.primaryBlock.bundleProcessingFlags.contains .bundleDeliveryStatusRequested then .ok c
  else c.sendStatusReport w bundle .noAdditionalInformation false false true false

def sendStatusReportForwarded (c : Context) (bundle : StoredBundleRef) : Outcome Empty Context :=
  if !bundle.primaryBlock.bundleProcessingFlags.contains .bundleForwardingStatusRequest then .ok c
  else c.sendStatusReport w bundle .noAdditionalInformation false true false false

def sendStatusReportReceived (c : Context) (bundle : StoredBundleRef) : Outcome Empty Context :=
  if !bundle.primaryBlock.bundleProcessingFlags.contains .bundleReceiptionStatusRequested then .ok c
  else c.sendStatusReport w bundle .noAdditionalInformation true false false false

def sendStatusReportDeleted (c : Context) (bundle : StoredBundleRef) (reason : BundleStatusReason) :
    Outcome Empty Context :=
  if !bundle.primaryBlock.bundleProcessingFlags.contains .bundleDeletionStatusRequested then .ok c
  else c.sendStatusReport w bundle reason false false false true

/-! ## Delivery -/

/-- The `while` loop of `deliver_local_bundles`, on the queue of a destination. It gives the queue it leaves. -/
def localLoop (destination : Endpoint) (sender : Nat) :
    List StoredBundleRef → Context → Outcome Empty (Context × List StoredBundleRef)
  | [], c => .ok (c, [])
  | bundle :: queue, c =>
    if bundle.primaryBlock.fragmentOffset.isSome then .panic
    else
      match c.trySend w sender with
      | (.ok, c) =>
        let pending := c.daemon.bundlesPendingLocalDelivery
        localLoop destination sender queue { c.send (.clientDeliverBundle sender bundle) with
          daemon := { c.daemon with
            bundlesPendingLocalDelivery := pending.insert destination (pending.list destination ++ [bundle]) } }
      | (.full, c) => .ok (c, queue ++ [bundle])
      | (.closed, c) =>
        .ok ({ c with daemon := { c.daemon with localConnections := c.daemon.localConnections.remove destination } },
          queue ++ [bundle])

def deliverLocalBundles (c : Context) (destination : Endpoint) : Outcome Empty Context :=
  match c.daemon.localConnections.get destination, c.daemon.localBundles.get destination with
  | some sender, some queue => do
    let (c, queue) ← localLoop w destination sender queue c
    return { c with daemon := { c.daemon with localBundles := c.daemon.localBundles.insert destination queue } }
  | _, _ => .ok c

/-- The smaller of the two limits, where `None` is no limit. -/
def maxBundleSize (route nexthopinfo : NexthopInfo) : Option UInt64 :=
  match route.maxSize, nexthopinfo.maxSize with
  | some ms, some sMs => some (min ms sMs)
  | some ms, none => some ms
  | none, limit => limit

/-- `bundle.get_bundle_size() > mbs`, if there is a limit. -/
def tooLarge (limit : Option UInt64) (bundle : StoredBundleRef) : Option UInt64 := limit.filter (bundle.size > ·)

/-- The loop of `deliver_remote_bundles`. Of the queue, `queue` was not looked
at yet, and behind it is `back`, the bundles pushed back because they are too
large and cannot be fragmented. Their ids are in `visited`, so the loop ends
when it comes to them. -/
def remoteLoop (destination : Endpoint) (sender : Nat) (limit : Option UInt64) :
    (visited : List String) → (back queue : List StoredBundleRef) → Context →
      Outcome Empty (Context × List StoredBundleRef)
  | _, back, [], c => .ok (c, back)
  | visited, back, bundle :: queue, c =>
    if visited.contains bundle.getId then .ok (c, bundle :: queue ++ back)
    else
      match tooLarge limit bundle with
      | some mbs =>
        if bundle.primaryBlock.bundleProcessingFlags.contains .mustNotFragment || bundle.minSize.any (· > mbs) then
          remoteLoop destination sender limit (bundle.getId :: visited) (back ++ [bundle]) queue c
        else
          remoteLoop destination sender limit visited back queue (c.send (.storage (.fragmentBundle bundle mbs)))
      | none =>
        match c.trySend w sender with
        | (.ok, c) =>
          let pending := c.daemon.bundlesPendingForwarding
          remoteLoop destination sender limit visited back queue { c.send (.agentForwardBundle sender bundle) with
            daemon := { c.daemon with
              bundlesPendingForwarding := pending.insert destination (pending.list destination ++ [bundle]) } }
        | (.full, c) => .ok (c, queue ++ back ++ [bundle])
        | (.closed, c) =>
          .ok ({ c with daemon := { c.daemon with
            remoteConnections := c.daemon.remoteConnections.remove destination } }, queue ++ back ++ [bundle])

/-- Where bundles for this node go: the actor of the next hop, and the limit on their size. -/
def nextHop (d : Daemon) (destination : Endpoint) : Option (Nat × Option UInt64) := do
  let route ← d.remoteRoutes.get destination
  let sender ← d.remoteConnections.get route.nextHop
  let nexthopinfo ← d.remoteRoutes.get route.nextHop
  if route.nextHop ≠ nexthopinfo.nextHop then none
  else some (sender, maxBundleSize route nexthopinfo)

def deliverRemoteBundles (c : Context) (destination : Endpoint) : Outcome Empty Context := do
  let destination ← destination.getNodeEndpoint
  match nextHop c.daemon destination, c.daemon.remoteBundles.get destination with
  | some (sender, limit), some queue => do
    let (c, queue) ← remoteLoop w destination sender limit [] [] queue c
    return { c with daemon := { c.daemon with remoteBundles := c.daemon.remoteBundles.insert destination queue } }
  | _, _ => return c

/-- `deliver_remote_bundles` for one target after the other. -/
def deliverRoutes (c : Context) : List Endpoint → Outcome Empty Context
  | [] => .ok c
  | target :: targets => do
    let c ← c.deliverRemoteBundles w target
    deliverRoutes c targets

/-! ## The handlers -/

def forwardBundle (c : Context) (bundle : StoredBundleRef) : Outcome BundleStatusReason (List UInt8) :=
  match bundle.getBundleData w.live with
  | none => .panic
  | some data => do
    let bundle ← (Bundle.tryFrom S data).unwrap
    let own ← c.daemon.endpoint.matchesNode bundle.primaryBlock.sourceNode
    let bundle := if own then bundle else bundle.setPreviousNode c.daemon.endpoint
    match bundle.incHopCount hopLimitDefault with
    | (_, false) => .err .hopLimitExceeded
    | (bundle, true) => bundle.toVec.unwrap

def update (c : Context) (bundle : StoredBundleRef) (newState : State) (newData : Option (List UInt8)) : Context :=
  c.send (.storage (.updateBundle bundle newState newData))

/-- The `State::Valid` arm of `EventBundleUpdated`. -/
def validBundle (c : Context) (bundle : StoredBundleRef) : Outcome Empty Context := do
  if ← c.daemon.endpoint.matchesNode bundle.primaryBlock.destinationEndpoint then
    if bundle.primaryBlock.fragmentOffset.isSome then return c.update bundle .defragmentationPending none
    else return c.update bundle .deliveryQueued none
  else
    match c.forwardBundle S w bundle with
    | .ok newData => return c.update bundle .forwardingQueued (some newData)
    | .err e => do
      let c ← c.sendStatusReportDeleted w bundle e
      return c.update bundle .invalid none
    | .panic => .panic

def eventBundleUpdated (c : Context) (bundle : StoredBundleRef) : Outcome Empty Context := do
  let destination := bundle.primaryBlock.destinationEndpoint
  match bundle.state with
  | .received => do
    let own ← bundle.primaryBlock.sourceNode.matchesNode c.daemon.endpoint
    let c ← if own then pure c else c.sendStatusReportReceived w bundle
    return c.update bundle .valid none
  | .valid => c.validBundle S w bundle
  | .deliveryQueued => do
    let queues := c.daemon.localBundles
    let c := { c with daemon := { c.daemon with
      localBundles := queues.insert destination (queues.list destination ++ [bundle]) } }
    c.deliverLocalBundles w destination
  | .forwardingQueued => do
    let node ← destination.getNodeEndpoint
    let queues := c.daemon.remoteBundles
    let c := { c with daemon := { c.daemon with
      remoteBundles := queues.insert node (queues.list node ++ [bundle]) } }
    c.deliverRemoteBundles w destination
  | .defragmentationPending | .delivered | .forwarded | .invalid => return c

/-- `pending.retain(|e| e != bundle)`, if there is such a list. -/
def retain (pending : Table Endpoint (List StoredBundleRef)) (endpoint : Endpoint) (bundle : StoredBundleRef) :
    Table Endpoint (List StoredBundleRef) :=
  match pending.get endpoint with
  | some refs => pending.insert endpoint (refs.filter fun r => !r.eq bundle)
  | none => pending

def retainLocal (c : Context) (endpoint : Endpoint) (bundle : StoredBundleRef) : Context :=
  { c with daemon := { c.daemon with
    bundlesPendingLocalDelivery := retain c.daemon.bundlesPendingLocalDelivery endpoint bundle } }

def retainRemote (c : Context) (endpoint : Endpoint) (bundle : StoredBundleRef) : Context :=
  { c with daemon := { c.daemon with
    bundlesPendingForwarding := retain c.daemon.bundlesPendingForwarding endpoint bundle } }

def eventBundleDelivered (c : Context) (endpoint : Endpoint) (bundle : StoredBundleRef) : Outcome Empty Context := do
  let c ← (c.retainLocal endpoint bundle).sendStatusReportDelivered w bundle
  (c.update bundle .delivered none).deliverLocalBundles w endpoint

def eventBundleDeliveryFailed (c : Context) (endpoint : Endpoint) (bundle : StoredBundleRef) : Context :=
  let c := c.retainLocal endpoint bundle
  { c with daemon := { c.daemon with
    localBundles := c.daemon.localBundles.insert endpoint (bundle :: c.daemon.localBundles.list endpoint) } }

def eventClientConnected (c : Context) (destination : Endpoint) (sender : Nat) : Outcome Empty Context :=
  let c := { c with daemon := { c.daemon with
    localConnections := c.daemon.localConnections.insert destination sender } }
  c.deliverLocalBundles w destination

def eventClientDisconnected (c : Context) (destination : Endpoint) : Context :=
  { c with daemon := { c.daemon with localConnections := c.daemon.localConnections.remove destination } }

def eventPeerConnected (c : Context) (destination : Endpoint) (sender : Nat) : Outcome Empty Context := do
  if (← destination.getNodeEndpoint) ≠ destination then .panic
  else
    let c := { c with daemon := { c.daemon with
      remoteConnections := c.daemon.remoteConnections.insert destination sender } }
    c.deliverRemoteBundles w destination

def eventPeerDisconnected (c : Context) (destination : Endpoint) : Outcome Empty Context := do
  if (← destination.getNodeEndpoint) ≠ destination then .panic
  else return { c with daemon := { c.daemon with
    remoteConnections := c.daemon.remoteConnections.remove destination } }

def eventBundleForwarded (c : Context) (endpoint : Endpoint) (bundle : StoredBundleRef) : Outcome Empty Context := do
  let endpoint ← endpoint.getNodeEndpoint
  let c ← (c.retainRemote endpoint bundle).sendStatusReportForwarded w bundle
  (c.update bundle .forwarded none).deliverRemoteBundles w endpoint

def eventBundleForwardingFailed (c : Context) (endpoint : Endpoint) (bundle : StoredBundleRef) :
    Outcome Empty Context := do
  let endpoint ← endpoint.getNodeEndpoint
  let c := c.retainRemote endpoint bundle
  return { c with daemon := { c.daemon with
    remoteBundles := c.daemon.remoteBundles.insert endpoint (bundle :: c.daemon.remoteBundles.list endpoint) } }

/-- The targets that are new, then those that were there before. The sets are
walked in the order of `routes`, which stands for the order of a hash set. -/
def eventRoutingTableUpdate (c : Context) (routes : Table Endpoint NexthopInfo) : Outcome Empty Context :=
  let oldRouteTargets := c.daemon.remoteRoutes.keys
  let c := { c with daemon := { c.daemon with remoteRoutes := routes } }
  c.deliverRoutes w (routes.keys.filter (!oldRouteTargets.contains ·) ++ routes.keys.filter
    (oldRouteTargets.contains ·))

end Context

open Context

def Context.handle (c : Context) : Message → Outcome Empty Context
  | .eventBundleUpdated bundle => c.eventBundleUpdated S w bundle
  | .eventBundleDelivered endpoint bundle => c.eventBundleDelivered w endpoint bundle
  | .eventBundleDeliveryFailed endpoint bundle => .ok (c.eventBundleDeliveryFailed endpoint bundle)
  | .eventClientConnected destination sender => c.eventClientConnected w destination sender
  | .eventClientDisconnected destination => .ok (c.eventClientDisconnected destination)
  | .eventPeerConnected destination sender => c.eventPeerConnected w destination sender
  | .eventPeerDisconnected destination => c.eventPeerDisconnected destination
  | .eventBundleForwarded endpoint bundle => c.eventBundleForwarded w endpoint bundle
  | .eventBundleForwardingFailed endpoint bundle => c.eventBundleForwardingFailed endpoint bundle
  | .eventRoutingTableUpdate routes => c.eventRoutingTableUpdate w routes

def Daemon.handle (d : Daemon) (accepts : List Bool) (message : Message) : Outcome Empty (Daemon × List Command) := do
  let c ← Context.handle S w ⟨d, accepts, []⟩ message
  return (c.daemon, c.sent)

end Dtn.Dtrd.Protocol
