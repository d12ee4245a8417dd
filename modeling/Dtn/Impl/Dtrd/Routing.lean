import Dtn.Impl.Dtrd.Protocol

/-!
# The routing agent (`dtrd/src/routingagent/agent.rs`)

The agent keeps the routes to each target and tells the protocol agent which of
them it prefers. The routes to a target are a hash set, sorted with a sort that
is not stable, and the table it sends is a hash map; `Order` is how they come
out.
-/

namespace Dtn.Dtrd.Routing

open Dtn.Bp7 Protocol

inductive RouteType where
  | connected
  | static
  deriving DecidableEq

/-- The number of a type, which is its order. -/
def RouteType.toNat : RouteType → Nat
  | connected => 0
  | static => 1

structure RouteEntry where
  routeType : RouteType
  nextHop : Endpoint
  maxBundleSize : Option UInt64
  deriving DecidableEq

/-- `PartialEq`, which leaves out the size. -/
def RouteEntry.eq (e other : RouteEntry) : Bool := e.routeType = other.routeType && e.nextHop = other.nextHop

structure RouteStatus where
  target : Endpoint
  nextHop : Endpoint
  routeType : RouteType
  preferred : Bool
  available : Bool
  maxBundleSize : Option UInt64
  deriving DecidableEq

/-- A hash set is the list of its elements. -/
structure Daemon where
  routes : Table Endpoint (List RouteEntry)
  lastRoutingTable : Option (Table Endpoint NexthopInfo)
  deriving DecidableEq

def Daemon.default : Daemon := ⟨.empty, none⟩

inductive Message where
  | addRoute (target : Endpoint) (routeType : RouteType) (nextHop : Endpoint) (maxBundleSize : Option UInt64)
  | removeRoute (target : Endpoint) (routeType : RouteType) (nextHop : Endpoint)
  deriving DecidableEq

/-- The routes to a target by their type, and the entries of a table, each in some order. -/
structure Order where
  sort : List RouteStatus → List RouteStatus
  sort_perm : ∀ rs, (sort rs).Perm rs
  sort_sorted : ∀ rs, (sort rs).Pairwise (·.routeType.toNat ≤ ·.routeType.toNat)
  shuffle : List (Endpoint × NexthopInfo) → List (Endpoint × NexthopInfo)
  shuffle_perm : ∀ es, (shuffle es).Perm es

variable (order : Order)

namespace Daemon

/-- The targets that are connected. -/
def getConnectedRoutes (d : Daemon) : List Endpoint :=
  d.routes.entries.filterMap fun (target, routes) =>
    if routes.any (·.routeType = .connected) then some target else none

def status (connectedRoutes : List Endpoint) (target : Endpoint) (r : RouteEntry) : RouteStatus where
  target := target
  nextHop := r.nextHop
  routeType := r.routeType
  preferred := false
  available := r.routeType = .connected || connectedRoutes.contains r.nextHop
  maxBundleSize := r.maxBundleSize

/-- The first route is preferred if it is available. -/
def prefer : List RouteStatus → List RouteStatus
  | [] => []
  | r :: routes => if r.available then { r with preferred := true } :: routes else r :: routes

def getRoutes (d : Daemon) : List RouteStatus :=
  d.routes.entries.flatMap fun (target, routes) =>
    prefer (order.sort (routes.map (status d.getConnectedRoutes target)))

def preferredRoute (rs : RouteStatus) : Option (Endpoint × NexthopInfo) :=
  if rs.preferred then some (rs.target, ⟨rs.nextHop, rs.maxBundleSize⟩) else none

/-- The table that is sent, if any. -/
def sendRouteUpdate (d : Daemon) : Option (Table Endpoint NexthopInfo) :=
  let routes := ⟨order.shuffle (Table.collect ((d.getRoutes order).filterMap preferredRoute)).entries⟩
  if d.lastRoutingTable.any (·.same routes) then none else some routes

/-- `HashSet::insert` and `HashSet::remove`, with whether they changed the set. An entry that is there already stays. -/
def changeRoutes (d : Daemon) : Message → Daemon × Bool
  | .addRoute target routeType nextHop maxBundleSize =>
    let routes := d.routes.list target
    let entry := ⟨routeType, nextHop, maxBundleSize⟩
    if routes.any (·.eq entry) then ({ d with routes := d.routes.insert target routes }, false)
    else ({ d with routes := d.routes.insert target (routes ++ [entry]) }, true)
  | .removeRoute target routeType nextHop =>
    let routes := d.routes.list target
    let entryToRemove := ⟨routeType, nextHop, none⟩
    ({ d with routes := d.routes.insert target (routes.filter (!·.eq entryToRemove)) },
      routes.any (·.eq entryToRemove))

def handle (d : Daemon) (message : Message) : Daemon × List Protocol.Message :=
  let (d, changed) := d.changeRoutes message
  (d, if changed then (d.sendRouteUpdate order).toList.map .eventRoutingTableUpdate else [])

end Daemon

end Dtn.Dtrd.Routing
