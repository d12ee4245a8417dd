import Dtn.Impl.Dtrd.Routing

/-!
# The agents for peers and clients

The node agent (`dtrd/src/nodeagent/agent.rs`) knows the peers by their URLs,
the convergence agent (`dtrd/src/converganceagent/agent.rs`) is told by the
sessions which peers are there, and the client agent
(`dtrd/src/clientagent/agent.rs`) has the listeners of the clients and passes on
what clients want of nodes and routes. Each handler gives the new state and what
the agent sends, in its order.
-/

namespace Dtn.Dtrd

open Dtn.Bp7

/-! ## The node agent -/

namespace Nodes

inductive NodeConnectionStatus where
  | disconnected
  | connected
  | connecting
  | disconnecting
  deriving DecidableEq

structure Node where
  url : String
  connectionStatus : NodeConnectionStatus
  remoteEndpoint : Option Endpoint
  temporary : Bool
  deriving DecidableEq

structure Daemon where
  nodes : List Node
  deriving DecidableEq

inductive Message where
  | addNode (url : String)
  | removeNode (url : String)
  | notifyNodeConnected (url : String) (endpoint : Endpoint) (maxBundleSize : UInt64)
  | notifyNodeDisconnected (url : String)
  | tryConnect
  deriving DecidableEq

end Nodes

/-- What these agents send. The address of a response actor is its number. -/
inductive Command where
  | protocol (message : Protocol.Message)
  | node (message : Nodes.Message)
  | routing (message : Routing.Message)
  | agentConnectNode (url : String)
  | agentDisconnectNode (url : String)
  /-- A `ListenBundleResponseActor` is started, and the protocol agent gets its address. -/
  | eventClientConnected (destination : Endpoint) (sender : Nat)
  | stopListenBundleResponseActor (address : Nat)
  deriving DecidableEq

namespace Nodes

/-- The first node with this URL. -/
def find (url : String) (nodes : List Node) : Option Node := nodes.find? (·.url = url)

/-- The first node with this URL is replaced, or removed. -/
def change (url : String) (f : Node → Option Node) : List Node → List Node
  | [] => []
  | node :: nodes => if node.url = url then (f node).toList ++ nodes else node :: change url f nodes

/-- A node that the agent tries to connect to again. -/
def Node.isLost (node : Node) : Bool := node.connectionStatus = .disconnected && !node.temporary

namespace Daemon

def notifyNodeConnected (d : Daemon) (url : String) (endpoint : Endpoint) (maxBundleSize : UInt64) :
    Daemon × List Command :=
  let nodes :=
    match find url d.nodes with
    | some _ =>
      change url (fun node => some { node with connectionStatus := .connected, remoteEndpoint := some endpoint })
        d.nodes
    | none => d.nodes ++ [⟨url, .connected, some endpoint, true⟩]
  (⟨nodes⟩, [.routing (.addRoute endpoint .connected endpoint (some maxBundleSize))])

def notifyNodeDisconnected (d : Daemon) (url : String) : Daemon × List Command :=
  match find url d.nodes with
  | some node =>
    (⟨change url (fun node =>
        if node.temporary then none
        else some { node with connectionStatus := .disconnected, remoteEndpoint := none }) d.nodes⟩,
      node.remoteEndpoint.toList.map fun endpoint => .routing (.removeRoute endpoint .connected endpoint))
  | none => (d, [])

def handle (d : Daemon) : Message → Daemon × List Command
  | .addNode url =>
    if (find url d.nodes).isSome then (d, [])
    else (⟨d.nodes ++ [⟨url, .connecting, none, false⟩]⟩, [.agentConnectNode url])
  | .removeNode url =>
    if (find url d.nodes).isSome then
      (⟨change url (fun node => some { node with temporary := true, connectionStatus := .disconnecting }) d.nodes⟩,
        [.agentDisconnectNode url])
    else (d, [])
  | .notifyNodeConnected url endpoint maxBundleSize => d.notifyNodeConnected url endpoint maxBundleSize
  | .notifyNodeDisconnected url => d.notifyNodeDisconnected url
  | .tryConnect =>
    (⟨d.nodes.map fun node => if node.isLost then { node with connectionStatus := .connecting } else node⟩,
      (d.nodes.filter (·.isLost)).map fun node => .agentConnectNode node.url)

end Daemon

end Nodes

/-! ## The convergence agent -/

namespace Convergence

structure Daemon where
  connectedNodes : Table Endpoint Nat
  deriving DecidableEq

inductive Message where
  | clRegisterNode (url : String) (node : Endpoint) (maxBundleSize : UInt64) (sender : Nat)
  | clUnregisterNode (url : String) (node : Option Endpoint)
  deriving DecidableEq

def Daemon.handle (d : Daemon) : Message → Daemon × List Command
  | .clRegisterNode url node maxBundleSize sender =>
    (⟨d.connectedNodes.insert node sender⟩,
      [.node (.notifyNodeConnected url node maxBundleSize), .protocol (.eventPeerConnected node sender)])
  | .clUnregisterNode url (some node) =>
    (⟨d.connectedNodes.remove node⟩,
      [.protocol (.eventPeerDisconnected node), .node (.notifyNodeDisconnected url)])
  | .clUnregisterNode url none => (d, [.node (.notifyNodeDisconnected url)])

end Convergence

/-! ## The client agent -/

namespace Client

structure Daemon where
  endpoint : Endpoint
  connectedClients : Table Endpoint Nat
  deriving DecidableEq

inductive Message where
  | clientListenConnect (destination : Endpoint)
  | clientListenDisconnect (destination : Endpoint)
  | clientAddNode (url : String)
  | clientRemoveNode (url : String)
  | clientAddRoute (target nextHop : Endpoint)
  | clientRemoveRoute (target nextHop : Endpoint)
  deriving DecidableEq

/-- `address` is that of the response actor, if one is started. A client that wants to listen at another node is
refused. -/
def Daemon.handle (d : Daemon) (address : Nat) : Message → Outcome Empty (Daemon × List Command)
  | .clientListenConnect destination => do
    if ← d.endpoint.matchesNode destination then
      return ({ d with connectedClients := d.connectedClients.insert destination address },
        [.eventClientConnected destination address])
    else return (d, [])
  | .clientListenDisconnect destination =>
    return (d, (d.connectedClients.get destination).toList.map .stopListenBundleResponseActor ++
      [.protocol (.eventClientDisconnected destination)])
  | .clientAddNode url => return (d, [.node (.addNode url)])
  | .clientRemoveNode url => return (d, [.node (.removeNode url)])
  | .clientAddRoute target nextHop => return (d, [.routing (.addRoute target .static nextHop none)])
  | .clientRemoveRoute target nextHop => return (d, [.routing (.removeRoute target .static nextHop)])

end Client

end Dtn.Dtrd
