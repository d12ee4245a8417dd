import Dtn.Impl.Dtrd.Agents
import Dtn.Impl.Dtrd.Node

/-!
# The process: a node with its agents for peers and clients

The node agent, the convergence agent, the client agent and the routing agent
with their mailboxes around a node, and what its session agents
(`dtrd/src/tcpclconverganceagent/session_agent.rs`) and the streams of its
clients (`dtrd/src/clientgrpcagent/agent.rs`) tell them. A mailbox is handled in
its order; which agent is next, and when sessions and streams begin and end, is
not known.
-/

namespace Dtn.Dtrd

open Dtn.Bp7

/-- What an established session knows of its peer. The endpoint is `none` if the peer's id is not one. -/
structure ConnectionInfo where
  peerEndpoint : Option Endpoint
  maxBundleSize : UInt64
  deriving DecidableEq

/-- What the agent makes of the node id in the SESS_INIT of the peer. -/
def ConnectionInfo.ofPeer (nodeId : String) (maxBundleSize : UInt64) : ConnectionInfo :=
  ⟨Endpoint.new nodeId, maxBundleSize⟩

/-- What a session and its agent have told. -/
structure Link where
  url : String
  info : Option ConnectionInfo
  registered : Bool
  unregistered : Bool
  deriving DecidableEq

/-- The endpoint that the session is registered with, and unregistered. -/
def Link.node (l : Link) : Option Endpoint := l.info.bind (·.peerEndpoint)

/-- `stops` are the messages to response actors. `connects` are the listeners in
the order in which they were connected, which no agent keeps. -/
structure Process where
  node : Node
  client : Client.Daemon
  clientBox : List Client.Message
  convergence : Convergence.Daemon
  convergenceBox : List Convergence.Message
  nodes : Nodes.Daemon
  nodesBox : List Nodes.Message
  routing : Routing.Daemon
  routingBox : List Routing.Message
  links : Table Nat Link
  stops : List Nat
  connects : List (Endpoint × Nat)

inductive ProcessEvent where
  /-- The storage agent, the protocol agent, a session or a stream does something. -/
  | node (e : NodeEvent)
  /-- A client sends something to the client agent. -/
  | request (message : Client.Message)
  /-- The client agent handles a message. A response actor that is started gets this address. -/
  | client (address : Nat)
  /-- The client's stream is dropped. -/
  | hangUp (client : Nat)
  /-- `Handler<StopListenBundleResponseActor>`. -/
  | stopListener (client : Nat)
  /-- A session begins. -/
  | connect (agent : Nat) (url : String)
  | establish (agent : Nat) (info : ConnectionInfo)
  /-- `StreamHandler<ConnectionInfo>`. -/
  | register (agent : Nat)
  /-- The session ends. -/
  | disconnect (agent : Nat)
  /-- What the task of the session does after its end. -/
  | unregister (agent : Nat)
  /-- The agent ends. -/
  | stopAgent (agent : Nat)
  /-- A connection cannot be made, or one that is to be closed is not there. -/
  | refuse (url : String)
  | convergence
  /-- The timer of the node agent. -/
  | tryConnect
  | nodes
  | routing (order : Routing.Order)

/-- The events of a node that the other agents have no part in. -/
def NodeEvent.isOwn : NodeEvent → Bool
  | .submit _ | .storage | .release | .protocol _ _ | .take _ | .sent _ _ | .failed _ _ | .pass _ | .read _ => true
  | _ => false

/-- The messages of a client, apart from what its stream sends when it is dropped. -/
def Client.Message.isRequest : Client.Message → Bool
  | .clientListenDisconnect _ => false
  | _ => true

namespace Process

variable (S : Serde)

def isFree (p : Process) (address : Nat) : Bool :=
  (p.node.sessions.get address).isNone && (p.node.listeners.get address).isNone

/-- A message arrives in a mailbox. What the node agent wants of the sessions is left to them. -/
def send (p : Process) : Command → Process
  | .protocol message => { p with node := p.node.tell message }
  | .node message => { p with nodesBox := p.nodesBox ++ [message] }
  | .routing message => { p with routingBox := p.routingBox ++ [message] }
  | .agentConnectNode _ | .agentDisconnectNode _ => p
  | .eventClientConnected destination sender => { p with
    node := (p.node.withListener sender ⟨destination, true, [], true, []⟩).tell
      (.eventClientConnected destination sender)
    connects := p.connects ++ [(destination, sender)] }
  | .stopListenBundleResponseActor address => { p with stops := p.stops ++ [address] }

def handleClient (p : Process) (address : Nat) : Outcome Empty Process :=
  match p.clientBox with
  | [] => .ok p
  | message :: clientBox => do
    let (client, commands) ← p.client.handle address message
    return commands.foldl send { p with client, clientBox }

def handleConvergence (p : Process) : Process :=
  match p.convergenceBox with
  | [] => p
  | message :: convergenceBox =>
    let (convergence, commands) := p.convergence.handle message
    commands.foldl send { p with convergence, convergenceBox }

def handleNodes (p : Process) : Process :=
  match p.nodesBox with
  | [] => p
  | message :: nodesBox =>
    let (nodes, commands) := p.nodes.handle message
    commands.foldl send { p with nodes, nodesBox }

def handleRouting (p : Process) (order : Routing.Order) : Process :=
  match p.routingBox with
  | [] => p
  | message :: routingBox =>
    let (routing, messages) := p.routing.handle order message
    (messages.map .protocol).foldl send { p with routing, routingBox }

def withLink (p : Process) (agent : Nat) (l : Link) : Process := { p with links := p.links.insert agent l }

/-- An agent whose session is established registers. It asks to stop if the peer has no endpoint, which `stopping`
declines as long as the session goes on; that the agent ends is an event of its own. -/
def register (p : Process) (agent : Nat) (s : Session) (l : Link) : Option Process := do
  let info ← l.info
  if !s.running || l.registered then none
  else
    match info.peerEndpoint with
    | some node => some { p.withLink agent { l with registered := true } with
        convergenceBox := p.convergenceBox ++ [.clRegisterNode l.url node info.maxBundleSize agent] }
    | none => some p

def unregister (p : Process) (agent : Nat) (s : Session) (l : Link) : Option Process :=
  if s.connected || l.unregistered then none
  else some { p.withLink agent { l with unregistered := true } with
    convergenceBox := p.convergenceBox ++ [.clUnregisterNode l.url l.node] }

/-- The process after an event, `none` if it cannot happen or ends in a panic. -/
def next (p : Process) : ProcessEvent → Option Process
  | .node e => if e.isOwn then (p.node.next S e).map fun node => { p with node } else none
  | .request message => if message.isRequest then some { p with clientBox := p.clientBox ++ [message] } else none
  | .client address => if p.isFree address then (p.handleClient address).toOption else none
  | .hangUp client => do
    let l ← p.node.listeners.get client
    if l.listening then
      let node ← p.node.next S (.hangUp client)
      some { p with node, clientBox := p.clientBox ++ [.clientListenDisconnect l.endpoint] }
    else none
  | .stopListener client =>
    if p.stops.contains client then
      (p.node.next S (.stopListener client)).map fun node => { p with node, stops := p.stops.erase client }
    else none
  | .connect agent url => (p.node.next S (.connect agent)).map fun node =>
    { p with node, links := p.links.insert agent ⟨url, none, false, false⟩ }
  | .establish agent info => do
    let s ← p.node.sessions.get agent
    let l ← p.links.get agent
    if s.connected && l.info.isNone then some (p.withLink agent { l with info := some info }) else none
  | .register agent => do p.register agent (← p.node.sessions.get agent) (← p.links.get agent)
  | .disconnect agent => (p.node.next S (.disconnect agent)).map fun node => { p with node }
  | .unregister agent => do p.unregister agent (← p.node.sessions.get agent) (← p.links.get agent)
  | .stopAgent agent => (p.node.next S (.stopAgent agent)).map fun node => { p with node }
  | .refuse url => some { p with convergenceBox := p.convergenceBox ++ [.clUnregisterNode url none] }
  | .convergence => some p.handleConvergence
  | .tryConnect => some { p with nodesBox := p.nodesBox ++ [.tryConnect] }
  | .nodes => some p.handleNodes
  | .routing order => some (p.handleRouting order)

/-- The other agents around a node that has just started. -/
def start (endpoint : Endpoint) (node : Node) : Process where
  node := node
  client := ⟨endpoint, .empty⟩
  clientBox := []
  convergence := ⟨.empty⟩
  convergenceBox := []
  nodes := ⟨[]⟩
  nodesBox := []
  routing := .default
  routingBox := []
  links := .empty
  stops := []
  connects := []

end Process

end Dtn.Dtrd
