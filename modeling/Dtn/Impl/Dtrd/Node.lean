import Dtn.Impl.Dtrd.Protocol

/-!
# A node: its agents and their mailboxes

The storage agent and the protocol agent with the messages on their way to
them, the TCPCL session agents
(`dtrd/src/tcpclconverganceagent/session_agent.rs`), and the listeners of the
clients (`ListenBundleResponseActor` in `dtrd/src/clientagent/agent.rs` and
`ListenBundleResponseTransformer` in `dtrd/src/clientgrpcagent/agent.rs`). A
mailbox is handled in its order; which agent is next is not known.
-/

namespace Dtn.Dtrd

open Dtn.Bp7

/-- A `TCPCLSessionAgent`, with the bundles in its mailbox, and its TCPCL
session, with the bundles it was given and has no result for. -/
structure Session where
  running : Bool
  mailbox : List StoredBundleRef
  connected : Bool
  transfers : List StoredBundleRef
  deriving DecidableEq

/-- A `ListenBundleResponseActor`, with the bundles in its mailbox, and the
stream of its client, with the bundles in the channel between them. -/
structure Listener where
  endpoint : Endpoint
  running : Bool
  mailbox : List StoredBundleRef
  listening : Bool
  channel : List StoredBundleRef
  deriving DecidableEq

/-- `store` is the storage agent in the registry, which loads what is
`persisted` when it is started. `unregistered` is what the storage agent that
`main` starts has loaded; nobody has its address, so it gets no messages. -/
structure Node where
  store : Storage.Daemon
  storeBox : List Storage.Message
  protocol : Protocol.Daemon
  protocolBox : List Protocol.Message
  sessions : Table Nat Session
  listeners : Table Nat Listener
  unregistered : List StoredBundle
  persisted : Option (List (String × List UInt8))
  deriving DecidableEq

inductive NodeEvent where
  /-- A session received a bundle, or a client wants to send one. -/
  | submit (message : Storage.Message)
  /-- The convergence, routing or client agent tells the protocol agent something. -/
  | notify (message : Protocol.Message)
  | connect (agent : Nat)
  | listen (client : Nat) (destination : Endpoint)
  /-- The storage agent starts, or handles a message. -/
  | storage
  /-- The storage agent that `main` starts ends. -/
  | release
  /-- The protocol agent handles a message, with these answers of the mailboxes. -/
  | protocol (accepts : List Bool) (now : DtnTime)
  /-- `Handler<AgentForwardBundle>`. -/
  | take (agent : Nat)
  /-- The session has a result for a transfer. -/
  | sent (agent : Nat) (bundle : StoredBundleRef)
  | failed (agent : Nat) (bundle : StoredBundleRef)
  /-- The session ends. -/
  | disconnect (agent : Nat)
  /-- The agent ends. -/
  | stopAgent (agent : Nat)
  /-- `Handler<ClientDeliverBundle>`. -/
  | pass (client : Nat)
  /-- `poll_next` of the client's stream. -/
  | read (client : Nat)
  /-- The client's stream is dropped. -/
  | hangUp (client : Nat)
  /-- `Handler<StopListenBundleResponseActor>`. -/
  | stopListener (client : Nat)
  deriving DecidableEq

/-- The capacity of the channel between a `ListenBundleResponseActor` and its stream. -/
def channelCapacity : Nat := 1

def Storage.Effect.message : Storage.Effect → Option Protocol.Message
  | .eventBundleUpdated bundle => some (.eventBundleUpdated bundle)
  | _ => none

namespace Node

variable (S : Serde)

/-- Whether someone has a strong pointer to this vector. -/
def live (n : Node) (address : Nat) : Bool :=
  n.store.bundles.any (·.bundleData.address = address) || n.unregistered.any (·.bundleData.address = address) ||
    n.sessions.entries.any fun e => e.2.transfers.any (·.bundleData.address = address)

def running (n : Node) (address : Nat) : Bool :=
  (n.sessions.get address).any (·.running) || (n.listeners.get address).any (·.running)

/-- What a handler of the protocol agent finds. -/
def world (n : Node) (now : DtnTime) : Protocol.World := ⟨n.running, n.live, now⟩

def tell (n : Node) (message : Protocol.Message) : Node := { n with protocolBox := n.protocolBox ++ [message] }

def withSession (n : Node) (agent : Nat) (s : Session) : Node := { n with sessions := n.sessions.insert agent s }

def withListener (n : Node) (client : Nat) (l : Listener) : Node := { n with listeners := n.listeners.insert client l }

/-- A message of the protocol agent arrives in a mailbox. -/
def deliver (n : Node) : Protocol.Command → Node
  | .storage message => { n with storeBox := n.storeBox ++ [message] }
  | .clientDeliverBundle client bundle =>
    match n.listeners.get client with
    | some l => n.withListener client { l with mailbox := l.mailbox ++ [bundle] }
    | none => n
  | .agentForwardBundle agent bundle =>
    match n.sessions.get agent with
    | some s => n.withSession agent { s with mailbox := s.mailbox ++ [bundle] }
    | none => n

def handleStorage (n : Node) : Outcome Empty Node :=
  match n.persisted, n.storeBox with
  | some files, _ => do
    let (store, effects) ← Storage.Daemon.started S n.store.endpoint files
    -- the next numbers are those of the other storage agent
    return { n with
      store := { store with nextAddress := store.nextAddress + n.store.nextAddress }
      protocolBox := n.protocolBox ++ effects.filterMap Storage.Effect.message
      persisted := none }
  | none, [] => .ok n
  | none, message :: storeBox => do
    let (store, effects) ← n.store.handle S message
    return { n with store, storeBox, protocolBox := n.protocolBox ++ effects.filterMap Storage.Effect.message }

def handleProtocol (n : Node) (accepts : List Bool) (now : DtnTime) : Outcome Empty Node :=
  match n.protocolBox with
  | [] => .ok n
  | message :: protocolBox => do
    let (protocol, commands) ← n.protocol.handle S (n.world now) accepts message
    return commands.foldl deliver { n with protocol, protocolBox }

/-- The handler of a session agent. It gives up a bundle whose data is gone,
and it stops if the session does not take bundles any more. -/
def take (n : Node) (agent : Nat) (s : Session) : Node :=
  match s.mailbox with
  | [] => n
  | bundle :: mailbox =>
    if (bundle.getBundleData n.live).isNone then n.withSession agent { s with mailbox }
    else if s.connected then n.withSession agent { s with mailbox, transfers := s.transfers ++ [bundle] }
    else n.withSession agent { s with running := false, mailbox := [] }

/-- The result of a transfer, and what the listener of it does. -/
def result (n : Node) (agent : Nat) (s : Session) (bundle : StoredBundleRef) (message : Protocol.Message) : Node :=
  (n.withSession agent { s with transfers := s.transfers.erase bundle }).tell message

/-- The handler of a listener, which waits until the channel has room. -/
def pass (n : Node) (client : Nat) (l : Listener) : Node :=
  match l.mailbox with
  | [] => n
  | bundle :: mailbox =>
    if l.listening then
      if l.channel.length < channelCapacity then
        n.withListener client { l with mailbox, channel := l.channel ++ [bundle] }
      else n
    else (n.withListener client { l with running := false, mailbox := [] }).tell
      (.eventBundleDeliveryFailed l.endpoint bundle)

/-- A bundle whose data is gone is passed over. -/
def read (n : Node) (client : Nat) (l : Listener) : Outcome Empty Node :=
  match l.channel with
  | [] => .ok n
  | bundle :: channel =>
    match bundle.getBundleData n.live with
    | none => .ok (n.withListener client { l with channel })
    | some data => do
      let decoded ← (Bundle.tryFrom S data).unwrap
      let _ ← decoded.payloadData
      return (n.withListener client { l with channel }).tell
        (.eventBundleDelivered bundle.primaryBlock.destinationEndpoint bundle)

/-- The messages that other agents send to the protocol agent. -/
def mayNotify (n : Node) : Protocol.Message → Bool
  | .eventPeerConnected _ sender => (n.sessions.get sender).isSome
  | .eventClientDisconnected _ | .eventPeerDisconnected _ | .eventRoutingTableUpdate _ => true
  | _ => false

/-- The messages that come from outside. -/
def maySubmit : Storage.Message → Bool
  | .storeReceivedBundle _ | .storeNewBundle _ => true
  | _ => false

/-- The node after an event, `none` if it cannot happen or ends in a panic. -/
def next (n : Node) : NodeEvent → Option Node
  | .submit message => if maySubmit message then some { n with storeBox := n.storeBox ++ [message] } else none
  | .notify message => if n.mayNotify message then some (n.tell message) else none
  | .connect agent =>
    if (n.sessions.get agent).isNone && (n.listeners.get agent).isNone then
      some (n.withSession agent ⟨true, [], true, []⟩)
    else none
  | .listen client destination =>
    if (n.sessions.get client).isNone && (n.listeners.get client).isNone &&
        n.protocol.endpoint.matchesNode destination = (.ok true : Outcome Empty Bool) then
      some ((n.withListener client ⟨destination, true, [], true, []⟩).tell (.eventClientConnected destination client))
    else none
  | .storage => (n.handleStorage S).toOption
  | .release => some { n with unregistered := [] }
  | .protocol accepts now => (n.handleProtocol S accepts now).toOption
  | .take agent => (n.sessions.get agent).bind fun s => if s.running then some (n.take agent s) else none
  | .sent agent bundle => (n.sessions.get agent).bind fun s =>
    if s.connected && s.transfers.contains bundle then
      some (n.result agent s bundle (.eventBundleForwarded bundle.primaryBlock.destinationEndpoint bundle))
    else none
  | .failed agent bundle => (n.sessions.get agent).bind fun s =>
    if s.connected && s.transfers.contains bundle then
      some (n.result agent s bundle (.eventBundleForwardingFailed bundle.primaryBlock.destinationEndpoint bundle))
    else none
  | .disconnect agent => (n.sessions.get agent).map fun s =>
    n.withSession agent { s with connected := false, transfers := [] }
  | .stopAgent agent =>
    (n.sessions.get agent).map fun s => n.withSession agent { s with running := false, mailbox := [] }
  | .pass client => (n.listeners.get client).bind fun l => if l.running then some (n.pass client l) else none
  | .read client => (n.listeners.get client).bind fun l => if l.listening then (n.read S client l).toOption else none
  | .hangUp client => (n.listeners.get client).map fun l =>
    n.withListener client { l with listening := false, channel := [] }
  | .stopListener client => (n.listeners.get client).map fun l =>
    n.withListener client { l with running := false, mailbox := [] }

/-- What `main` starts, up to the moment when its storage agent has announced
the files that it found. `files` are those that the other storage agent finds;
nothing is written to the directory before. -/
def start (endpoint : Endpoint) (found files : List (String × List UInt8)) : Outcome Empty Node := do
  let unregistered ← Storage.Daemon.load S files.length found
  return {
    store := ⟨[], endpoint, none, 0, found.length⟩
    storeBox := []
    protocol := .new endpoint
    protocolBox := unregistered.map fun sb => .eventBundleUpdated sb.getRef
    sessions := .empty
    listeners := .empty
    unregistered
    persisted := some files }

end Node

end Dtn.Dtrd
