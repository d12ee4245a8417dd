import Dtn.Impl.Dtrd.Process
import Dtn.Proof.Dtrd.Runs

/-!
# Runs of the process

`process` is the process from its start on, with any events in any order.
`next_step` says what an event does, and `Node.Step.own` what the node does on
its own: it handles one message, or gets messages about bundles, and nobody
stops whose session or stream is there. A run of the process is one of its node
(`reaches_node`).
-/

namespace Dtn.Dtrd

open List Option Dtn.Bp7 Protocol

/-- The process with this endpoint, from its start on the files that its two storage agents find. -/
def process (S : Serde) (endpoint : Endpoint) (found files : List (String × List UInt8)) :
    System Process ProcessEvent where
  init p := ∃ n, Node.start S endpoint found files = .ok n ∧ p = .start endpoint n
  step p e p' := p.next S e = some p'

variable {S : Serde} {endpoint : Endpoint} {found files : List (String × List UInt8)}

/-! ## What the node does on its own -/

/-- The messages that the other agents send to the protocol agent. -/
def Protocol.Message.isControl : Message → Bool
  | .eventClientConnected .. | .eventClientDisconnected _ | .eventPeerConnected .. | .eventPeerDisconnected _
  | .eventRoutingTableUpdate _ => true
  | _ => false

namespace Node

variable {n n' : Node} {e : NodeEvent}

/-- Whether the session is connected, and whether its agent runs. -/
def sessionStatus (n : Node) (a : Nat) : Option (Bool × Bool) :=
  (n.sessions.get a).map fun s => (s.connected, s.running)

/-- Where the client listens, whether its stream is there, and whether its response actor runs. -/
def listenerStatus (n : Node) (a : Nat) : Option (Endpoint × Bool × Bool) :=
  (n.listeners.get a).map fun l => (l.endpoint, l.listening, l.running)

lemma sessionStatus_withSession (n : Node) (a b : Nat) (s : Session) :
    (n.withSession a s).sessionStatus b = if a = b then some (s.connected, s.running) else n.sessionStatus b := by
  rw [sessionStatus, withSession, Table.get_insert]
  split <;> rfl

lemma listenerStatus_withListener (n : Node) (a b : Nat) (l : Listener) :
    (n.withListener a l).listenerStatus b =
      if a = b then some (l.endpoint, l.listening, l.running) else n.listenerStatus b := by
  rw [listenerStatus, withListener, Table.get_insert]
  split <;> rfl

lemma running_eq (n : Node) (a : Nat) :
    n.running a = ((n.sessionStatus a).any (·.2) || (n.listenerStatus a).any (·.2.2)) := by
  rw [running, sessionStatus, listenerStatus, Option.any_map, Option.any_map]

lemma status_deliver (n : Node) (command : Protocol.Command) (a : Nat) :
    (n.deliver command).sessionStatus a = n.sessionStatus a ∧
      (n.deliver command).listenerStatus a = n.listenerStatus a := by
  cases command with
  | storage => exact ⟨rfl, rfl⟩
  | clientDeliverBundle =>
    rw [deliver]
    split
    · rename_i l hl
      rw [listenerStatus_withListener]
      refine ⟨rfl, ?_⟩
      split
      · grind [listenerStatus]
      · rfl
    · exact ⟨rfl, rfl⟩
  | agentForwardBundle =>
    rw [deliver]
    split
    · rename_i s hs
      rw [sessionStatus_withSession]
      refine ⟨?_, rfl⟩
      split
      · grind [sessionStatus]
      · rfl
    · exact ⟨rfl, rfl⟩

lemma status_foldl_deliver (n : Node) (commands : List Protocol.Command) (a : Nat) :
    (commands.foldl deliver n).sessionStatus a = n.sessionStatus a ∧
      (commands.foldl deliver n).listenerStatus a = n.listenerStatus a := by
  induction commands generalizing n with
  | nil => exact ⟨rfl, rfl⟩
  | cons => grind [status_deliver]

/-- Nobody stops whose session or stream is there. -/
structure Stays (n n' : Node) : Prop where
  session : ∀ a, n'.sessionStatus a = n.sessionStatus a ∨
    ∃ running, n.sessionStatus a = some (false, running) ∧ n'.sessionStatus a = some (false, false)
  listener : ∀ a, n'.listenerStatus a = n.listenerStatus a ∨
    ∃ k running, n.listenerStatus a = some (k, false, running) ∧ n'.listenerStatus a = some (k, false, false)

lemma Stays.of_eq (hs : ∀ a, n'.sessionStatus a = n.sessionStatus a)
    (hl : ∀ a, n'.listenerStatus a = n.listenerStatus a) : Stays n n' :=
  ⟨fun a => .inl (hs a), fun a => .inl (hl a)⟩

lemma Stays.tell (h : Stays n n') (m : Message) : Stays n (n'.tell m) := ⟨h.session, h.listener⟩

lemma Stays.withSession (hs : n.sessions.get a = some s) (hconnected : s'.connected = s.connected)
    (hrunning : s'.running = s.running ∨ s.connected = false ∧ s'.running = false) : Stays n (n.withSession a s') := by
  refine ⟨fun b => ?_, fun b => .inl rfl⟩
  rw [sessionStatus_withSession]
  split
  · grind [sessionStatus]
  · exact .inl rfl

lemma Stays.withListener (hl : n.listeners.get a = some l) (hendpoint : l'.endpoint = l.endpoint)
    (hlistening : l'.listening = l.listening)
    (hrunning : l'.running = l.running ∨ l.listening = false ∧ l'.running = false) : Stays n (n.withListener a l') := by
  refine ⟨fun b => .inl rfl, fun b => ?_⟩
  rw [listenerStatus_withListener]
  split
  · grind [listenerStatus]
  · exact .inl rfl

/-- What the protocol agent has seen of an event of the node. -/
inductive Own (S : Serde) (n : Node) : NodeEvent → Node → Prop
  | quiet {e : NodeEvent} {n' : Node} {ms : List Message} (hms : ∀ m ∈ ms, m.isControl = false)
    (hprotocol : n'.protocol = n.protocol) (hbox : n'.protocolBox = n.protocolBox ++ ms) : Own S n e n'
  | handled {n' : Node} {m : Message} {box : List Message} {accepts : List Bool} {now : DtnTime}
    {commands : List Protocol.Command} (hbox : n.protocolBox = m :: box) (hbox' : n'.protocolBox = box)
    (h : n.protocol.handle S (n.world now) accepts m = .ok (n'.protocol, commands)) :
    Own S n (.protocol accepts now) n'

lemma isControl_effects (es : List Storage.Effect) :
    ∀ m ∈ es.filterMap Storage.Effect.message, m.isControl = false := by
  intro m hm
  obtain ⟨effect, -, hm⟩ := mem_filterMap.mp hm
  cases effect <;> cases hm
  rfl

lemma Step.own (h : Step S n e n') (he : e.isOwn = true) : Own S n e n' ∧ Stays n n' := by
  have hquiet {e : NodeEvent} {n' : Node} (hp : n'.protocol = n.protocol) (hbox : n'.protocolBox = n.protocolBox) :
      Own S n e n' := .quiet (forall_mem_nil _) hp (by rw [hbox, append_nil])
  have htold {e : NodeEvent} {n' : Node} {m : Message} (hm : m.isControl = false) (hp : n'.protocol = n.protocol)
      (hbox : n'.protocolBox = n.protocolBox ++ [m]) : Own S n e n' :=
    .quiet (forall_mem_singleton.mpr hm) hp hbox
  cases h with
  | notify | connect | listen | disconnect | stopAgent | hangUp | stopListener => cases he
  | idle | submit | release => exact ⟨hquiet rfl rfl, .of_eq (fun _ => rfl) fun _ => rfl⟩
  | @start _ _ es | @storage _ _ _ es =>
    exact ⟨.quiet (isControl_effects es) rfl rfl, .of_eq (fun _ => rfl) fun _ => rfl⟩
  | @protocol _ box _ _ d commands hbox h =>
    have hstatus := status_foldl_deliver { n with protocol := d, protocolBox := box } commands
    obtain ⟨_, _, _, hn'⟩ := foldl_deliver_eq { n with protocol := d, protocolBox := box }
      commands
    rw [hn'] at hstatus ⊢
    exact ⟨.handled hbox rfl h, .of_eq (fun a => (hstatus a).1) fun a => (hstatus a).2⟩
  | take hs | takeDead hs => exact ⟨hquiet rfl rfl, .withSession hs rfl (.inl rfl)⟩
  | takeClosed hs _ hclosed => exact ⟨hquiet rfl rfl, .withSession hs rfl (.inr ⟨hclosed, rfl⟩)⟩
  | sent hs | failed hs =>
    refine ⟨htold rfl rfl rfl, Stays.tell ?_ _⟩
    exact .withSession hs rfl (.inl rfl)
  | pass hl | readDead hl => exact ⟨hquiet rfl rfl, .withListener hl rfl rfl (.inl rfl)⟩
  | passClosed hl _ hclosed =>
    refine ⟨htold rfl rfl rfl, Stays.tell ?_ _⟩
    exact .withListener hl rfl rfl (.inr ⟨hclosed, rfl⟩)
  | read hl =>
    refine ⟨htold rfl rfl rfl, Stays.tell ?_ _⟩
    exact .withListener hl rfl rfl (.inl rfl)

end Node

/-! ## Events -/

/-- What the convergence agent tells the node agent. -/
def Convergence.Message.toNode : Convergence.Message → Nodes.Message
  | .clRegisterNode url node maxBundleSize _ => .notifyNodeConnected url node maxBundleSize
  | .clUnregisterNode url _ => .notifyNodeDisconnected url

/-- What the convergence agent tells the protocol agent. -/
def Convergence.Message.toProtocol : Convergence.Message → Option Protocol.Message
  | .clRegisterNode _ node _ sender => some (.eventPeerConnected node sender)
  | .clUnregisterNode _ node => node.map .eventPeerDisconnected

/-- What a client wants of the nodes. -/
def Client.Message.toNode : Client.Message → Option Nodes.Message
  | .clientAddNode url => some (.addNode url)
  | .clientRemoveNode url => some (.removeNode url)
  | _ => none

/-- What a client wants of the routes. -/
def Client.Message.toRouting : Client.Message → Option Routing.Message
  | .clientAddRoute target nextHop => some (.addRoute target .static nextHop none)
  | .clientRemoveRoute target nextHop => some (.removeRoute target .static nextHop)
  | _ => none

def Command.toRouting : Command → Option Routing.Message
  | .routing m => some m
  | _ => none

namespace Process

/-- What an event does. -/
inductive Step (S : Serde) (p : Process) : ProcessEvent → Process → Prop
  | idle : Step S p e p
  | own (he : e.isOwn = true) (h : p.node.next S e = some n') :
    Step S p (.node e) { p with node := n' }
  | request (hm : m.isRequest = true) : Step S p (.request m) { p with clientBox := p.clientBox ++ [m] }
  | listen (hbox : p.clientBox = .clientListenConnect k :: box)
    (hs : p.node.sessions.get a = none) (hl : p.node.listeners.get a = none)
    (hmatch : p.client.endpoint.matchesNode k = (.ok true : Outcome Empty Bool)) :
    Step S p (.client a) { p with
      client := { p.client with connectedClients := p.client.connectedClients.insert k a }
      clientBox := box
      node := (p.node.withListener a ⟨k, true, [], true, []⟩).tell (.eventClientConnected k a)
      connects := p.connects ++ [(k, a)] }
  | refuseListener (hbox : p.clientBox = .clientListenConnect k :: box) :
    Step S p (.client a) { p with clientBox := box }
  | unlisten (hbox : p.clientBox = .clientListenDisconnect k :: box) : Step S p (.client a) { p with
      clientBox := box
      node := p.node.tell (.eventClientDisconnected k)
      stops := p.stops ++ (p.client.connectedClients.get k).toList }
  | admin (hbox : p.clientBox = m :: box)
    (hconnect : ∀ k, m ≠ .clientListenConnect k) (hdisconnect : ∀ k, m ≠ .clientListenDisconnect k) :
    Step S p (.client a) { p with
      clientBox := box
      nodesBox := p.nodesBox ++ m.toNode.toList
      routingBox := p.routingBox ++ m.toRouting.toList }
  | hangUp (hl : p.node.listeners.get a = some l) (hlistening : l.listening = true) : Step S p (.hangUp a) { p with
      node := p.node.withListener a { l with listening := false, channel := [] }
      clientBox := p.clientBox ++ [.clientListenDisconnect l.endpoint] }
  | stopListener (hl : p.node.listeners.get a = some l) (ha : a ∈ p.stops) : Step S p (.stopListener a) { p with
      node := p.node.withListener a { l with running := false, mailbox := [] }
      stops := p.stops.erase a }
  | connect (hs : p.node.sessions.get a = none) (hl : p.node.listeners.get a = none) :
    Step S p (.connect a url) { p with
      node := p.node.withSession a ⟨true, [], true, []⟩
      links := p.links.insert a ⟨url, none, false, false⟩ }
  | establish (hl : p.links.get a = some l) (hinfo : l.info = none) :
    Step S p (.establish a info) (p.withLink a { l with info := some info })
  | register {a : Nat} {s : Session} {l : Link} {node : Endpoint} {maxBundleSize : UInt64}
    (hs : p.node.sessions.get a = some s) (hrunning : s.running = true) (hl : p.links.get a = some l)
    (hinfo : l.info = some ⟨some node, maxBundleSize⟩) (hregistered : l.registered = false) :
    Step S p (.register a) { p.withLink a { l with registered := true } with
      convergenceBox := p.convergenceBox ++ [.clRegisterNode l.url node maxBundleSize a] }
  | disconnect (hs : p.node.sessions.get a = some s) :
    Step S p (.disconnect a) { p with node := p.node.withSession a { s with connected := false, transfers := [] } }
  | unregister (hs : p.node.sessions.get a = some s)
    (hconnected : s.connected = false) (hl : p.links.get a = some l) (hunregistered : l.unregistered = false) :
    Step S p (.unregister a) { p.withLink a { l with unregistered := true } with
      convergenceBox := p.convergenceBox ++ [.clUnregisterNode l.url l.node] }
  | stopAgent (hs : p.node.sessions.get a = some s) :
    Step S p (.stopAgent a) { p with node := p.node.withSession a { s with running := false, mailbox := [] } }
  | refuse : Step S p (.refuse url) { p with convergenceBox := p.convergenceBox ++ [.clUnregisterNode url none] }
  | convergence (hbox : p.convergenceBox = m :: box) : Step S p .convergence { p with
      convergence := (p.convergence.handle m).1
      convergenceBox := box
      nodesBox := p.nodesBox ++ [m.toNode]
      node := { p.node with protocolBox := p.node.protocolBox ++ m.toProtocol.toList } }
  | tryConnect : Step S p .tryConnect { p with nodesBox := p.nodesBox ++ [.tryConnect] }
  | nodes (hbox : p.nodesBox = m :: box) : Step S p .nodes { p with
      nodes := (p.nodes.handle m).1
      nodesBox := box
      routingBox := p.routingBox ++ (p.nodes.handle m).2.filterMap Command.toRouting }
  | routing (hbox : p.routingBox = m :: box) : Step S p (.routing order) { p with
      routing := (p.routing.handle order m).1
      routingBox := box
      node := { p.node with protocolBox := p.node.protocolBox ++ (p.routing.handle order m).2 } }

variable {p p' : Process} {e : ProcessEvent}

lemma handleClient_step (hfree : p.isFree a = true) (h : p.handleClient a = .ok p') : Step S p (.client a) p' := by
  unfold handleClient at h
  split at h
  · cases h
    exact .idle
  · rename_i m box hbox
    obtain ⟨⟨client, _⟩, hhandle, h⟩ := Outcome.bind_eq_ok.mp h
    cases h
    cases m with
    | clientListenConnect =>
      obtain ⟨own, hown, hhandle⟩ := Outcome.bind_eq_ok.mp hhandle
      cases own with
      | true =>
        cases hhandle
        simp only [isFree, Bool.and_eq_true, isNone_iff_eq_none] at hfree
        exact .listen hbox hfree.1 hfree.2 hown
      | false =>
        cases hhandle
        exact .refuseListener hbox
    | clientListenDisconnect k =>
      cases hhandle
      have hstep := Step.unlisten (S := S) (a := a) hbox
      cases hget : p.client.connectedClients.get k with
      | none =>
        rwa [hget, toList_none, append_nil] at hstep
      | some =>
        rwa [hget] at hstep
    | _ =>
      cases hhandle
      have hstep := Step.admin (S := S) (a := a) hbox nofun nofun
      simp only [Client.Message.toRouting, Client.Message.toNode, toList_none, append_nil] at hstep
      exact hstep

lemma handleConvergence_step : Step S p .convergence p.handleConvergence := by
  unfold handleConvergence
  split
  · exact .idle
  · rename_i m box hbox
    cases m with
    | clRegisterNode => exact .convergence hbox
    | clUnregisterNode _ node =>
      have hstep := Step.convergence (S := S) hbox
      cases node with
      | none =>
        rwa [Convergence.Message.toProtocol, map_none, toList_none, append_nil] at hstep
      | some => exact hstep

/-- The node agent sends nothing that concerns a node or a client. -/
lemma foldl_send_nodes (d : Nodes.Daemon) (m : Nodes.Message) (p : Process) :
    (d.handle m).2.foldl send p =
      { p with routingBox := p.routingBox ++ (d.handle m).2.filterMap Command.toRouting } := by
  have hconnects (nodes : List Nodes.Node) : ∀ p : Process,
      (nodes.map fun node => Command.agentConnectNode node.url).foldl send p = p ∧
        (nodes.map fun node => Command.agentConnectNode node.url).filterMap Command.toRouting = [] := by
    induction nodes with
    | nil => exact fun p => ⟨rfl, rfl⟩
    | cons _ _ ih => exact ih
  have hnil : p = { p with routingBox := p.routingBox ++ [] } := by rw [append_nil]
  cases m with
  | addNode | removeNode =>
    rw [Nodes.Daemon.handle]
    split <;> exact hnil
  | notifyNodeConnected => rfl
  | notifyNodeDisconnected =>
    rw [Nodes.Daemon.handle, Nodes.Daemon.notifyNodeDisconnected]
    split
    · rename_i node _
      cases node.remoteEndpoint with
      | none => exact hnil
      | some => rfl
    · exact hnil
  | tryConnect =>
    rw [Nodes.Daemon.handle, (hconnects _ p).1, (hconnects _ p).2, append_nil]

lemma handleNodes_step : Step S p .nodes p.handleNodes := by
  unfold handleNodes
  split
  · exact .idle
  · rename_i m box hbox
    change Step S p .nodes ((p.nodes.handle m).2.foldl send { p with nodes := (p.nodes.handle m).1, nodesBox := box })
    rw [foldl_send_nodes]
    exact .nodes hbox

lemma foldl_send_protocol (messages : List Message) (p : Process) :
    (messages.map Command.protocol).foldl send p =
      { p with node := { p.node with protocolBox := p.node.protocolBox ++ messages } } := by
  induction messages generalizing p with
  | nil => rw [append_nil]; rfl
  | cons _ _ ih =>
    rw [map_cons, foldl_cons, ih, append_cons]
    rfl

lemma handleRouting_step : Step S p (.routing order) (p.handleRouting order) := by
  unfold handleRouting
  split
  · exact .idle
  · rename_i m box hbox
    change Step S p (.routing order) (((p.routing.handle order m).2.map .protocol).foldl send
      { p with routing := (p.routing.handle order m).1, routingBox := box })
    rw [foldl_send_protocol]
    exact .routing hbox

lemma next_step (h : p.next S e = some p') : Step S p e p' := by
  cases e with
  | node =>
    rw [next] at h
    split at h <;> [skip; cases h]
    obtain ⟨n', hn', rfl⟩ := map_eq_some_iff.mp h
    exact .own ‹_› hn'
  | request =>
    rw [next] at h
    split at h <;> cases h
    exact .request ‹_›
  | client => grind [handleClient_step, next]
  | hangUp =>
    obtain ⟨l, hl, h⟩ := bind_eq_some_iff.mp h
    split at h <;> [skip; cases h]
    obtain ⟨n', hn', h⟩ := bind_eq_some_iff.mp h
    rw [Node.next, hl] at hn'
    cases hn'
    cases h
    exact .hangUp hl ‹_›
  | stopListener =>
    rw [next] at h
    split at h <;> [rename_i ha; cases h]
    obtain ⟨n', hn', rfl⟩ := map_eq_some_iff.mp h
    obtain ⟨l, hl, rfl⟩ := map_eq_some_iff.mp hn'
    exact .stopListener hl (contains_iff_mem.mp ha)
  | connect =>
    obtain ⟨n', hn', rfl⟩ := map_eq_some_iff.mp h
    rw [Node.next] at hn'
    split at hn' <;> cases hn'
    rename_i hnone
    simp only [Bool.and_eq_true, isNone_iff_eq_none] at hnone
    exact .connect hnone.1 hnone.2
  | establish =>
    obtain ⟨s, hs, h⟩ := bind_eq_some_iff.mp h
    obtain ⟨l, hl, h⟩ := bind_eq_some_iff.mp h
    split at h <;> [rename_i hnone; cases h]
    cases h
    exact .establish hl (isNone_iff_eq_none.mp (Bool.and_eq_true_iff.mp hnone).2)
  | register =>
    obtain ⟨s, hs, h⟩ := bind_eq_some_iff.mp h
    obtain ⟨l, hl, h⟩ := bind_eq_some_iff.mp h
    obtain ⟨⟨node, _⟩, hinfo, h⟩ := bind_eq_some_iff.mp h
    split at h <;> [cases h; rename_i hno]
    simp only [Bool.or_eq_true, Bool.not_eq_true', not_or, Bool.not_eq_false, Bool.not_eq_true] at hno
    cases node with
    | none =>
      cases h
      exact .idle
    | some =>
      cases h
      exact .register hs hno.1 hl hinfo hno.2
  | disconnect =>
    obtain ⟨n', hn', rfl⟩ := map_eq_some_iff.mp h
    obtain ⟨s, hs, rfl⟩ := map_eq_some_iff.mp hn'
    exact .disconnect hs
  | unregister =>
    obtain ⟨s, hs, h⟩ := bind_eq_some_iff.mp h
    obtain ⟨_, hl, h⟩ := bind_eq_some_iff.mp h
    rw [unregister] at h
    split at h <;> [cases h; rename_i hno]
    cases h
    simp only [Bool.or_eq_true, not_or, Bool.not_eq_true] at hno
    exact .unregister hs hno.1 hl hno.2
  | stopAgent =>
    obtain ⟨_, hn', rfl⟩ := map_eq_some_iff.mp h
    obtain ⟨_, hs, rfl⟩ := map_eq_some_iff.mp hn'
    exact .stopAgent hs
  | refuse => cases h; exact .refuse
  | convergence => cases h; exact handleConvergence_step
  | tryConnect => cases h; exact .tryConnect
  | nodes => cases h; exact handleNodes_step
  | routing => cases h; exact handleRouting_step

/-! ## The node in the process -/

lemma Step.sessions (h : Step S p e p') (ha : (p.node.sessionStatus a).isSome) :
    (p'.node.sessionStatus a).isSome := by
  have hwith (b : Nat) (s : Session) : ((p.node.withSession b s).sessionStatus a).isSome := by
    rw [Node.sessionStatus_withSession]
    split <;> [rfl; exact ha]
  cases h with
  | own he h =>
    rcases ((Node.next_step h).own he).2.session a with h | ⟨_, _, h⟩ <;> rw [h] <;> [exact ha; rfl]
  | connect | disconnect | stopAgent => exact hwith _ _
  | _ => exact ha

/-- What makes a message of the other agents one that the node may get. -/
structure Serves (endpoint : Endpoint) (p : Process) : Prop where
  client : p.client.endpoint = endpoint
  registers : ∀ url node maxBundleSize a, .clRegisterNode url node maxBundleSize a ∈ p.convergenceBox →
    (p.node.sessionStatus a).isSome

lemma Step.serves (h : Step S p e p') (hp : p.Serves endpoint) : p'.Serves endpoint := by
  have hkept {box} (hbox : ∀ url node maxBundleSize a,
      .clRegisterNode url node maxBundleSize a ∈ box → (p.node.sessionStatus a).isSome)
      (hp' : p'.convergenceBox = box) (hclient : p'.client.endpoint = p.client.endpoint) : p'.Serves endpoint := by
    refine ⟨hclient.trans hp.client, fun url node maxBundleSize a hmem => h.sessions ?_⟩
    rw [hp'] at hmem
    exact hbox url node maxBundleSize a hmem
  have hlast {m} (hm : ∀ url node maxBundleSize a,
      m = .clRegisterNode url node maxBundleSize a → (p.node.sessionStatus a).isSome) :
      ∀ url node maxBundleSize a, .clRegisterNode url node maxBundleSize a ∈ p.convergenceBox ++ [m] →
        (p.node.sessionStatus a).isSome := by grind [hp.registers]
  cases h with
  | register hs =>
    refine hkept (hlast ?_) rfl rfl
    rintro _ _ _ _ ⟨⟩
    rw [Node.sessionStatus, hs]
    rfl
  | unregister | refuse => exact hkept (hlast fun _ _ _ _ hm => by cases hm) rfl rfl
  | convergence => grind [hp.registers]
  | _ => exact hkept hp.registers rfl rfl

/-- What the other agents do is for the node an event, or nothing. -/
lemma Step.node_next (h : Step S p e p') (hp : p.Serves endpoint) (hn : p.node.protocol.endpoint = endpoint) :
    p'.node = p.node ∨ ∃ e', p.node.next S e' = some p'.node := by
  have htell {m} (hm : p.node.mayNotify m = true) : ∃ e', p.node.next S e' = some (p.node.tell m) :=
    ⟨.notify m, if_pos hm⟩
  cases h with
  | own _ h => exact .inr ⟨_, h⟩
  | @listen _ k a _ hs hl hmatch =>
    refine .inr ⟨.listen a k, ?_⟩
    rw [Node.next, hs, hl, hn, ← hp.client, hmatch]
    rfl
  | unlisten => exact .inr (htell rfl)
  | @hangUp a l hl => exact .inr ⟨.hangUp a, by rw [Node.next, hl]; rfl⟩
  | @stopListener a l hl => exact .inr ⟨.stopListener a, by rw [Node.next, hl]; rfl⟩
  | @connect a _ hs hl => exact .inr ⟨.connect a, by rw [Node.next, hs, hl]; rfl⟩
  | @stopAgent a s hs => exact .inr ⟨.stopAgent a, by rw [Node.next, hs]; rfl⟩
  | @disconnect a s hs => exact .inr ⟨.disconnect a, by rw [Node.next, hs]; rfl⟩
  | @convergence m _ hbox =>
    cases m with
    | clRegisterNode url node maxBundleSize a =>
      have hsession := hp.registers url node maxBundleSize a (hbox ▸ mem_cons_self)
      rw [Node.sessionStatus, isSome_map] at hsession
      exact .inr (htell hsession)
    | clUnregisterNode _ node =>
      cases node with
      | none =>
        left
        simp [Convergence.Message.toProtocol]
      | some => exact .inr (htell rfl)
  | @routing m _ order =>
    rw [Routing.Daemon.handle]
    dsimp only
    split
    · cases Routing.Daemon.sendRouteUpdate order (p.routing.changeRoutes m).1 with
      | none =>
        left
        simp
      | some => exact .inr (htell rfl)
    · left
      simp
  | _ => exact .inl rfl

end Process

/-- What happens in the process happens to its node as well, as long as what is stored fits into memory. -/
theorem reaches_node
    (h : (process S endpoint found files).Reaches (fun p e => ∀ p', p.next S e = some p' → p'.node.store.Fits) p) :
    (node S endpoint found files).Reaches (fun _ _ => True) p.node := by
  have hsimulated : ∃ n, (node S endpoint found files).Reaches (fun _ _ => True) n ∧ p.node = n ∧ p.Serves endpoint :=
    h.simulated (fun p n => p.node = n ∧ p.Serves endpoint) ?_ ?_
  · obtain ⟨n, hn, rfl, -⟩ := hsimulated
    exact hn
  · rintro p ⟨n, hn, rfl⟩
    exact ⟨n, hn, rfl, rfl, nofun⟩
  · rintro p e p' n ⟨rfl, hp⟩ hn hfits hnext
    have hstep := Process.next_step hnext
    have hkept := Node.reaches_kept hn
    refine ⟨p'.node, ?_, rfl, hstep.serves hp⟩
    rcases hstep.node_next hp hkept.sound.knows.context.endpoint with heq | ⟨e', he'⟩
    · exact .inl heq
    · exact .inr ⟨e', trivial, hfits p' hnext, he'⟩

/-- The process after some events, if all of them are allowed. -/
def Process.run (S : Serde) (allowed : Process → ProcessEvent → Prop) [∀ p e, Decidable (allowed p e)] (p : Process)
    (events : List ProcessEvent) : Option Process :=
  events.foldlM (fun p e => if allowed p e then p.next S e else none) p

/-- The agents around `emptyNode`. -/
def emptyProcess : Process := .start (.ipn ⟨1, 0⟩) emptyNode

lemma Process.reaches_any (allowed : Process → ProcessEvent → Prop) [∀ p e, Decidable (allowed p e)]
    (events : List ProcessEvent) (P : Process → Prop) [DecidablePred P]
    (h : (emptyProcess.run .plain allowed events).any (P ·) = true) :
    ∃ p, (process .plain (.ipn ⟨1, 0⟩) [] []).Reaches allowed p ∧ P p := by
  have hinit : (process .plain (.ipn ⟨1, 0⟩) [] []).init emptyProcess := ⟨emptyNode, start_emptyNode, rfl⟩
  refine (System.Reaches.init hinit).foldlM_any (fun p e p' h => ?_) _ _ h
  split at h <;> [exact ⟨‹_›, h⟩; cases h]

end Dtn.Dtrd
