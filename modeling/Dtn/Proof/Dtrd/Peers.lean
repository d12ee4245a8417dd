import Dtn.Proof.Dtrd.Connections
import Dtn.Proof.Dtrd.Views

/-!
# Sessions to a peer

A session tells the convergence agent when it is established and when it has
ended. From there the news goes to the protocol agent, and over the node agent
to the routing agent, and each of them keeps one entry for a node or a URL. So
when one of two sessions to a node ends, the entries are gone although the other
session goes on (`peer_lost`).

`peersAt`, `connectedTo` and `settledPeer` are what the three agents know once
they have handled all messages that are on their way. As long as no session ends
while another one to the same node goes on, this is what the sessions have told
(`Settled`), and the entries are there exactly as long as a session is
(`peers_reachable`).
-/

namespace Dtn.Dtrd

open List Option Dtn.Bp7 Protocol Bool

variable {S : Serde} {endpoint : Endpoint} {found files : List (String × List UInt8)}

/-- Registered, and not unregistered again. -/
def Link.isOpen (l : Link) : Bool := l.registered && !l.unregistered

/-- What a session and its agent have told, against whether it is connected and its agent runs. -/
structure Link.Ok (l : Link) (connected running : Bool) : Prop where
  node : l.registered = true → l.node.isSome = true
  runs : l.registered = true → connected = true → running = true
  ended : l.unregistered = true → connected = false

namespace Process

variable {p p' : Process} {e : ProcessEvent} {a b : Nat} {l l' : Link} {n : Endpoint}

/-- The session goes on. -/
def alive (p : Process) (a : Nat) : Bool := (p.node.sessionStatus a).any (·.1)

/-- The agent of the session has registered it for this node. -/
def RegisteredFor (p : Process) (n : Endpoint) (a : Nat) : Prop :=
  ∃ l, p.links.get a = some l ∧ l.registered = true ∧ l.node = some n

/-- All messages about peers and routes are handled, and every session that has ended has told so. -/
structure Quiet (p : Process) : Prop where
  convergence : p.convergenceBox = []
  nodes : p.nodesBox = []
  routing : p.routingBox = []
  protocol : ∀ n, ∀ m ∈ p.node.protocolBox, m.peer n = none
  ended : ∀ a l, p.links.get a = some l → p.alive a = false → l.unregistered = true

/-- A session unregisters only if no other one is registered under its URL, and none that goes on for its node. A
connection is refused only if no session is registered under its URL. A session registers before it unregisters, and
its agent does not stop before it ends. The protocol agent handles a message only if no connected node is reached over
another one whose agent has stopped. -/
def EndsAlone (p : Process) : ProcessEvent → Prop
  | .unregister a => ∀ l ∈ p.links.get a, ∀ x ∈ p.links.entries, x.1 ≠ a → x.2.isOpen = true →
    x.2.url ≠ l.url ∧ (p.alive x.1 = true → x.2.node ≠ l.node)
  | .refuse url => ∀ x ∈ p.links.entries, x.2.isOpen = true → x.2.url ≠ url
  | .register a => ∀ l ∈ p.links.get a, l.unregistered = false
  | .stopAgent a => ∀ s ∈ p.node.sessions.get a, s.connected = false
  | .node (.protocol _ now) => ∀ m ∈ p.node.protocolBox.head?,
    Direct (p.node.world now) (m.table p.node.protocol) (m.connections p.node.protocol)
  | _ => True

instance (p : Process) (e : ProcessEvent) : Decidable (p.EndsAlone e) := by
  unfold EndsAlone
  split <;> infer_instance

/-! ## Sessions and their links -/

/-- Every link is one of a session, and fits it. -/
def Linked (p : Process) : Prop :=
  ∀ a l, p.links.get a = some l → ∃ connected running,
    p.node.sessionStatus a = some (connected, running) ∧ l.Ok connected running

lemma Linked.withLink (hp : p.Linked) (hlinks : p'.links = p.links.insert a l) (hnode : p'.node = p.node)
    (hstatus : p.node.sessionStatus a = some (connected, running))
    (hl : l.Ok connected running) : p'.Linked := by
  intro b l' hl'
  rw [hlinks, Table.get_insert] at hl'
  rw [hnode]
  split at hl'
  · grind
  · exact hp b l' hl'

lemma Linked.withSession (hp : p.Linked) (hs : ∀ l, p.links.get a = some l → l.Ok s.connected s.running) :
    Linked { p with node := p.node.withSession a s } := by
  intro b l hl
  rw [Node.sessionStatus_withSession]
  split
  · grind
  · exact hp b l hl

lemma Linked.stays (hp : p.Linked) (h : p.node.Stays n') : Linked { p with node := n' } := by
  intro a l hl
  obtain ⟨connected, running, hstatus, hok⟩ := hp a l hl
  rcases h.session a with heq | ⟨running', hbefore, hafter⟩
  · exact ⟨connected, running, heq.trans hstatus, hok⟩
  · exact ⟨false, false, hafter, hok.node, fun _ => nofun, fun _ => rfl⟩

lemma Linked.ok (hp : p.Linked) (hs : p.node.sessions.get a = some s) (hl : p.links.get a = some l) :
    p.node.sessionStatus a = some (s.connected, s.running) ∧ l.Ok s.connected s.running := by
  have hstatus : p.node.sessionStatus a = some (s.connected, s.running) := by
    rw [Node.sessionStatus, hs]
    rfl
  obtain ⟨_, _, hstatus', hok⟩ := hp a l hl
  cases hstatus.symm.trans hstatus'
  exact ⟨hstatus, hok⟩

lemma Step.linked (h : Step S p e p') (hp : p.Linked) (hends : p.EndsAlone e) : p'.Linked := by
  cases h with
  | own he h => exact hp.stays ((Node.next_step h).own he).2
  | @connect a _ hs hl =>
    have hnew : Linked { p with node := p.node.withSession a ⟨true, [], true, []⟩ } :=
      hp.withSession fun l hl => by
        obtain ⟨_, _, hstatus, -⟩ := hp a l hl
        rw [Node.sessionStatus, hs] at hstatus
        cases hstatus
    have hstatus : (p.node.withSession a ⟨true, [], true, []⟩).sessionStatus a = some (true, true) := by
      rw [Node.sessionStatus_withSession, if_pos rfl]
    exact hnew.withLink rfl rfl hstatus ⟨(by rintro ⟨⟩), (by rintro ⟨⟩), (by rintro ⟨⟩)⟩
  | @establish a l _ hl hinfo =>
    obtain ⟨connected, _, hstatus, hok⟩ := hp a l hl
    have hno : l.registered = true → False := fun h => by
      have hnode := hok.node h
      rw [Link.node, hinfo] at hnode
      cases hnode
    exact hp.withLink rfl rfl hstatus ⟨fun h => (hno h).elim, fun h => (hno h).elim, hok.ended⟩
  | @register _ _ _ node _ hs hrunning hl hinfo =>
    obtain ⟨hstatus, hok⟩ := hp.ok hs hl
    refine hp.withLink rfl rfl hstatus ⟨fun _ => ?_, fun _ _ => hrunning, hok.ended⟩
    rw [Link.node, hinfo]
    rfl
  | disconnect hs => exact hp.withSession fun l hl => ⟨(hp.ok hs hl).2.node, fun _ => by rintro ⟨⟩, fun _ => rfl⟩
  | @unregister a s l hs hconnected hl =>
    obtain ⟨hstatus, hok⟩ := hp.ok hs hl
    exact hp.withLink rfl rfl hstatus ⟨hok.node, hok.runs, fun _ => hconnected⟩
  | @stopAgent a s hs =>
    have hended : s.connected = false := hends s hs
    refine hp.withSession fun l hl => ⟨(hp.ok hs hl).2.node, fun _ h => ?_, fun _ => hended⟩
    cases hended.symm.trans h
  | _ => exact hp

/-! ## What is known after all messages -/

/-- What the node agent has not handled yet. -/
def flow (p : Process) : List Nodes.Message := p.nodesBox ++ p.convergenceBox.map (·.toNode)

/-- The endpoints that the node agent will know. -/
def peersAt (p : Process) : String → Option Endpoint := Nodes.known p.nodes.peerAt p.flow

/-- Whether the routing agent will have a `Connected` route. -/
def connectedTo (p : Process) (n : Endpoint) : Bool :=
  settled (p.routing.isConnected n) ((p.routingBox ++ Nodes.routes p.nodes.peerAt p.flow).filterMap (·.connected n))

/-- The connection that the protocol agent will have. -/
def settledPeer (p : Process) (n : Endpoint) : Option Nat :=
  settled (p.node.protocol.remoteConnections.get n)
    ((p.node.protocolBox ++ p.convergenceBox.filterMap (·.toProtocol)).filterMap (·.peer n))

/-- The same is known. -/
structure Same (p p' : Process) : Prop where
  ofUrl : p'.peersAt = p.peersAt
  route : p'.connectedTo = p.connectedTo
  connection : p'.settledPeer = p.settledPeer

/-- Nothing happens that concerns peers. -/
lemma Same.frame (ms : List Message) (ns : List Nodes.Message) (rs : List Routing.Message)
    (hms : ∀ n, ∀ m ∈ ms, m.peer n = none) (hns : ∀ peers, Nodes.known peers ns = peers ∧ Nodes.routes peers ns = [])
    (hrs : ∀ n, ∀ m ∈ rs, m.connected n = none)
    (hprotocol : p'.node.protocol.remoteConnections = p.node.protocol.remoteConnections)
    (hsent : p'.node.protocolBox = p.node.protocolBox ++ ms) (hbox : p'.convergenceBox = p.convergenceBox)
    (hnodes : p'.nodes = p.nodes) (hnodesBox : p'.nodesBox = p.nodesBox ++ ns) (hrouting : p'.routing = p.routing)
    (hroutingBox : p'.routingBox = p.routingBox ++ rs) : Same p p' := by
  refine ⟨?_, funext fun n => ?_, funext fun n => ?_⟩
  · grind [Nodes.known_append, peersAt, flow]
  · simp_all [Nodes.routes_append, connectedTo, flow]
  · rw [settledPeer, settledPeer, hprotocol, hsent, hbox]
    simp only [settled_filterMap_append, settled_filterMap_none _ _ ms (hms n)]

lemma Same.told (ms : List Message) (hms : ∀ n, ∀ m ∈ ms, m.peer n = none)
    (hprotocol : p'.node.protocol.remoteConnections = p.node.protocol.remoteConnections)
    (hsent : p'.node.protocolBox = p.node.protocolBox ++ ms) (hbox : p'.convergenceBox = p.convergenceBox)
    (hnodes : p'.nodes = p.nodes) (hnodesBox : p'.nodesBox = p.nodesBox) (hrouting : p'.routing = p.routing)
    (hroutingBox : p'.routingBox = p.routingBox) : Same p p' :=
  .frame ms [] [] hms (fun _ => ⟨rfl, rfl⟩) (fun _ => forall_mem_nil _) hprotocol hsent hbox hnodes
    (by rw [hnodesBox, append_nil]) hrouting (by rw [hroutingBox, append_nil])

lemma Same.unchanged (hprotocol : p'.node.protocol = p.node.protocol)
    (hsent : p'.node.protocolBox = p.node.protocolBox) (hbox : p'.convergenceBox = p.convergenceBox)
    (hnodes : p'.nodes = p.nodes) (hnodesBox : p'.nodesBox = p.nodesBox) (hrouting : p'.routing = p.routing)
    (hroutingBox : p'.routingBox = p.routingBox) : Same p p' :=
  .told [] (fun _ => forall_mem_nil _) (by rw [hprotocol]) (by rw [hsent, append_nil]) hbox hnodes
    hnodesBox hrouting hroutingBox

lemma Same.admin (m : Client.Message) : Same p { p with
    clientBox := box
    nodesBox := p.nodesBox ++ m.toNode.toList
    routingBox := p.routingBox ++ m.toRouting.toList } := by
  refine .frame [] _ _ (fun _ => forall_mem_nil _) (fun peers => ?_) (fun n r hr => ?_) rfl
    (append_nil _).symm rfl rfl rfl rfl rfl
  · cases m <;> exact ⟨rfl, rfl⟩
  · cases m <;> cases mem_toList.mp hr <;> rfl

lemma Same.tryConnect : Same p { p with nodesBox := p.nodesBox ++ [.tryConnect] } :=
  .frame [] [.tryConnect] [] (fun _ => forall_mem_nil _) (fun _ => ⟨rfl, rfl⟩) (fun _ => forall_mem_nil _) rfl
    (append_nil _).symm rfl rfl rfl rfl (append_nil _).symm

/-- A session tells the convergence agent of a change of its link. -/
def told (p : Process) (links : Table Nat Link) (m : Convergence.Message) : Process :=
  { p with links, convergenceBox := p.convergenceBox ++ [m] }

lemma known_told (p : Process) (links : Table Nat Link) (m : Convergence.Message) :
    (p.told links m).peersAt = m.toNode.peerAt p.peersAt ∧
      (∀ n, (p.told links m).connectedTo n =
        settled (p.connectedTo n) ((m.toNode.routes p.peersAt).filterMap (·.connected n))) ∧
      ∀ n, (p.told links m).settledPeer n = (m.toProtocol.bind (·.peer n)).getD (p.settledPeer n) := by
  have hflow : (p.told links m).flow = p.flow ++ [m.toNode] := by grind [flow, told]
  have hprotocol : (p.told links m).convergenceBox.filterMap (·.toProtocol) =
      p.convergenceBox.filterMap (·.toProtocol) ++ m.toProtocol.toList := by grind [told]
  refine ⟨?_, fun n => ?_, fun n => ?_⟩
  · rw [peersAt, hflow, Nodes.known_append]
    rfl
  · rw [connectedTo, hflow, Nodes.routes_append, ← append_assoc, settled_filterMap_append, Nodes.routes,
      Nodes.routes, append_nil]
    rfl
  · rw [settledPeer, hprotocol, ← append_assoc, settled_filterMap_append, settled_filterMap_toList]
    rfl

/-- What makes the messages of the node agent and the routing agent have their effect. -/
structure Agents (p : Process) : Prop where
  unique : p.nodes.Unique
  removes : ∀ m ∈ p.routingBox, m.Removes
  routing : p.routing.Ok

lemma Step.agents (h : Step S p e p') (hp : p.Agents) (hrouted : p'.Routed) : p'.Agents := by
  cases h with
  | @admin m =>
    refine ⟨hp.unique, fun r hr => (mem_append.mp hr).elim (hp.removes r) fun hr => ?_, hp.routing⟩
    cases m <;> cases mem_toList.mp hr
    · trivial
    · exact nofun
  | @nodes m =>
    refine ⟨Nodes.Daemon.handle_unique hp.unique, fun r hr => (mem_append.mp hr).elim (hp.removes r) fun hr => ?_,
      hp.routing⟩
    rw [Nodes.Daemon.handle_routes] at hr
    cases m with
    | notifyNodeConnected => cases mem_singleton.mp hr; trivial
    | notifyNodeDisconnected =>
      obtain ⟨_, -, rfl⟩ := List.mem_map.mp hr
      exact fun _ => rfl
    | _ => cases hr
  | routing hbox => exact ⟨hp.unique, fun r hr => hp.removes r (hbox ▸ mem_cons_of_mem _ hr), hrouted.routing⟩
  | _ => exact ⟨hp.unique, hp.removes, hp.routing⟩

lemma Same.convergence (hbox : p.convergenceBox = m :: box) :
    Same p { p with
      convergence := (p.convergence.handle m).1
      convergenceBox := box
      nodesBox := p.nodesBox ++ [m.toNode]
      node := { p.node with protocolBox := p.node.protocolBox ++ m.toProtocol.toList } } := by
  have hflow : p.flow = p.nodesBox ++ [m.toNode] ++ box.map (·.toNode) := by
    rw [flow, hbox, append_assoc]
    rfl
  refine ⟨?_, funext fun n => ?_, funext fun n => ?_⟩
  · rw [peersAt, peersAt, hflow]
    rfl
  · rw [connectedTo, connectedTo, hflow]
    rfl
  · grind [settledPeer]

lemma Same.nodes (hp : p.Agents) (hbox : p.nodesBox = m :: box) :
    Same p { p with
      nodes := (p.nodes.handle m).1
      nodesBox := box
      routingBox := p.routingBox ++ (p.nodes.handle m).2.filterMap Command.toRouting } := by
  have hflow : p.flow = m :: (box ++ p.convergenceBox.map (·.toNode)) := by
    rw [flow, hbox]
    rfl
  have hpeers := Nodes.Daemon.handle_peerAt (m := m) hp.unique
  refine ⟨?_, funext fun n => ?_, rfl⟩
  · rw [peersAt, peersAt, hflow, hpeers]
    rfl
  · rw [connectedTo, connectedTo, hflow, hpeers, Nodes.Daemon.handle_routes, append_assoc]
    rfl

lemma peer_routing (d : Routing.Daemon) (order : Routing.Order) (m : Routing.Message) (n : Endpoint) :
    ∀ m' ∈ (d.handle order m).2, m'.peer n = none := by
  intro m' hm'
  obtain ⟨_, rfl⟩ := Routing.Daemon.handle_updates hm'
  rfl

lemma Same.routing (hp : p.Agents) (hbox : p.routingBox = m :: box) :
    Same p { p with
      routing := (p.routing.handle order m).1
      routingBox := box
      node := { p.node with protocolBox := p.node.protocolBox ++ (p.routing.handle order m).2 } } := by
  refine ⟨rfl, funext fun n => ?_, funext fun n => ?_⟩
  · have hchange : (p.routing.handle order m).1.isConnected n = (m.connected n).getD (p.routing.isConnected n) :=
      Routing.Daemon.changeRoutes_isConnected hp.routing (hp.removes m (hbox ▸ mem_cons_self)) n
    rw [connectedTo, connectedTo, hchange, hbox, cons_append, settled_filterMap_cons]
    rfl
  · rw [settledPeer, settledPeer, settled_filterMap_append, settled_filterMap_append, settled_filterMap_append,
      settled_filterMap_none _ _ _ (peer_routing p.routing order m n)]

/-! ## The entries and the sessions -/

/-- The session is registered and not unregistered again. -/
def OpenLink (p : Process) (a : Nat) (l : Link) : Prop := p.links.get a = some l ∧ l.isOpen = true

/-- What is known is what the sessions have told. -/
structure Settled (p : Process) : Prop where
  named : ∀ url n, p.peersAt url = some n → ∃ a l, p.OpenLink a l ∧ l.url = url ∧ l.node = some n
  names : ∀ a l, p.OpenLink a l → (p.peersAt l.url).isSome = true
  routed : ∀ n, p.connectedTo n = true → ∃ a l, p.OpenLink a l ∧ l.node = some n
  route : ∀ a l n, p.OpenLink a l → l.node = some n → p.alive a = true → p.connectedTo n = true
  connected : ∀ n a, p.settledPeer n = some a → ∃ l, p.OpenLink a l ∧ l.node = some n
  connection : ∀ a l n, p.OpenLink a l → l.node = some n → p.alive a = true →
    (∃ b, p.settledPeer n = some b) ∨ ∃ b l', p.OpenLink b l' ∧ l'.node = some n ∧ p.alive b = false

/-- The open links stay and the same is known, apart from connections that are dropped for good reason. -/
lemma Settled.keep (hp : p.Settled) (hopen : ∀ a l, p'.OpenLink a l ↔ p.OpenLink a l) (hurls : p'.peersAt = p.peersAt)
    (hroutes : p'.connectedTo = p.connectedTo) (halive : ∀ a l, p.OpenLink a l → p'.alive a = true → p.alive a = true)
    (hconnected : ∀ n a, p'.settledPeer n = some a → p.settledPeer n = some a)
    (hconnection : ∀ n a, p.settledPeer n = some a → p'.settledPeer n = some a ∨ p.alive a = false) : p'.Settled := by
  refine ⟨fun url n hurl => ?_, fun a l hl => ?_, fun n hn => ?_, fun a l n hl hnode ha => ?_, fun n a hn => ?_,
    fun a l n hl hnode ha => ?_⟩
  · obtain ⟨a, l, hl, h⟩ := hp.named url n (hurls ▸ hurl)
    exact ⟨a, l, (hopen a l).mpr hl, h⟩
  · rw [hurls]
    exact hp.names a l ((hopen a l).mp hl)
  · obtain ⟨a, l, hl, h⟩ := hp.routed n (hroutes ▸ hn)
    exact ⟨a, l, (hopen a l).mpr hl, h⟩
  · have hl := (hopen a l).mp hl
    rw [hroutes]
    exact hp.route a l n hl hnode (halive a l hl ha)
  all_goals grind [hp.connected, hp.connection]

lemma Settled.same (hp : p.Settled) (hopen : ∀ a l, p'.OpenLink a l ↔ p.OpenLink a l) (hsame : Same p p')
    (halive : ∀ a l, p.OpenLink a l → p'.alive a = true → p.alive a = true) : p'.Settled := by
  refine hp.keep hopen hsame.ofUrl hsame.route halive (fun n a h => ?_) fun n a h => .inl ?_
  · rw [← hsame.connection]
    exact h
  · rw [hsame.connection]
    exact h

/-- The session does not go on if its agent does not run. -/
lemma Linked.not_alive (hp : p.Linked) (hl : p.OpenLink a l) (ha : p.node.running a = false) : p.alive a = false := by
  obtain ⟨_, running, hstatus, hok⟩ := hp a l hl.1
  rw [Node.running_eq, hstatus] at ha
  have hstopped : running = false := (or_eq_false_iff.mp ha).1
  rw [alive, hstatus]
  refine eq_false_iff.mpr fun h => ?_
  have hregistered := (and_eq_true_iff.mp hl.2).1
  cases hstopped.symm.trans (hok.runs hregistered h)

lemma alive_stays (h : p.node.Stays n') (a : Nat) : alive { p with node := n' } a = p.alive a := by
  grind [h.session, alive]

lemma peer_of_not_isControl {m : Message} (hm : m.isControl = false) (n : Endpoint) : m.peer n = none := by
  cases m <;> first | rfl | cases hm

lemma Settled.own {e : NodeEvent} (hp : p.Settled) (hlinked : p.Linked) (h : p.node.Own S e n')
    (hstays : p.node.Stays n') (hends : p.EndsAlone (.node e)) : Settled { p with node := n' } := by
  have halive (a : Nat) (l : Link) (_ : p.OpenLink a l) (ha : alive { p with node := n' } a = true) :
      p.alive a = true := alive_stays hstays a ▸ ha
  cases h with
  | @quiet _ _ ms hms hprotocol hbox =>
    have hsame : Same p { p with node := n' } :=
      .told ms (fun n m hm => peer_of_not_isControl (hms m hm) n) (congrArg _ hprotocol) hbox rfl rfl rfl rfl rfl
    exact hp.same (fun _ _ => .rfl) hsame halive
  | @handled _ m box _ now _ hbox hbox' h =>
    have hdirect : Direct (p.node.world now) (m.table p.node.protocol) (m.connections p.node.protocol) :=
      hends m (by rw [hbox]; rfl)
    have hdrops := handle_remoteConnections h hdirect
    have hbefore (n : Endpoint) : p.settledPeer n = settled (m.connections p.node.protocol n)
        ((box ++ p.convergenceBox.filterMap (·.toProtocol)).filterMap (·.peer n)) := by
      rw [settledPeer, hbox, cons_append, settled_filterMap_cons]
      rfl
    have hafter (n : Endpoint) : settledPeer { p with node := n' } n = settled (n'.protocol.remoteConnections.get n)
        ((box ++ p.convergenceBox.filterMap (·.toProtocol)).filterMap (·.peer n)) := by
      rw [settledPeer, hbox']
    refine hp.keep (fun _ _ => .rfl) rfl rfl halive (fun n a hn => ?_) fun n a hn => ?_
    · rw [hbefore]
      rw [hafter] at hn
      exact hdrops.of_settled hn
    · obtain ⟨_, hl, -⟩ := hp.connected n a hn
      cases hrunning : p.node.running a with
      | true =>
        left
        rw [hbefore] at hn
        rw [hafter]
        exact hdrops.settled hn hrunning
      | false => exact .inr (hlinked.not_alive hl hrunning)

/-! ### Sessions begin and end -/

lemma openLink_insert (hl : ∀ l, p.links.get a = some l → l.isOpen = false) (hl' : l'.isOpen = false)
    (hlinks : p'.links = p.links.insert a l') (b : Nat) (l : Link) : p'.OpenLink b l ↔ p.OpenLink b l := by
  grind [OpenLink]

lemma Settled.opens (hp : p.Settled) (hnode : l.node = some n)
    (hopen : ∀ b l', p'.OpenLink b l' ↔ p.OpenLink b l' ∨ b = a ∧ l' = l)
    (hurls : ∀ url, p'.peersAt url = if l.url = url then some n else p.peersAt url)
    (hroutes : ∀ m, p'.connectedTo m = if n = m then true else p.connectedTo m)
    (hpeers : ∀ m, p'.settledPeer m = if n = m then some a else p.settledPeer m)
    (halive : p'.alive = p.alive) : p'.Settled := by
  have hnew : p'.OpenLink a l := (hopen a l).mpr (.inr ⟨rfl, rfl⟩)
  refine ⟨fun url m hurl => ?_, fun b l' hl' => ?_, fun m hm => ?_, fun b l' m hl' hm hb => ?_, fun m b hm => ?_,
    fun b l' m hl' hm hb => ?_⟩
  · grind [hp.named]
  · grind [hp.names]
  · grind [hp.routed]
  · rw [hroutes]
    split
    · rfl
    · rename_i hne
      rcases (hopen b l').mp hl' with hl' | ⟨rfl, rfl⟩
      · exact hp.route b l' m hl' hm (halive ▸ hb)
      · cases hnode.symm.trans hm
        exact absurd rfl hne
  · grind [hp.connected]
  · rw [hpeers, halive]
    split
    · exact .inl ⟨a, rfl⟩
    · grind [hp.connection]

/-- A session is unregistered, if no other one is in its way. -/
lemma Settled.closes (hp : p.Settled) (hl : p.links.get a = some l)
    (halone : ∀ b l', p.OpenLink b l' → b ≠ a → l'.url ≠ l.url ∧ (p.alive b = true → l'.node ≠ l.node))
    (hopen : ∀ b l', p'.OpenLink b l' ↔ p.OpenLink b l' ∧ b ≠ a)
    (hurls : ∀ url, p'.peersAt url = if l.url = url then none else p.peersAt url)
    (hroutes : ∀ m, p'.connectedTo m = if p.peersAt l.url = some m then false else p.connectedTo m)
    (hpeers : ∀ m, p'.settledPeer m = if l.node = some m then none else p.settledPeer m)
    (halive : p'.alive = p.alive) : p'.Settled := by
  have heq {l'} (h : p.OpenLink a l') : l' = l := Option.some.inj (h.1.symm.trans hl)
  -- the endpoint under the URL is the one that this session has told
  have hown {m} (hm : p.peersAt l.url = some m) : p.OpenLink a l ∧ l.node = some m := by grind [hp.named]
  refine ⟨fun url m hurl => ?_, fun b l' hl' => ?_, fun m hm => ?_, fun b l' m hl' hm hb => ?_, fun m b hm => ?_,
    fun b l' m hl' hm hb => ?_⟩
  · grind [hp.named]
  · grind [hp.names]
  · have hnames := hp.names
    have hrouted := hp.routed
    grind [isSome_iff_exists]
  · obtain ⟨hl', hb'⟩ := (hopen b l').mp hl'
    have hb := halive ▸ hb
    have hne : p.peersAt l.url ≠ some m := fun h => (halone b l' hl' hb').2 hb (hm.trans (hown h).2.symm)
    rw [hroutes, if_neg hne]
    exact hp.route b l' m hl' hm hb
  · grind [hp.connected]
  · obtain ⟨hl', hb'⟩ := (hopen b l').mp hl'
    have hb := halive ▸ hb
    have hne : l.node ≠ some m := fun h => (halone b l' hl' hb').2 hb (hm.trans h.symm)
    rw [hpeers, if_neg hne, halive]
    refine (hp.connection b l' m hl' hm hb).imp_right ?_
    rintro ⟨b', l'', hl'', hnode, hdead⟩
    refine ⟨b', l'', (hopen b' l'').mpr ⟨hl'', fun hb => hne ?_⟩, hnode, hdead⟩
    subst hb
    rw [← heq hl'', hnode]

lemma Settled.register (hp : p.Settled) {node : Endpoint} (hl : p.links.get a = some l)
    (hregistered : l.registered = false) (hunregistered : l.unregistered = false) (hnode : l.node = some node) :
    Settled (p.told (p.links.insert a { l with registered := true })
      (.clRegisterNode l.url node maxBundleSize a)) := by
  obtain ⟨hurls, hroutes, hpeers⟩ := known_told p (p.links.insert a { l with registered := true })
    (.clRegisterNode l.url node maxBundleSize a)
  have hclosed : l.isOpen = false := by rw [Link.isOpen, hregistered]; rfl
  have hopen : Link.isOpen { l with registered := true } = true := by rw [Link.isOpen, hunregistered]; rfl
  refine hp.opens (a := a) (l := { l with registered := true }) hnode (fun b l' => ?_) (congrFun hurls) (fun m => ?_)
    (fun m => ?_) rfl
  · change (p.links.insert a _).get b = some l' ∧ _ ↔ _
    rw [Table.get_insert, OpenLink]
    split <;> grind
  · rw [hroutes]
    change settled _ ([Routing.Message.addRoute node .connected node (some maxBundleSize)].filterMap _) = _
    rw [settled_filterMap_cons, Routing.Message.connected]
    split <;> rfl
  · rw [hpeers]
    change (Message.peer m (.eventPeerConnected node a)).getD _ = _
    rw [Message.peer]
    split <;> rfl

lemma Settled.unregister (hp : p.Settled) (hl : p.links.get a = some l) (hends : p.EndsAlone (.unregister a)) :
    Settled (p.told (p.links.insert a { l with unregistered := true }) (.clUnregisterNode l.url l.node)) := by
  obtain ⟨hurls, hroutes, hpeers⟩ := known_told p (p.links.insert a { l with unregistered := true })
    (.clUnregisterNode l.url l.node)
  have hclosed : Link.isOpen { l with unregistered := true } = false := and_false _
  refine hp.closes hl (fun b l' hl' hb => hends l hl (b, l') (Table.mem_of_get hl'.1) hb hl'.2)
    (fun b l' => ?_) (congrFun hurls) (fun m => ?_) (fun m => ?_) rfl
  · change (p.links.insert a _).get b = some l' ∧ _ ↔ _
    rw [Table.get_insert, OpenLink]
    split <;> grind
  · rw [hroutes]
    change settled _
      (((p.peersAt l.url).toList.map fun n => Routing.Message.removeRoute n .connected n).filterMap _) = _
    cases p.peersAt l.url with
    | none => rfl
    | some =>
      rw [toList_some, map_singleton, settled_filterMap_cons, Routing.Message.connected]
      simp only [Option.some.injEq]
      split <;> rfl
  · rw [hpeers]
    change ((l.node.map Message.eventPeerDisconnected).bind (Message.peer m)).getD _ = _
    cases l.node with
    | none => rfl
    | some => grind [Message.peer]

/-- A connection to a URL is refused that nobody is registered under. -/
lemma Settled.refuse (hp : p.Settled) (hends : p.EndsAlone (.refuse url)) :
    Settled (p.told p.links (.clUnregisterNode url none)) := by
  obtain ⟨hurls, hroutes, hpeers⟩ := known_told p p.links (.clUnregisterNode url none)
  have hnone : p.peersAt url = none := by
    refine eq_none_iff_forall_ne_some.mpr fun n hn => ?_
    obtain ⟨a, l, hl, hurl, -⟩ := hp.named url n hn
    exact hends (a, l) (Table.mem_of_get hl.1) hl.2 hurl
  refine hp.same (fun _ _ => .rfl) ⟨?_, funext fun n => ?_, funext hpeers⟩ fun _ _ _ h => h
  · rw [hurls]
    funext u
    change (if url = u then none else p.peersAt u) = _
    split
    · rename_i hu
      rw [← hu, hnone]
    · rfl
  · rw [hroutes]
    change settled _ (((p.peersAt url).toList.map _).filterMap _) = _
    rw [hnone]
    rfl

lemma Step.settled (h : Step S p e p') (hp : p.Settled) (hagents : p.Agents) (hlinked : p.Linked)
    (hends : p.EndsAlone e) : p'.Settled := by
  have hframe {p'} (hsame : Same p p') (hlinks : p'.links = p.links)
      (hstatus : p'.node.sessionStatus = p.node.sessionStatus) : p'.Settled := by
    refine hp.same (fun a l => ?_) hsame fun a l _ h => ?_
    · rw [OpenLink, OpenLink, hlinks]
    · rwa [alive, hstatus] at h
  have hsession {a s s'} (hs : p.node.sessions.get a = some s)
      (hs' : s'.connected = true → s.connected = true) : Settled { p with node := p.node.withSession a s' } := by
    refine hp.same (fun _ _ => .rfl) (.unchanged rfl rfl rfl rfl rfl rfl rfl) fun b l _ h => ?_
    change ((p.node.withSession a s').sessionStatus b).any (·.1) = true at h
    rw [Node.sessionStatus_withSession] at h
    split at h
    · grind [alive, Node.sessionStatus]
    · exact h
  cases h with
  | own he h =>
    obtain ⟨hown, hstays⟩ := (Node.next_step h).own he
    exact hp.own hlinked hown hstays hends
  | listen | unlisten =>
    exact hframe (.told [_] (fun _ => forall_mem_singleton.mpr rfl) rfl rfl rfl rfl rfl rfl rfl) rfl rfl
  | @admin m => exact hframe (.admin m) rfl rfl
  | @connect a _ hs hl =>
    have hnone (l : Link) : p.links.get a ≠ some l := fun h => by
      obtain ⟨_, _, hstatus, -⟩ := hlinked a l h
      rw [Node.sessionStatus, hs] at hstatus
      cases hstatus
    refine hp.same (openLink_insert (fun l h => absurd h (hnone l)) rfl rfl) (.unchanged rfl rfl rfl rfl rfl rfl rfl)
      fun b l hl h => ?_
    have hb : a ≠ b := fun hb => hnone l (hb ▸ hl.1)
    change ((p.node.withSession a ⟨true, [], true, []⟩).sessionStatus b).any (·.1) = true at h
    rwa [Node.sessionStatus_withSession, if_neg hb] at h
  | @establish a l _ hl hinfo =>
    have hclosed : l.registered = false := by
      obtain ⟨_, _, -, hok⟩ := hlinked a l hl
      refine eq_false_iff.mpr fun h => ?_
      have hnode := hok.node h
      rw [Link.node, hinfo] at hnode
      cases hnode
    refine hp.same (openLink_insert (fun l' h => ?_) ?_ rfl) (.unchanged rfl rfl rfl rfl rfl rfl rfl) fun _ _ _ h => h
    all_goals grind [Link.isOpen]
  | register _ _ hl hinfo hregistered =>
    exact hp.register hl hregistered (hends _ hl) (by rw [Link.node, hinfo]; rfl)
  | stopAgent hs => exact hsession hs id
  | disconnect hs => exact hsession hs (by rintro ⟨⟩)
  | unregister _ _ hl => exact hp.unregister hl hends
  | refuse => exact hp.refuse hends
  | convergence hbox => exact hframe (.convergence hbox) rfl rfl
  | tryConnect => exact hframe .tryConnect rfl rfl
  | nodes hbox => exact hframe (.nodes hagents hbox) rfl rfl
  | routing hbox => exact hframe (.routing hagents hbox) rfl rfl
  | _ => exact hframe (.unchanged rfl rfl rfl rfl rfl rfl rfl) rfl rfl

/-! ## Runs -/

lemma start_settled {n : Node} (h : Node.start S endpoint found files = .ok n) :
    (start endpoint n).Agents ∧ (start endpoint n).Linked ∧ (start endpoint n).Settled := by
  have hpeer (k : Endpoint) : (start endpoint n).settledPeer k = none := by
    obtain ⟨_, -, rfl⟩ := Node.start_eq_ok h
    refine settled_filterMap_none _ _ _ fun m hm => ?_
    rcases mem_append.mp hm with hm | hm
    · obtain ⟨_, -, rfl⟩ := List.mem_map.mp hm
      rfl
    · cases hm
  refine ⟨⟨.nil, nofun, .default⟩, nofun, nofun, fun a l h => ?_, fun k h => ?_, fun a l _ h => ?_,
    fun k a h => ?_, fun a l _ h => ?_⟩
  · cases h.1
  · cases h
  · cases h.1
  · cases (hpeer k).symm.trans h
  · cases h.1

lemma reaches_settled (h : (process S endpoint found files).Reaches EndsAlone p) : p.Linked ∧ p.Settled := by
  have hall : p.Agents ∧ p.Routed ∧ p.Linked ∧ p.Settled := by
    refine h.invariant (fun p => p.Agents ∧ p.Routed ∧ p.Linked ∧ p.Settled) ?_ ?_
    · rintro p ⟨n, hn, rfl⟩
      obtain ⟨hagents, hlinked, hsettled⟩ := start_settled hn
      exact ⟨hagents, start_routed hn, hlinked, hsettled⟩
    · rintro p e p' ⟨hagents, hrouted, hlinked, hsettled⟩ hends h
      have h := next_step h
      have hrouted' := h.routed hrouted
      exact ⟨h.agents hagents hrouted', hrouted', h.linked hlinked hends, h.settled hsettled hagents hlinked hends⟩
  exact hall.2.2

lemma Quiet.known (h : p.Quiet) : p.connectedTo = p.routing.isConnected ∧
    p.settledPeer = p.node.protocol.remoteConnections.get := by
  refine ⟨funext fun n => ?_, funext fun n => ?_⟩
  · rw [connectedTo, h.routing, flow, h.nodes, h.convergence]
    rfl
  · grind [h.convergence, h.protocol, settled_filterMap_none, settledPeer]

end Process

/-- As long as no session unregisters while another one to its node goes on, the entries of a node are there exactly as
long as a session to it is, once everything is handled. -/
theorem peers_reachable {p : Process} (h : (process S endpoint found files).Reaches Process.EndsAlone p)
    (hquiet : p.Quiet) (n : Endpoint) :
    ((∃ a, p.RegisteredFor n a ∧ p.alive a = true) →
      (∃ a, p.node.protocol.remoteConnections.get n = some a ∧ p.RegisteredFor n a ∧ p.alive a = true) ∧
        ∃ route ∈ p.routing.routes.list n, route.routeType = .connected ∧ route.nextHop = n) ∧
      ((∀ a, p.RegisteredFor n a → p.alive a = false) →
        p.node.protocol.remoteConnections.get n = none ∧
          ∀ route ∈ p.routing.routes.list n, route.routeType ≠ .connected) := by
  obtain ⟨hlinked, hp⟩ := Process.reaches_settled h
  obtain ⟨hroute, hpeer⟩ := hquiet.known
  -- a link that is open is one of a session that goes on
  have halive {a : Nat} {l : Link} (hl : p.OpenLink a l) : p.alive a = true := by
    refine Decidable.byContradiction fun ha => ?_
    have hended := hquiet.ended a l hl.1 (eq_false_iff.mpr ha)
    have hopen := hl.2
    rw [Link.isOpen, hended, Bool.not_true, Bool.and_false] at hopen
    cases hopen
  have hregistered {a : Nat} {l : Link} (hl : p.OpenLink a l) (hnode : l.node = some n) : p.RegisteredFor n a :=
    ⟨l, hl.1, (and_eq_true_iff.mp hl.2).1, hnode⟩
  constructor
  · rintro ⟨a, ⟨l, hl, hregistered', hnode⟩, ha⟩
    have hopen : p.OpenLink a l := by
      refine ⟨hl, and_eq_true_iff.mpr ⟨hregistered', not_eq_true' _ ▸ eq_false_iff.mpr fun h => ?_⟩⟩
      obtain ⟨connected, running, hstatus, hok⟩ := hlinked a l hl
      rw [Process.alive, hstatus] at ha
      cases (hok.ended h).symm.trans ha
    constructor
    · rcases hp.connection a l n hopen hnode ha with ⟨b, hb⟩ | ⟨b, l', hl', -, hb⟩
      · obtain ⟨l', hl', hnode'⟩ := hp.connected n b hb
        exact ⟨b, congrFun hpeer n ▸ hb, hregistered hl' hnode', halive hl'⟩
      · cases hb.symm.trans (halive hl')
    · have hconnected := hp.route a l n hopen hnode ha
      rw [hroute] at hconnected
      obtain ⟨route, hmem, hroute⟩ := List.any_eq_true.mp hconnected
      have hroute := of_decide_eq_true hroute
      exact ⟨route, hmem, hroute, (Process.reaches_routed h).routing.connected n route hmem hroute⟩
  · intro hnone
    constructor
    · refine eq_none_iff_forall_ne_some.mpr fun a ha => ?_
      obtain ⟨l, hl, hnode⟩ := hp.connected n a (by rw [hpeer]; exact ha)
      cases (hnone a (hregistered hl hnode)).symm.trans (halive hl)
    · intro route hmem hconnected
      have hisConnected : p.routing.isConnected n = true :=
        List.any_eq_true.mpr ⟨route, hmem, decide_eq_true hconnected⟩
      obtain ⟨a, l, hl, hnode⟩ := hp.routed n (by rw [hroute]; exact hisConnected)
      cases (hnone a (hregistered hl hnode)).symm.trans (halive hl)

/-- All messages to the agents are handled. -/
def handleEvents : List ProcessEvent :=
  [.convergence, .convergence, .convergence, .nodes, .nodes, .nodes, .routing .stable,
    .routing .stable, .routing .stable,
    .node (.protocol [] ⟨0⟩), .node (.protocol [] ⟨0⟩), .node (.protocol [] ⟨0⟩), .node (.protocol [] ⟨0⟩),
    .node (.protocol [] ⟨0⟩), .node (.protocol [] ⟨0⟩)]

/-- A session to `ipn:2.0` ends, and another one begins. -/
def reconnectEvents : List ProcessEvent :=
  [.connect 7 "tcpcl://a", .establish 7 ⟨some (.ipn ⟨2, 0⟩), 1000⟩, .register 7, .disconnect 7, .unregister 7,
    .connect 8 "tcpcl://b", .establish 8 ⟨some (.ipn ⟨2, 0⟩), 1000⟩, .register 8] ++ handleEvents

/-- Nothing is on its way, and every session that has ended has unregistered. -/
def Process.isHandled (p : Process) : Bool :=
  p.convergenceBox.isEmpty && p.nodesBox.isEmpty && p.routingBox.isEmpty && p.node.protocolBox.isEmpty &&
    p.links.entries.all fun x => x.2.unregistered || p.alive x.1

lemma Process.isHandled_quiet {p : Process} (h : p.isHandled = true) : p.Quiet := by
  simp only [isHandled, and_eq_true, List.isEmpty_iff, List.all_eq_true] at h
  obtain ⟨⟨⟨⟨hconvergence, hnodes⟩, hrouting⟩, hprotocol⟩, hlinks⟩ := h
  refine ⟨hconvergence, hnodes, hrouting, fun n m hm => ?_, fun a l hl hended => ?_⟩
  · rw [hprotocol] at hm
    cases hm
  · have hl := hlinks (a, l) (Table.mem_of_get hl)
    rwa [hended, Bool.or_false] at hl

instance (p : Process) (n : Endpoint) (a : Nat) : Decidable (p.RegisteredFor n a) :=
  decidable_of_iff ((p.links.get a).any fun l => l.registered && decide (l.node = some n)) <| by
    simp [Process.RegisteredFor, Option.any_eq_true]

theorem peers_reachable_again : ∃ p, (process .plain (.ipn ⟨1, 0⟩) [] []).Reaches Process.EndsAlone p ∧ p.Quiet ∧
    (∃ a, p.node.protocol.remoteConnections.get (.ipn ⟨2, 0⟩) = some a ∧ p.RegisteredFor (.ipn ⟨2, 0⟩) a ∧
      p.alive a = true) ∧
    ∃ route ∈ p.routing.routes.list (.ipn ⟨2, 0⟩), route.routeType = .connected ∧ route.nextHop = .ipn ⟨2, 0⟩ := by
  obtain ⟨p, hreaches, hhandled, hregistered, halive⟩ := Process.reaches_any Process.EndsAlone reconnectEvents
    (fun p => p.isHandled = true ∧ p.RegisteredFor (.ipn ⟨2, 0⟩) 8 ∧ p.alive 8 = true) (by decide +kernel)
  have hquiet := Process.isHandled_quiet hhandled
  exact ⟨p, hreaches, hquiet, (peers_reachable hreaches hquiet _).1 ⟨8, hregistered, halive⟩⟩

/-- The second session to `ipn:2.0` begins before the first one ends. -/
def overlapSessionEvents : List ProcessEvent :=
  [.connect 7 "tcpcl://a", .establish 7 ⟨some (.ipn ⟨2, 0⟩), 1000⟩, .register 7, .connect 8 "tcpcl://b",
    .establish 8 ⟨some (.ipn ⟨2, 0⟩), 1000⟩, .register 8, .disconnect 7, .unregister 7] ++ handleEvents

/-- The second session goes on, but nobody knows of it any more. -/
theorem peer_lost : ∃ p, (process .plain (.ipn ⟨1, 0⟩) [] []).Reaches (fun _ _ => True) p ∧ p.Quiet ∧
    p.RegisteredFor (.ipn ⟨2, 0⟩) 8 ∧ p.alive 8 = true ∧
    p.node.protocol.remoteConnections.get (.ipn ⟨2, 0⟩) = none ∧ p.routing.routes.list (.ipn ⟨2, 0⟩) = [] := by
  obtain ⟨p, hreaches, hhandled, h⟩ := Process.reaches_any (fun _ _ => True) overlapSessionEvents
    (fun p => p.isHandled = true ∧ p.RegisteredFor (.ipn ⟨2, 0⟩) 8 ∧ p.alive 8 = true ∧
      p.node.protocol.remoteConnections.get (.ipn ⟨2, 0⟩) = none ∧ p.routing.routes.list (.ipn ⟨2, 0⟩) = [])
    (by decide +kernel)
  exact ⟨p, hreaches, Process.isHandled_quiet hhandled, h⟩

end Dtn.Dtrd
