import Dtn.Proof.Dtrd.Process
import Dtn.Proof.Dtrd.Routing

/-!
# Routing tables in the protocol agent

The routing agent is the only one that sends tables, and only the node agent has
it enter `Connected` routes (`Routed`). So every table that the protocol agent
gets has the direct route to each next hop, and `deliver_remote_bundles` never
finds a next hop that is not directly connected (`routes_one_hop_closed`).
-/

namespace Dtn.Dtrd

open List Dtn.Bp7 Protocol Routing

/-! ## The calls of `deliver_remote_bundles` -/

namespace Protocol

/-- The branch of `deliver_remote_bundles` with the warning that the next hop is not directly connected. -/
def Daemon.pointsElsewhere (d : Daemon) (destination : Endpoint) : Prop :=
  ∃ route sender nexthopinfo, d.remoteRoutes.get destination = some route ∧
    d.remoteConnections.get route.nextHop = some sender ∧ d.remoteRoutes.get route.nextHop = some nexthopinfo ∧
    route.nextHop ≠ nexthopinfo.nextHop

/-- In `c`, the handler of a message calls `deliver_remote_bundles` for a destination in `c'`. -/
inductive Delivers (S : Serde) (w : World) (c : Context) : Message → Context → Endpoint → Prop
  | updated {r : StoredBundleRef} {node : Endpoint} (hst : r.state = .forwardingQueued)
    (hnode : r.primaryBlock.destinationEndpoint.getNodeEndpoint = (.ok node : Outcome Empty Endpoint)) :
    Delivers S w c (.eventBundleUpdated r) (c.withRemote node (c.daemon.remoteBundles.list node ++ [r]))
      r.primaryBlock.destinationEndpoint
  | peerConnected (hnode : destination.getNodeEndpoint = (.ok destination : Outcome Empty Endpoint)) :
    Delivers S w c (.eventPeerConnected destination sender)
      { c with daemon := { c.daemon with
        remoteConnections := c.daemon.remoteConnections.insert destination sender } } destination
  | forwarded {endpoint node : Endpoint} {r : StoredBundleRef} {c' : Context}
    (hnode : endpoint.getNodeEndpoint = (.ok node : Outcome Empty Endpoint))
    (hreport : (c.retainRemote node r).sendStatusReportForwarded w r = .ok c') :
    Delivers S w c (.eventBundleForwarded endpoint r) (c'.update r .forwarded none) node
  | routes {routes : Table Endpoint NexthopInfo} {before after : List Endpoint} {target : Endpoint} {c' : Context}
    (htargets : routes.keys.filter (!c.daemon.remoteRoutes.keys.contains ·) ++
      routes.keys.filter (c.daemon.remoteRoutes.keys.contains ·) = before ++ target :: after)
    (hbefore : ({ c with daemon := { c.daemon with remoteRoutes := routes } } : Context).deliverRoutes w before =
      .ok c') : Delivers S w c (.eventRoutingTableUpdate routes) c' target

variable {S : Serde} {w : World} {c c' : Context}

/-- The table that is used when a message is handled. -/
def Message.table (d : Daemon) : Message → Table Endpoint NexthopInfo
  | .eventRoutingTableUpdate routes => routes
  | _ => d.remoteRoutes

lemma Move.remoteRoutes (h : Move w c c') : c'.daemon.remoteRoutes = c.daemon.remoteRoutes := by
  cases h with
  | report hd | deliver _ _ _ hd | forward _ _ _ hd | fragment _ _ _ _ hd | rotateLocal _ _ hd | rotateRemote _ _ hd
  | closeLocal _ _ hd | closeRemote _ _ _ hd => rw [hd]

lemma Moves.remoteRoutes (h : Moves w c c') : c'.daemon.remoteRoutes = c.daemon.remoteRoutes := by
  induction h with
  | refl => rfl
  | tail _ h ih => exact h.remoteRoutes.trans ih

lemma Takes.remoteRoutes (h : Takes S w c m c') : c'.daemon.remoteRoutes = m.table c.daemon := by
  cases h <;> rfl

lemma handle_remoteRoutes {d d' : Daemon}
    (h : d.handle S w accepts m = .ok (d', commands)) : d'.remoteRoutes = m.table d := by
  obtain ⟨_, hhandle, h⟩ := Outcome.bind_eq_ok.mp h
  cases h
  obtain ⟨_, _, hreported, htakes, hmoves⟩ := handle_takes hhandle
  rw [hmoves.remoteRoutes, htakes.remoteRoutes, hreported.daemon]

lemma Delivers.remoteRoutes (h : Delivers S w c m c' destination) : c'.daemon.remoteRoutes = m.table c.daemon := by
  cases h with
  | updated | peerConnected => rfl
  | @forwarded _ _ _ c1 _ hreport =>
    change c1.daemon.remoteRoutes = _
    rw [(reported hreport).daemon]
    rfl
  | routes _ hbefore => exact (deliverRoutes_moves hbefore).remoteRoutes

lemma not_pointsElsewhere {d : Daemon} (h : OneHopClosed d.remoteRoutes) (destination : Endpoint) :
    ¬ d.pointsElsewhere destination := by
  rintro ⟨route, _, _, hroute, -, hinfo, hne⟩
  obtain ⟨_, hhop, heq⟩ := h destination route hroute
  cases hhop.symm.trans hinfo
  exact hne heq.symm

end Protocol

/-! ## The tables of a run -/

variable {S : Serde} {endpoint : Endpoint} {found files : List (String × List UInt8)}

/-- The node agent enters only connected nodes. -/
lemma Nodes.Daemon.handle_ok (d : Nodes.Daemon) (m : Nodes.Message) :
    ∀ r ∈ (d.handle m).2.filterMap Command.toRouting, r.Ok := by
  intro r hr
  obtain ⟨command, hcommand, hr⟩ := mem_filterMap.mp hr
  cases command <;> cases hr
  cases m with
  | addNode | removeNode => grind [handle]
  | notifyNodeConnected =>
    cases mem_singleton.mp hcommand
    exact fun _ => rfl
  | notifyNodeDisconnected =>
    rw [handle, notifyNodeDisconnected] at hcommand
    split at hcommand
    · obtain ⟨_, -, heq⟩ := mem_map.mp hcommand
      cases heq
      trivial
    · cases hcommand
  | tryConnect =>
    obtain ⟨_, -, heq⟩ := mem_map.mp hcommand
    cases heq

lemma Client.Message.toRouting_ok (m : Client.Message) : ∀ r ∈ m.toRouting.toList, r.Ok := by
  intro r hr
  cases m <;> cases Option.mem_toList.mp hr
  · exact nofun
  · trivial

namespace Process

variable {p p' : Process} {e : ProcessEvent}

/-- All tables have the direct routes to next hops. -/
structure Routed (p : Process) : Prop where
  routing : p.routing.Ok
  requests : ∀ m ∈ p.routingBox, m.Ok
  sent : ∀ routes, .eventRoutingTableUpdate routes ∈ p.node.protocolBox → OneHopClosed routes
  used : OneHopClosed p.node.protocol.remoteRoutes

lemma Routed.table (hp : p.Routed)
    (hbox : p.node.protocolBox = m :: box) : OneHopClosed (m.table p.node.protocol) := by
  have hm : m ∈ p.node.protocolBox := hbox ▸ mem_cons_self
  cases m with
  | eventRoutingTableUpdate routes => exact hp.sent routes hm
  | _ => exact hp.used

lemma Routed.own {e : NodeEvent} (hp : p.Routed) (h : p.node.Own S e n') : Routed { p with node := n' } := by
  cases h with
  | @quiet _ _ _ hms _ hbox =>
    refine ⟨hp.routing, hp.requests, fun routes hmem => ?_, ?_⟩
    · rw [hbox] at hmem
      rcases mem_append.mp hmem with hmem | hmem
      · exact hp.sent routes hmem
      · cases hms _ hmem
    · grind [hp.used]
  | handled hbox _ h =>
    refine ⟨hp.routing, hp.requests, fun routes hmem => hp.sent routes ?_, ?_⟩
    · grind
    · change OneHopClosed n'.protocol.remoteRoutes
      rw [handle_remoteRoutes h]
      exact hp.table hbox

lemma Step.routed (h : Step S p e p') (hp : p.Routed) : p'.Routed := by
  have hframe {p' : Process} (hrouting : p'.routing = p.routing) (hbox : p'.routingBox = p.routingBox)
      (hprotocol : p'.node.protocol = p.node.protocol) {ms : List Protocol.Message}
      (hms : ∀ routes, .eventRoutingTableUpdate routes ∈ ms → OneHopClosed routes)
      (hsent : p'.node.protocolBox = p.node.protocolBox ++ ms) : p'.Routed := by
    refine ⟨hrouting ▸ hp.routing, hbox ▸ hp.requests, fun routes hmem => ?_, hprotocol ▸ hp.used⟩
    rw [hsent] at hmem
    exact (mem_append.mp hmem).elim (hp.sent routes) (hms routes)
  have hsame {p' : Process} (hrouting : p'.routing = p.routing) (hbox : p'.routingBox = p.routingBox)
      (hprotocol : p'.node.protocol = p.node.protocol) (hsent : p'.node.protocolBox = p.node.protocolBox) : p'.Routed :=
    hframe hrouting hbox hprotocol (fun _ => (not_mem_nil · |>.elim)) (by rw [hsent, append_nil])
  cases h with
  | own he h => exact hp.own ((Node.next_step h).own he).1
  | listen | unlisten => exact hframe rfl rfl rfl (fun _ h => by cases mem_singleton.mp h) rfl
  | @admin m =>
    refine ⟨hp.routing, fun r hr => ?_, hp.sent, hp.used⟩
    exact (mem_append.mp hr).elim (hp.requests r) (m.toRouting_ok r)
  | @convergence m =>
    refine hframe rfl rfl rfl (fun routes h => ?_) rfl
    cases m with
    | clRegisterNode => cases Option.mem_toList.mp h
    | clUnregisterNode =>
      obtain ⟨_, -, heq⟩ := Option.map_eq_some_iff.mp (Option.mem_toList.mp h)
      cases heq
  | @nodes m =>
    refine ⟨hp.routing, fun r hr => ?_, hp.sent, hp.used⟩
    exact (mem_append.mp hr).elim (hp.requests r) (p.nodes.handle_ok m r)
  | @routing m _ _ hbox =>
    have hm : m.Ok := hp.requests m (hbox ▸ mem_cons_self)
    refine ⟨hp.routing.changeRoutes hm, fun r hr => hp.requests r (hbox ▸ mem_cons_of_mem _ hr),
      fun routes hmem => ?_, hp.used⟩
    exact (mem_append.mp hmem).elim (hp.sent routes) (Routing.Daemon.handle_closed hp.routing hm)
  | _ => exact hsame rfl rfl rfl rfl

lemma start_routed (h : Node.start S endpoint found files = .ok n) : (start endpoint n).Routed := by
  obtain ⟨_, -, rfl⟩ := Node.start_eq_ok h
  refine ⟨.default, nofun, fun routes hmem => ?_, nofun⟩
  obtain ⟨_, -, heq⟩ := mem_map.mp hmem
  cases heq

lemma reaches_routed (h : (process S endpoint found files).Reaches allowed p) : p.Routed := by
  refine h.invariant Routed ?_ fun p e p' hp _ h => (next_step h).routed hp
  rintro p ⟨n, hn, rfl⟩
  exact start_routed hn

end Process

/-- Whatever sessions, clients and agents do, each table on its way to the
protocol agent has with a route also the direct one to its next hop, and no
call of `deliver_remote_bundles` finds a next hop that is not directly
connected. -/
theorem routes_one_hop_closed {p : Process} (h : (process S endpoint found files).Reaches (fun _ _ => True) p) :
    (∀ routes, .eventRoutingTableUpdate routes ∈ p.node.protocolBox → OneHopClosed routes) ∧
      ∀ m box accepts now c destination, p.node.protocolBox = m :: box →
        Delivers S (p.node.world now) ⟨p.node.protocol, accepts, []⟩ m c destination →
          ∀ node, ¬ c.daemon.pointsElsewhere node := by
  have hp := Process.reaches_routed h
  refine ⟨hp.sent, fun m box accepts now c destination hbox hdelivers node => ?_⟩
  refine not_pointsElsewhere ?_ node
  rw [hdelivers.remoteRoutes]
  exact hp.table hbox

lemma Routing.shuffle_id (es : List (Endpoint × Protocol.NexthopInfo)) : (id es).Perm es := .refl _

/-- The order in which elements of a hash set were entered. -/
def Routing.Order.stable : Order where
  sort := List.insertionSort (·.routeType.toNat ≤ ·.routeType.toNat)
  sort_perm := perm_insertionSort _
  sort_sorted := pairwise_insertionSort fun r => r.routeType.toNat
  shuffle := id
  shuffle_perm := shuffle_id

/-- `ipn:2.0` connects, and a client adds a route to `ipn:3.0` over it. -/
def routeEvents : List ProcessEvent :=
  [.connect 7 "tcpcl://peer", .establish 7 ⟨some (.ipn ⟨2, 0⟩), 1000⟩, .register 7, .convergence, .nodes,
    .routing .stable, .request (.clientAddRoute (.ipn ⟨3, 0⟩) (.ipn ⟨2, 0⟩)), .client 8, .routing .stable]

/-- The table with the route of the client. -/
theorem routes_one_hop_closed_static : ∃ p routes, (process .plain (.ipn ⟨1, 0⟩) [] []).Reaches (fun _ _ => True) p ∧
    .eventRoutingTableUpdate routes ∈ p.node.protocolBox ∧
    routes.get (.ipn ⟨3, 0⟩) = some ⟨.ipn ⟨2, 0⟩, none⟩ ∧ OneHopClosed routes := by
  obtain ⟨p, hreaches, h⟩ := Process.reaches_any (fun _ _ => True) routeEvents
    (fun p => p.node.protocolBox.any fun
      | .eventRoutingTableUpdate routes => routes.get (.ipn ⟨3, 0⟩) = some ⟨.ipn ⟨2, 0⟩, none⟩
      | _ => false) (by decide +kernel)
  obtain ⟨m, hm, h⟩ := any_eq_true.mp h
  cases m with
  | eventRoutingTableUpdate routes =>
    exact ⟨p, routes, hreaches, hm, of_decide_eq_true h, (routes_one_hop_closed hreaches).1 routes hm⟩
  | _ => cases h

end Dtn.Dtrd
