import Dtn.Proof.Dtrd.Tables

/-!
# What the node agent and the routing agent know of peers

Of the node agent's state only the endpoint under each URL matters for the
routes it enters and removes (`peerAt`), and of the routing agent's state only
which nodes are connected (`isConnected`). Each message changes these in a
simple way (`handle_peerAt`, `changeRoutes_isConnected`), so what they are after
all messages in the mailboxes can be written down (`known`, `routes`).
-/

namespace Dtn.Dtrd

open List Option Dtn.Bp7

/-! ## The node agent -/

namespace Nodes

/-- The endpoint that is known under a URL. -/
def Daemon.peerAt (d : Daemon) (url : String) : Option Endpoint := (find url d.nodes).bind (·.remoteEndpoint)

/-- No two nodes have the same URL. -/
def Daemon.Unique (d : Daemon) : Prop := (d.nodes.map (·.url)).Nodup

/-- What a message makes of the endpoints. -/
def Message.peerAt (peers : String → Option Endpoint) : Message → String → Option Endpoint
  | .notifyNodeConnected url endpoint _ => fun u => if url = u then some endpoint else peers u
  | .notifyNodeDisconnected url => fun u => if url = u then none else peers u
  | _ => peers

/-- What the routing agent is told. -/
def Message.routes (peers : String → Option Endpoint) : Message → List Routing.Message
  | .notifyNodeConnected _ endpoint maxBundleSize => [.addRoute endpoint .connected endpoint (some maxBundleSize)]
  | .notifyNodeDisconnected url => (peers url).toList.map fun endpoint => .removeRoute endpoint .connected endpoint
  | _ => []

section Lists

variable {url u : String} {f : Node → Option Node} {node : Node} {nodes : List Node}

lemma find_eq_none : find url nodes = none ↔ url ∉ nodes.map (·.url) := by simp [find]

lemma find_cons : find u (node :: nodes) = if node.url = u then some node else find u nodes := by grind [find]

lemma find_map (hg : ∀ n, (g n).url = n.url) : find u (nodes.map g) = (find u nodes).map g := by
  induction nodes with
  | nil => rfl
  | cons => grind [find_cons]

lemma find_append (h : find node.url nodes = none) :
    find u (nodes ++ [node]) = if node.url = u then some node else find u nodes := by grind [find]

lemma find_change (hf : ∀ n n', f n = some n' → n'.url = n.url) (hnodes : (nodes.map (·.url)).Nodup) :
    find u (change url f nodes) = if url = u then (find url nodes).bind f else find u nodes := by
  induction nodes with
  | nil => split <;> rfl
  | cons node =>
    obtain ⟨_, hnodes⟩ := nodup_cons.mp hnodes
    rw [change, find_cons, find_cons]
    split
    · rename_i hurl
      rw [bind_some]
      cases hfn : f node with
      | none => grind [find_eq_none]
      | some => grind [find_cons]
    · grind [find_cons]

lemma sublist_change (hf : ∀ n n', f n = some n' → n'.url = n.url) :
    ((change url f nodes).map (·.url)).Sublist (nodes.map (·.url)) := by
  induction nodes with
  | nil => exact .slnil
  | cons node _ ih =>
    rw [change]
    split
    · cases hfn : f node with
      | none => exact sublist_cons_self ..
      | some => grind
    · exact ih.cons_cons _

end Lists

namespace Daemon

variable {d : Daemon} {m : Message}

lemma handle_unique (hd : d.Unique) : (d.handle m).1.Unique := by
  have happend (node : Node) (h : find node.url d.nodes = none) : Unique ⟨d.nodes ++ [node]⟩ := by
    rw [Unique, map_append]
    refine nodup_append.mpr ⟨hd, pairwise_singleton .., fun u hu u' hu' heq => ?_⟩
    rw [map_singleton, mem_singleton] at hu'
    exact find_eq_none.mp h (hu' ▸ heq ▸ hu)
  have hchange {url f} (hf : ∀ n n', f n = some n' → n'.url = n.url) :
      Unique ⟨change url f d.nodes⟩ := List.Nodup.sublist (sublist_change hf) hd
  cases m with
  | addNode => grind [not_isSome_iff_eq_none, handle]
  | removeNode => grind [handle]
  | notifyNodeConnected => grind [handle, notifyNodeConnected]
  | notifyNodeDisconnected => grind [handle, notifyNodeDisconnected]
  | tryConnect =>
    have hurls : (d.nodes.map fun node =>
        if node.isLost then { node with connectionStatus := .connecting } else node).map (·.url) =
          d.nodes.map (·.url) := by grind [map_congr_left]
    rw [handle, Unique, hurls]
    exact hd

lemma handle_routes : (d.handle m).2.filterMap Command.toRouting = m.routes d.peerAt := by
  cases m with
  | addNode | removeNode =>
    rw [handle]
    split <;> rfl
  | notifyNodeConnected => rfl
  | notifyNodeDisconnected =>
    rw [handle, notifyNodeDisconnected, Message.routes, peerAt]
    split
    · rename_i node hnode
      rw [hnode, bind_some]
      cases node.remoteEndpoint <;> rfl
    · rename_i hnode
      rw [hnode]
      rfl
  | tryConnect =>
    rw [handle, filterMap_map]
    exact filterMap_eq_nil_iff.mpr fun _ _ => rfl

lemma handle_peerAt (hd : d.Unique) : (d.handle m).1.peerAt = m.peerAt d.peerAt := by
  funext u
  have happend (node : Node) (h : find node.url d.nodes = none) (u : String) :
      peerAt ⟨d.nodes ++ [node]⟩ u = if node.url = u then node.remoteEndpoint else d.peerAt u := by
    rw [peerAt, find_append h]
    split <;> rfl
  have hchange {url f} (hf : ∀ n n', f n = some n' → n'.url = n.url) (u : String) :
      peerAt ⟨change url f d.nodes⟩ u =
        if url = u then (find url d.nodes).bind fun n => (f n).bind (·.remoteEndpoint) else d.peerAt u := by
    rw [peerAt, find_change hf hd]
    split
    · rw [bind_assoc]
    · rfl
  cases m with
  | addNode url =>
    rw [handle]
    split
    · rfl
    · rename_i hnone
      have hnone := not_isSome_iff_eq_none.mp hnone
      refine (happend ⟨url, .connecting, none, false⟩ hnone u).trans ?_
      split
      · rename_i hu
        change none = d.peerAt u
        rw [peerAt, ← hu, hnone]
        rfl
      · rfl
  | removeNode =>
    rw [handle]
    split
    · refine (hchange (fun n n' h => by cases h; rfl) u).trans ?_
      split
      · rename_i hu
        rw [← hu]
        rfl
      · rfl
    · rfl
  | notifyNodeConnected => grind [handle, notifyNodeConnected, Message.peerAt]
  | notifyNodeDisconnected => grind [handle, notifyNodeDisconnected, Message.peerAt, peerAt]
  | tryConnect =>
    have hurl (node : Node) :
        (if node.isLost then { node with connectionStatus := .connecting } else node : Node).url = node.url := by
      split <;> rfl
    change (find u (d.nodes.map _)).bind _ = (find u d.nodes).bind _
    rw [find_map hurl, bind_map]
    refine congrArg _ (funext fun node => ?_)
    dsimp only [Function.comp]
    split <;> rfl

end Daemon

/-! ### All messages -/

/-- The endpoints after some messages. -/
def known (peers : String → Option Endpoint) (ms : List Message) : String → Option Endpoint :=
  ms.foldl (fun peers m => m.peerAt peers) peers

/-- What the routing agent is told by some messages. -/
def routes (peers : String → Option Endpoint) : List Message → List Routing.Message
  | [] => []
  | m :: ms => m.routes peers ++ routes (m.peerAt peers) ms

lemma known_append (peers : String → Option Endpoint) (ms ms' : List Message) :
    known peers (ms ++ ms') = known (known peers ms) ms' := foldl_append

lemma routes_append (peers : String → Option Endpoint) (ms ms' : List Message) :
    routes peers (ms ++ ms') = routes peers ms ++ routes (known peers ms) ms' := by
  induction ms generalizing peers with
  | nil => rfl
  | cons _ _ ih => rw [cons_append, routes, routes, ih, append_assoc]; rfl

end Nodes

/-! ## The routing agent -/

namespace Routing

/-- There is a `Connected` route to this node. -/
def Daemon.isConnected (d : Daemon) (n : Endpoint) : Bool := (d.routes.list n).any (·.routeType = .connected)

/-- What a message says about the `Connected` route to a node. -/
def Message.connected (n : Endpoint) : Message → Option Bool
  | .addRoute target .connected _ _ => if target = n then some true else none
  | .removeRoute target .connected _ => if target = n then some false else none
  | _ => none

/-- A `Connected` route that is removed is one to the next hop. -/
def Message.Removes : Message → Prop
  | .addRoute .. => True
  | .removeRoute target routeType nextHop => routeType = .connected → nextHop = target

lemma Daemon.changeRoutes_isConnected {d : Daemon} (hd : d.Ok) (hm : m.Removes) (n : Endpoint) :
    (d.changeRoutes m).1.isConnected n = (m.connected n).getD (d.isConnected n) := by
  have hinsert (target : Endpoint) (routes : List RouteEntry) :
      isConnected { d with routes := d.routes.insert target routes } n =
        if target = n then routes.any (·.routeType = .connected) else d.isConnected n := by
    rw [isConnected, Table.list_insert]
    split <;> rfl
  cases m with
  | addRoute target routeType =>
    rw [changeRoutes]
    split
    · rename_i hany
      rw [hinsert]
      by_cases ht : target = n
      · subst ht
        rw [if_pos rfl]
        cases routeType with
        | connected =>
          -- the entry is there already
          rw [Message.connected, if_pos rfl, getD_some]
          obtain ⟨r, hr, heq⟩ := List.any_eq_true.mp hany
          exact List.any_eq_true.mpr ⟨r, hr, (Bool.and_eq_true_iff.mp heq).1⟩
        | static => rfl
      · rw [if_neg ht]
        cases routeType <;> simp [Message.connected, ht]
    · rw [hinsert, any_append]
      by_cases ht : target = n
      · subst ht
        cases routeType <;> simp [Message.connected, isConnected]
      · cases routeType <;> simp [Message.connected, ht]
  | removeRoute target routeType =>
    rw [changeRoutes, hinsert]
    by_cases ht : target = n
    · subst ht
      rw [if_pos rfl]
      cases routeType with
      | connected =>
        rw [Message.connected, if_pos rfl, getD_some, hm rfl]
        refine List.any_eq_false.mpr fun r hr => ?_
        obtain ⟨hr, hne⟩ := mem_filter.mp hr
        intro hconnected
        have hconnected := of_decide_eq_true hconnected
        have hhop := hd.connected target r hr hconnected
        simp [RouteEntry.eq, hconnected, hhop] at hne
      | static =>
        rw [isConnected, List.any_filter]
        refine congrArg₂ List.any rfl (funext fun r => ?_)
        cases hr : r.routeType <;> simp [RouteEntry.eq, hr]
    · rw [if_neg ht]
      cases routeType <;> simp [Message.connected, ht]

end Routing

end Dtn.Dtrd
