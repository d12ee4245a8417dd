import Mathlib.Data.List.Sort
import Dtn.Impl.Dtrd.Agents

/-!
# The tables of the routing agent

Only connected nodes are entered as `Connected`, with themselves as next hop
(`Daemon.Ok`), and these routes come first. So each table that is sent has with
a route also the direct one to its next hop (`sendRouteUpdate_closed`).
-/

namespace Dtn.Dtrd.Routing

open List Option Dtn.Bp7 Protocol Table

/-- With each route there is one from its next hop to itself. -/
def OneHopClosed (routes : Table Endpoint NexthopInfo) : Prop :=
  ∀ target info, routes.get target = some info →
    ∃ hop, routes.get info.nextHop = some hop ∧ hop.nextHop = info.nextHop

/-- A `Connected` route is one to the next hop. -/
def Message.Ok : Message → Prop
  | .addRoute target routeType nextHop _ => routeType = .connected → nextHop = target
  | .removeRoute .. => True

lemma pairwise_insertionSort (f : RouteStatus → Nat) (rs : List RouteStatus) :
    (rs.insertionSort (f · ≤ f ·)).Pairwise (f · ≤ f ·) :=
  haveI : Std.Total (fun r r' : RouteStatus => f r ≤ f r') := ⟨fun _ _ => Nat.le_total _ _⟩
  haveI : IsTrans RouteStatus (f · ≤ f ·) := ⟨fun _ _ _ => Nat.le_trans⟩
  List.pairwise_insertionSort _ rs

namespace Daemon

variable {d : Daemon} {order : Order} {target : Endpoint} {m : Message}
variable {routes : List RouteEntry}

structure Ok (d : Daemon) : Prop where
  nodup : d.routes.keys.Nodup
  connected : ∀ target, ∀ r ∈ d.routes.list target, r.routeType = .connected → r.nextHop = target

lemma Ok.default : Daemon.default.Ok := ⟨List.Pairwise.nil, fun _ => forall_mem_nil _⟩

lemma Ok.changeRoutes (h : d.Ok) (hm : m.Ok) : (d.changeRoutes m).1.Ok := by
  have hinsert {target routes} (hr : ∀ r ∈ routes, r.routeType = .connected → r.nextHop = target) :
      Ok { d with routes := d.routes.insert target routes } := by
    refine ⟨nodup_insert h.nodup, fun target' r hmem => ?_⟩
    rw [list_insert] at hmem
    split at hmem
    · rename_i heq
      exact heq ▸ hr r hmem
    · exact h.connected target' r hmem
  cases m with
  | addRoute target =>
    rw [Daemon.changeRoutes]
    split
    · exact hinsert (h.connected target)
    · refine hinsert fun r hmem => ?_
      rcases mem_append.mp hmem with hmem | hmem
      · exact h.connected target r hmem
      · rw [mem_singleton.mp hmem]
        exact hm
  | removeRoute target =>
    exact hinsert fun r hmem => h.connected target r (mem_filter.mp hmem).1

/-! ## The preferred routes -/

/-- What the routes to a target come out as. -/
def sorted (order : Order) (d : Daemon) (target : Endpoint) (routes : List RouteEntry) : List RouteStatus :=
  order.sort (routes.map (status d.getConnectedRoutes target))

/-- The preferred route of an entry. -/
def best (order : Order) (d : Daemon) (e : Endpoint × List RouteEntry) : Option (Endpoint × NexthopInfo) :=
  ((d.sorted order e.1 e.2).head?.filter (·.available)).map fun r => (e.1, ⟨r.nextHop, r.maxBundleSize⟩)

lemma mem_sorted : r ∈ d.sorted order target routes ↔ ∃ e ∈ routes, status d.getConnectedRoutes target e = r := by
  rw [sorted, (order.sort_perm _).mem_iff, List.mem_map]

lemma filterMap_prefer (h : ∀ r ∈ rs, r.preferred = false ∧ r.target = target) :
    (prefer rs).filterMap preferredRoute =
      ((rs.head?.filter (·.available)).map fun r => (target, ⟨r.nextHop, r.maxBundleSize⟩)).toList := by
  cases rs with
  | nil => rfl
  | cons r rs =>
    obtain ⟨⟨_, htarget⟩, hrs⟩ := forall_mem_cons.mp h
    have hnone : rs.filterMap preferredRoute = [] :=
      filterMap_eq_nil_iff.mpr fun r' hr' => by rw [preferredRoute, (hrs r' hr').1]; rfl
    rw [prefer]
    split
    · rename_i havailable
      rw [filterMap_cons_some (b := (target, ⟨r.nextHop, r.maxBundleSize⟩)) (by rw [← htarget]; rfl), hnone,
        List.head?_cons, filter_some, if_pos havailable]
      rfl
    · grind [preferredRoute]

lemma filterMap_getRoutes (order : Order) (d : Daemon) :
    (d.getRoutes order).filterMap preferredRoute = d.routes.entries.filterMap (d.best order) := by
  rw [getRoutes, filterMap_flatMap, filterMap_eq_flatMap_toList]
  refine flatMap_congr fun e _ => ?_
  obtain ⟨_, _⟩ := e
  refine filterMap_prefer fun r hr => ?_
  obtain ⟨_, -, rfl⟩ := mem_sorted.mp hr
  exact ⟨rfl, rfl⟩

lemma best_eq_some (h : d.best order e = some b) :
    ∃ r rs, d.sorted order e.1 e.2 = r :: rs ∧ r.available = true ∧ b = (e.1, ⟨r.nextHop, r.maxBundleSize⟩) := by
  obtain ⟨r, hr, rfl⟩ := map_eq_some_iff.mp h
  obtain ⟨hhead, havailable⟩ := filter_eq_some_iff.mp hr
  obtain ⟨rs, hrs⟩ := List.head?_eq_some_iff.mp hhead
  exact ⟨r, rs, hrs, havailable, rfl⟩

/-- Where a route is connected, a connected one comes out first. -/
lemma sorted_of_connected (d : Daemon) (order : Order) (target : Endpoint) (he : e ∈ routes)
    (hconnected : e.routeType = .connected) : ∃ e' ∈ routes, ∃ rs, e'.routeType = .connected ∧
      d.sorted order target routes = status d.getConnectedRoutes target e' :: rs := by
  have hmem : status d.getConnectedRoutes target e ∈ d.sorted order target routes := mem_sorted.mpr ⟨e, he, rfl⟩
  have hsorted : (d.sorted order target routes).Pairwise (·.routeType.toNat ≤ ·.routeType.toNat) := order.sort_sorted _
  cases hs : d.sorted order target routes with
  | nil =>
    rw [hs] at hmem
    cases hmem
  | cons r rs =>
    -- a route before a connected one is connected
    have hle : r.routeType.toNat ≤ 0 := by
      rw [hs] at hmem hsorted
      rcases mem_cons.mp hmem with rfl | hmem
      · exact Nat.le_of_eq (congrArg RouteType.toNat hconnected)
      · exact ((pairwise_cons.mp hsorted).1 _ hmem).trans (Nat.le_of_eq (congrArg RouteType.toNat hconnected))
    obtain ⟨e', he', rfl⟩ := mem_sorted.mp (hs ▸ mem_cons_self : r ∈ d.sorted order target routes)
    refine ⟨e', he', rs, ?_, rfl⟩
    cases ht : e'.routeType with
    | connected => rfl
    | static => simp [status, ht, RouteType.toNat] at hle

/-- A target that is connected has itself as the next hop. -/
lemma best_of_connected (order : Order) (h : d.Ok) (hroutes : (target, routes) ∈ d.routes.entries) (he : e ∈ routes)
    (hconnected : e.routeType = .connected) :
    ∃ info, d.best order (target, routes) = some (target, info) ∧ info.nextHop = target := by
  obtain ⟨e', he', _, hconnected', hs⟩ := d.sorted_of_connected order target he hconnected
  have havailable : (status d.getConnectedRoutes target e').available = true := by simp [status, hconnected']
  refine ⟨⟨e'.nextHop, e'.maxBundleSize⟩, ?_, h.connected target e' ?_ hconnected'⟩
  · rw [best, hs, List.head?_cons, filter_some, if_pos havailable]
    rfl
  · rw [list, get_of_mem hroutes h.nodup]
    exact he'

lemma mem_getConnectedRoutes (h : target ∈ d.getConnectedRoutes) :
    ∃ routes, (target, routes) ∈ d.routes.entries ∧ ∃ e ∈ routes, e.routeType = .connected := by
  obtain ⟨⟨_, routes⟩, hmem, h⟩ := mem_filterMap.mp h
  dsimp only at h
  split at h <;> cases h
  obtain ⟨e, he, hconnected⟩ := List.any_eq_true.mp ‹_›
  exact ⟨routes, hmem, e, he, of_decide_eq_true hconnected⟩

lemma nodup_best (h : d.routes.keys.Nodup) : ((d.routes.entries.filterMap (d.best order)).map Prod.fst).Nodup := by
  refine pairwise_map.mpr (pairwise_filterMap.mpr ((pairwise_map.mp h).imp ?_))
  intro e e' hne b hb b' hb'
  obtain ⟨-, -, -, -, rfl⟩ := best_eq_some hb
  obtain ⟨-, -, -, -, rfl⟩ := best_eq_some hb'
  exact hne

lemma sendRouteUpdate_closed (h : d.Ok) {routes : Table Endpoint NexthopInfo}
    (hs : d.sendRouteUpdate order = some routes) : OneHopClosed routes := by
  have hentries : routes.entries.Perm (d.routes.entries.filterMap (d.best order)) := by
    rw [sendRouteUpdate] at hs
    split at hs <;> cases hs
    rw [filterMap_getRoutes, collect_entries (nodup_best h.nodup)]
    exact order.shuffle_perm _
  have hnodup : routes.keys.Nodup := (hentries.map Prod.fst).nodup_iff.mpr (nodup_best h.nodup)
  intro target info hget
  obtain ⟨⟨_, rs⟩, hrs, hbest⟩ := mem_filterMap.mp (hentries.mem_iff.mp (mem_of_get hget))
  obtain ⟨r, _, hsorted, havailable, heq⟩ := best_eq_some hbest
  obtain ⟨htarget, hinfo⟩ := Prod.mk.inj heq
  subst htarget hinfo
  obtain ⟨e, he, rfl⟩ := mem_sorted.mp (hsorted ▸ mem_cons_self : r ∈ d.sorted order target rs)
  -- the entry of the next hop has a connected route
  obtain ⟨routes', hroutes', e', he', hconnected'⟩ :
      ∃ routes', (e.nextHop, routes') ∈ d.routes.entries ∧ ∃ e' ∈ routes', e'.routeType = .connected := by
    rcases Bool.or_eq_true_iff.mp havailable with hconnected | hvia
    · have hconnected := of_decide_eq_true hconnected
      have hhop : e.nextHop = target :=
        h.connected target e (by rw [list, get_of_mem hrs h.nodup]; exact he) hconnected
      exact ⟨rs, hhop ▸ hrs, e, he, hconnected⟩
    · exact mem_getConnectedRoutes (contains_iff_mem.mp hvia)
  obtain ⟨hop, hbest', hhop⟩ := best_of_connected order h hroutes' he' hconnected'
  exact ⟨hop, get_of_mem (hentries.mem_iff.mpr (mem_filterMap.mpr ⟨_, hroutes', hbest'⟩)) hnodup, hhop⟩

/-- The agent sends nothing but tables. -/
lemma handle_updates (h : m' ∈ (d.handle order m).2) :
    ∃ routes, m' = .eventRoutingTableUpdate routes := by grind [handle]

lemma handle_closed (h : d.Ok) (hm : m.Ok) {routes : Table Endpoint NexthopInfo}
    (hs : .eventRoutingTableUpdate routes ∈ (d.handle order m).2) : OneHopClosed routes := by
  rw [handle] at hs
  dsimp only at hs
  split at hs
  · obtain ⟨_, ht, heq⟩ := List.mem_map.mp hs
    cases heq
    exact sendRouteUpdate_closed (h.changeRoutes hm) (mem_toList.mp ht)
  · cases hs

end Daemon

end Dtn.Dtrd.Routing
