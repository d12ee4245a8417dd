import Mathlib.Data.List.Chain
import Dtn.Proof.Dtrd.Routing

/-!
# The routes after any sequence of messages

What the routing agent makes of `AddRoute` and `RemoveRoute` messages, over all
sequences of them (`changed`) and all orders in which its hash maps and sets
come out. The route that is preferred is the best one that is available unless
routes of one type are in part available and in part not (`preferred_best_iff`).
Of the sizes given for a route the first one counts, not the last one
(`sizes_iff`). Each change of the routes is sent as a table, whether or not the
preferred routes have changed (`tables_iff`).
-/

namespace Dtn.Dtrd.Routing

open List Dtn.Bp7 Protocol Daemon

variable {d : Daemon} {order : Order} {target : Endpoint} {m : Message}
variable {rs : List RouteStatus} {t t' : Table Endpoint NexthopInfo}

/-- What `get_routes` has to say about the routes to one target. -/
structure Marked (rs : List RouteStatus) : Prop where
  one : (∃ r ∈ rs, r.available = true) → (rs.filter (·.preferred)).length = 1
  none : (∀ r ∈ rs, r.available = false) → rs.filter (·.preferred) = []
  best : ∀ p ∈ rs, p.preferred = true → p.available = true ∧
    ∀ r ∈ rs, r.available = true → p.routeType.toNat ≤ r.routeType.toNat

/-- Where the marks are right, some route is preferred if some route is available. -/
lemma Marked.exists_iff (h : Marked rs) : (∃ r ∈ rs, r.preferred = true) ↔ ∃ r ∈ rs, r.available = true := by
  have hone := h.one
  have hbest := h.best
  grind [length_eq_one_iff, mem_singleton_self]

/-- Types first, and of routes of the same type those that are not available. -/
def RouteStatus.rank (r : RouteStatus) : Nat := 2 * r.routeType.toNat + r.available.toNat

/-- An order in which routes that are not available come out first. -/
def Order.unlucky : Order where
  sort := List.insertionSort (·.rank ≤ ·.rank)
  sort_perm := perm_insertionSort _
  sort_sorted rs := by
    refine (pairwise_insertionSort RouteStatus.rank rs).imp fun {r r'} h => ?_
    have hr' := r'.available.toNat_le
    rw [RouteStatus.rank, RouteStatus.rank] at h
    omega
  shuffle := id
  shuffle_perm := fun _ => .refl _

lemma Order.unlucky_sorted (rs : List RouteStatus) : (Order.unlucky.sort rs).Pairwise (·.rank ≤ ·.rank) :=
  pairwise_insertionSort RouteStatus.rank rs

namespace Daemon

variable {routes : List RouteEntry}

lemma nodup_changeRoutes (h : d.routes.keys.Nodup) : (d.changeRoutes m).1.routes.keys.Nodup := by
  cases m with
  | addRoute =>
    rw [changeRoutes]
    split <;> exact Table.nodup_insert h
  | removeRoute => exact Table.nodup_insert h

/-- The agent after the messages. -/
def changed (d : Daemon) (ms : List Message) : Daemon := ms.foldl (fun d m => (d.changeRoutes m).1) d

lemma nodup_changed (h : d.routes.keys.Nodup) (ms : List Message) : (d.changed ms).routes.keys.Nodup := by
  induction ms generalizing d with
  | nil => exact h
  | cons _ _ ih => exact ih (nodup_changeRoutes h)

/-! ## The preferred routes -/

/-- The routes to a target, as `get_routes` gives them. -/
def routesTo (order : Order) (d : Daemon) (target : Endpoint) : List RouteStatus :=
  (d.getRoutes order).filter (·.target = target)

lemma prefer_target (h : ∀ r ∈ rs, r.target = target) : ∀ r ∈ prefer rs, r.target = target := by
  cases rs with
  | nil => exact h
  | cons => grind [prefer]

lemma routesTo_eq (h : d.routes.keys.Nodup) :
    d.routesTo order target = prefer (d.sorted order target (d.routes.list target)) := by
  have hnil : prefer (d.sorted order target []) = [] := by
    rw [sorted, map_nil, (order.sort_perm []).eq_nil, prefer]
  rw [← Table.flatMap_list (f := fun routes => prefer (d.sorted order target routes)) h target hnil,
    routesTo, getRoutes,
    filter_flatMap]
  refine flatMap_congr fun e _ => ?_
  obtain ⟨target', routes⟩ := e
  have htarget : ∀ r ∈ prefer (d.sorted order target' routes), r.target = target' := prefer_target fun r hr => by
    obtain ⟨_, -, rfl⟩ := mem_sorted.mp hr
    rfl
  dsimp only
  split
  · rename_i heq
    subst heq
    exact filter_eq_self.mpr fun r hr => decide_eq_true (htarget r hr)
  · rename_i hne
    exact filter_eq_nil_iff.mpr fun r hr => by rw [htarget r hr]; simpa using hne

/-- The routes come out right if one that is available comes first, where there is one. -/
lemma marked_prefer_iff (hsorted : rs.Pairwise (·.routeType.toNat ≤ ·.routeType.toNat))
    (hpreferred : ∀ r ∈ rs, r.preferred = false) :
    Marked (prefer rs) ↔ ((∃ r ∈ rs, r.available = true) → ∃ r, rs.head? = some r ∧ r.available = true) := by
  cases rs with
  | nil => exact iff_of_true ⟨by simp [prefer], by simp [prefer], by simp [prefer]⟩ (by simp)
  | cons r rs =>
    obtain ⟨hr, hrs⟩ := forall_mem_cons.mp hpreferred
    have hnone : rs.filter (·.preferred) = [] := filter_eq_nil_iff.mpr fun x hx => by simp [hrs x hx]
    rw [prefer]
    split
    · rename_i havailable
      refine iff_of_true ⟨fun _ => ?_, fun hall => ?_, fun p hp hpref => ?_⟩ fun _ => ⟨r, rfl, havailable⟩
      · simp [hnone]
      · simp_all
      · grind [pairwise_cons]
    · -- none is preferred
      have hfilter : (r :: rs).filter (·.preferred) = [] := by rw [filter_cons_of_neg (by simp [hr]), hnone]
      constructor
      · intro hmarked hsome
        have hone := hmarked.one hsome
        rw [hfilter] at hone
        cases hone
      · intro hhead
        refine ⟨fun hsome => ?_, fun _ => hfilter, fun p hp hpref => ?_⟩
        · grind
        · rw [hpreferred p hp] at hpref
          cases hpref

/-- The route of the entry can be used. -/
def isAvailable (d : Daemon) (e : RouteEntry) : Bool :=
  e.routeType = .connected || d.getConnectedRoutes.contains e.nextHop

/-- There is a connected route to the target, or its routes are all available or all not. -/
def Uniform (d : Daemon) (routes : List RouteEntry) : Prop :=
  (∃ e ∈ routes, e.routeType = .connected) ∨ ∀ e ∈ routes, ∀ e' ∈ routes, d.isAvailable e = d.isAvailable e'

lemma exists_available_sorted :
    (∃ r ∈ d.sorted order target routes, r.available = true) ↔ ∃ e ∈ routes, d.isAvailable e = true := by
  constructor
  · rintro ⟨_, hr, havailable⟩
    obtain ⟨e, he, rfl⟩ := mem_sorted.mp hr
    exact ⟨e, he, havailable⟩
  · rintro ⟨e, he, havailable⟩
    exact ⟨_, mem_sorted.mpr ⟨e, he, rfl⟩, havailable⟩

/-- If the routes are of one kind, one that is available comes out first. -/
lemma Uniform.head (h : d.Uniform routes) (havailable : ∃ e ∈ routes, d.isAvailable e =
      true) :
    ∃ r, (d.sorted order target routes).head? = some r ∧ r.available = true := by
  rcases h with ⟨e, he, hconnected⟩ | hall
  · obtain ⟨_, -, rs, hconnected', hs⟩ := d.sorted_of_connected order target he hconnected
    exact ⟨_, by rw [hs, List.head?_cons], by simp [status, hconnected']⟩
  · obtain ⟨e, he, hav⟩ := havailable
    have hmem : status d.getConnectedRoutes target e ∈ d.sorted order target routes := mem_sorted.mpr ⟨e, he, rfl⟩
    obtain ⟨r, _, hs⟩ := exists_cons_of_ne_nil (ne_nil_of_mem hmem)
    obtain ⟨e1, he1, hr⟩ := mem_sorted.mp (hs ▸ mem_cons_self : r ∈ d.sorted order target routes)
    subst hr
    exact ⟨_, by rw [hs, List.head?_cons], (hall e1 he1 e he).trans hav⟩

/-- If one that is available comes first in the unlucky order, the routes are of one kind. -/
lemma uniform_of_unlucky (h : (∃ e ∈ routes, d.isAvailable e = true) →
    ∃ r, (d.sorted .unlucky target routes).head? = some r ∧ r.available = true) : d.Uniform routes := by
  by_contra hnot
  obtain ⟨hstatic, _⟩ := not_or.mp hnot
  -- a route that is available and one that is not
  obtain ⟨e, he, hav, e', he', hav'⟩ :
      ∃ e ∈ routes, d.isAvailable e = true ∧ ∃ e' ∈ routes, d.isAvailable e' = false := by grind
  obtain ⟨r, hhead, havailable⟩ := h ⟨e, he, hav⟩
  obtain ⟨_, hs⟩ := List.head?_eq_some_iff.mp hhead
  have hsorted : (d.sorted .unlucky target routes).Pairwise (·.rank ≤ ·.rank) := Order.unlucky_sorted _
  have hmem : status d.getConnectedRoutes target e' ∈ d.sorted .unlucky target routes := mem_sorted.mpr ⟨e', he', rfl⟩
  have hrank : r.rank ≤ (status d.getConnectedRoutes target e').rank := by grind [pairwise_cons]
  obtain ⟨e1, he1, hr⟩ := mem_sorted.mp (hs ▸ mem_cons_self : r ∈ d.sorted .unlucky target routes)
  have htype : ∀ x ∈ routes, x.routeType = .static := fun x hx => by
    cases ht : x.routeType with
    | connected => exact absurd ⟨x, hx, ht⟩ hstatic
    | static => rfl
  have hfalse : (status d.getConnectedRoutes target e').available = false := hav'
  subst hr
  rw [RouteStatus.rank, RouteStatus.rank, havailable, hfalse] at hrank
  simp [status, htype e1 he1, htype e' he'] at hrank

lemma exists_available_prefer : (∃ r ∈ prefer rs, r.available = true) ↔ ∃ r ∈ rs, r.available = true := by
  cases rs with
  | nil => rfl
  | cons =>
    rw [prefer]
    split <;> simp

/-- The preferred route is the best one that is available, in whatever order sets and maps come out, if for each target
a route is connected or all routes are equally available. -/
theorem preferred_best_iff (ms : List Message) :
    (∀ target, (∀ order, Marked ((default.changed ms).routesTo order target)) ∧
      ∀ order order', (∃ r ∈ (default.changed ms).routesTo order target, r.preferred = true) ↔
        ∃ r ∈ (default.changed ms).routesTo order' target, r.preferred = true) ↔
      ∀ target, (default.changed ms).Uniform ((default.changed ms).routes.list target) := by
  have hnodup : (default.changed ms).routes.keys.Nodup := nodup_changed (d := .default) List.Pairwise.nil ms
  generalize default.changed ms = d at hnodup
  have hmarked (order : Order) (target : Endpoint) : Marked (d.routesTo order target) ↔
      ((∃ e ∈ d.routes.list target, d.isAvailable e = true) →
        ∃ r, (d.sorted order target (d.routes.list target)).head? = some r ∧ r.available = true) := by
    have hsorted : (d.sorted order target (d.routes.list target)).Pairwise (·.routeType.toNat ≤ ·.routeType.toNat) :=
      order.sort_sorted _
    rw [routesTo_eq hnodup, marked_prefer_iff hsorted, exists_available_sorted]
    intro r hr
    obtain ⟨e, -, rfl⟩ := mem_sorted.mp hr
    rfl
  constructor
  · intro h target
    exact uniform_of_unlucky ((hmarked .unlucky target).mp ((h target).1 .unlucky))
  · intro h target
    have hall (order : Order) : Marked (d.routesTo order target) := (hmarked order target).mpr (h target).head
    refine ⟨hall, fun order order' => ?_⟩
    rw [(hall order).exists_iff, (hall order').exists_iff, routesTo_eq hnodup, routesTo_eq hnodup,
      exists_available_prefer, exists_available_prefer, exists_available_sorted, exists_available_sorted]

/-- Node 2 is connected and node 4 is not, and there are routes to node 3 over both. If that over node 4 comes out
first, none is preferred. -/
theorem preferred_missed : (default.changed [.addRoute (.ipn ⟨2, 0⟩) .connected (.ipn ⟨2, 0⟩) none,
    .addRoute (.ipn ⟨3, 0⟩) .static (.ipn ⟨2, 0⟩) none, .addRoute (.ipn ⟨3, 0⟩) .static (.ipn ⟨4, 0⟩) none]).routesTo
      .unlucky (.ipn ⟨3, 0⟩) =
    [⟨.ipn ⟨3, 0⟩, .ipn ⟨4, 0⟩, .static, false, false, none⟩,
      ⟨.ipn ⟨3, 0⟩, .ipn ⟨2, 0⟩, .static, false, true, none⟩] := by
  decide +kernel

/-! ## The sizes -/

lemma changed_concat (d : Daemon) (ms : List Message) (m : Message) :
    d.changed (ms ++ [m]) = ((d.changed ms).changeRoutes m).1 := foldl_concat ..

end Daemon

/-- Equality of hash maps. -/
def Agree (t t' : Table Endpoint NexthopInfo) : Prop := ∀ e, t.get e = t'.get e

lemma Agree.symm (h : Agree t t') : Agree t' t := fun e => (h e).symm

lemma Agree.trans (h : Agree t t') (h' : Agree t' t'') : Agree t t'' :=
  fun e => (h e).trans (h' e)

/-- What a route is known by. -/
structure Key where
  target : Endpoint
  routeType : RouteType
  nextHop : Endpoint
  deriving DecidableEq

/-- The last size that was given for a route and not removed since. -/
def written (k : Key) (ms : List Message) : Option (Option UInt64) :=
  ms.foldl (fun size m =>
    match m with
    | .addRoute target routeType nextHop maxBundleSize =>
      if k = ⟨target, routeType, nextHop⟩ then some maxBundleSize else size
    | .removeRoute target routeType nextHop => if k = ⟨target, routeType, nextHop⟩ then none else size) none

/-- All sizes given for a route since it was last removed. -/
def sizes (k : Key) (ms : List Message) : List (Option UInt64) :=
  ms.foldl (fun sizes m =>
    match m with
    | .addRoute target routeType nextHop maxBundleSize =>
      if k = ⟨target, routeType, nextHop⟩ then sizes ++ [maxBundleSize] else sizes
    | .removeRoute target routeType nextHop => if k = ⟨target, routeType, nextHop⟩ then [] else sizes) []

lemma written_eq (k : Key) (ms : List Message) : written k ms = (sizes k ms).getLast? := by
  induction ms using List.reverseRecOn with
  | nil => rfl
  | append_singleton _ m ih =>
    rw [written, sizes, foldl_concat, foldl_concat, ← written, ← sizes, ih]
    cases m with
    | addRoute =>
      dsimp only
      split <;> simp
    | removeRoute =>
      dsimp only
      split <;> rfl

namespace Daemon

variable {target' nextHop : Endpoint} {routeType : RouteType} {e : RouteEntry}

/-- A route is entered if no route with its key is there, whatever the size. -/
lemma mem_addRoute :
    e ∈ (d.changeRoutes (.addRoute target' routeType nextHop maxBundleSize)).1.routes.list target ↔
      e ∈ d.routes.list target ∨ (target' = target ∧ e = ⟨routeType, nextHop, maxBundleSize⟩ ∧
        ∀ size, ⟨routeType, nextHop, size⟩ ∉ d.routes.list target') := by
  have hany : (d.routes.list target').any (·.eq ⟨routeType, nextHop, maxBundleSize⟩) = true ↔
      ∃ size, ⟨routeType, nextHop, size⟩ ∈ d.routes.list target' := by
    rw [any_eq_true]
    constructor
    · rintro ⟨⟨routeType', nextHop', size⟩, hmem, heq⟩
      obtain ⟨rfl, rfl⟩ : routeType' = routeType ∧ nextHop' = nextHop := by simpa [RouteEntry.eq] using heq
      exact ⟨size, hmem⟩
    · grind [RouteEntry.eq]
  rw [changeRoutes]
  split <;> grind

lemma mem_removeRoute :
    e ∈ (d.changeRoutes (.removeRoute target' routeType nextHop)).1.routes.list target ↔
      e ∈ d.routes.list target ∧ ¬ (target = target' ∧ e.routeType = routeType ∧ e.nextHop = nextHop) := by
  grind [changeRoutes, RouteEntry.eq]

/-- The agent keeps the first size. -/
lemma mem_changed : e ∈ (default.changed ms).routes.list target ↔
    (sizes ⟨target, e.routeType, e.nextHop⟩ ms).head? = some e.maxBundleSize := by
  induction ms using List.reverseRecOn generalizing target e with
  | nil => exact iff_of_false not_mem_nil nofun
  | append_singleton ms m ih =>
    rw [changed_concat, sizes, foldl_concat, ← sizes]
    cases m with
    | addRoute _ routeType nextHop =>
      rw [mem_addRoute]
      simp only [ih]
      split
      · rename_i hkey
        cases hkey
        cases hsizes : sizes ⟨target, e.routeType, e.nextHop⟩ ms with
        | nil =>
          simp only [List.head?_nil, reduceCtorEq, false_or, not_false_eq_true, forall_const, and_true, true_and,
            nil_append, List.head?_cons, Option.some.injEq]
          exact ⟨fun h => by rw [h], fun h => by rw [h]⟩
        | cons size =>
          exact or_iff_left fun h => h.2.2 size rfl
      · grind
    | removeRoute => grind [mem_removeRoute]

/-- The table has the sizes last given if for each route the first and the last size given since its last removal are
the same. -/
theorem sizes_iff (ms : List Message) :
    (∀ target e, e ∈ (default.changed ms).routes.list target ↔
      written ⟨target, e.routeType, e.nextHop⟩ ms = some e.maxBundleSize) ↔
    ∀ k, (sizes k ms).head? = (sizes k ms).getLast? := by
  simp only [mem_changed, written_eq]
  constructor
  · intro h k
    obtain ⟨target, routeType, nextHop⟩ := k
    exact Option.ext fun size => h target ⟨routeType, nextHop, size⟩
  · intro h target e
    rw [h]

/-- A peer registers again with another size, and the old one stays. -/
theorem size_lost : ((default.changed [.addRoute (.ipn ⟨2, 0⟩) .connected (.ipn ⟨2, 0⟩) (some 100),
    .addRoute (.ipn ⟨2, 0⟩) .connected (.ipn ⟨2, 0⟩) (some 200)]).routes.list (.ipn ⟨2, 0⟩) =
      [⟨.connected, .ipn ⟨2, 0⟩, some 100⟩]) ∧
    written ⟨.ipn ⟨2, 0⟩, .connected, .ipn ⟨2, 0⟩⟩ [.addRoute (.ipn ⟨2, 0⟩) .connected (.ipn ⟨2, 0⟩) (some 100),
      .addRoute (.ipn ⟨2, 0⟩) .connected (.ipn ⟨2, 0⟩) (some 200)] = some (some 200) := by
  decide +kernel

/-! ## The tables that are sent -/

/-- The preferred routes, as `send_route_update` collects them. -/
def preferredTable (order : Order) (d : Daemon) : Table Endpoint NexthopInfo :=
  .collect ((d.getRoutes order).filterMap preferredRoute)

lemma sendRouteUpdate_agree (h : d.routes.keys.Nodup) (hlast : d.lastRoutingTable = none) :
    ∃ routes, d.sendRouteUpdate order = some routes ∧ Agree routes (d.preferredTable order) := by
  refine ⟨_, by rw [sendRouteUpdate, hlast]; rfl, ?_⟩
  refine Table.get_of_perm (order.shuffle_perm _) ?_
  rw [preferredTable, filterMap_getRoutes, Table.keys, Table.collect_entries (nodup_best h)]
  exact nodup_best h

lemma lastRoutingTable_changed (ms : List Message) : (default.changed ms).lastRoutingTable = none := by
  induction ms using List.reverseRecOn with
  | nil => rfl
  | append_singleton _ m ih =>
    rw [changed_concat]
    cases m with
    | addRoute =>
      rw [changeRoutes]
      split <;> exact ih
    | removeRoute => exact ih

end Daemon

/-! ## Histories -/

/-- A message, and the order in which hash maps and sets come out when it is handled. -/
abbrev Step := Order × Message

/-- The agent after the messages. -/
def after (steps : List Step) : Daemon := default.changed (steps.map Prod.snd)

/-- The tables in what is sent. -/
def updates (sent : List Protocol.Message) : List (Table Endpoint NexthopInfo) := sent.filterMap fun
  | .eventRoutingTableUpdate routes => some routes
  | _ => none

/-- The tables sent while the messages are handled. -/
def tables (d : Daemon) : List Step → List (Table Endpoint NexthopInfo)
  | [] => []
  | step :: steps => updates (d.handle step.1 step.2).2 ++ tables (d.handle step.1 step.2).1 steps

/-- The preferred routes after the messages. -/
def current (steps : List Step) : Table Endpoint NexthopInfo :=
  match steps.getLast? with
  | none => .empty
  | some step => (after steps).preferredTable step.1

/-- The message changes the routes. -/
def Changes (before : List Step) (step : Step) : Prop := ((after before).changeRoutes step.2).2 = true

/-- It holds for each message and those before it. -/
def Throughout (P : List Step → Step → Prop) (steps : List Step) : Prop :=
  ∀ before step rest, steps = before ++ step :: rest → P before step

lemma throughout_nil (P : List Step → Step → Prop) : Throughout P [] := fun before step rest h => by
  cases before <;> cases h

variable {steps : List Step}

lemma throughout_concat : Throughout P (steps ++ [step]) ↔ Throughout P steps ∧ P steps step := by
  constructor
  · intro h
    refine ⟨fun before x rest heq => h before x (rest ++ [step]) (by rw [heq]; simp), h steps step [] rfl⟩
  · rintro ⟨h, hlast⟩ before x rest heq
    rcases eq_nil_or_concat rest with rfl | ⟨rest', y, rfl⟩
    · simp_all
    · rw [concat_eq_append, ← cons_append, ← append_assoc] at heq
      exact h before x rest' (append_inj' heq rfl).1

lemma tables_concat (d : Daemon) (steps : List Step) (step : Step) :
    tables d (steps ++ [step]) = tables d steps ++
    updates ((d.changed (steps.map Prod.snd)).handle step.1 step.2).2 := by
  induction steps generalizing d with
  | nil => simp [tables, changed]
  | cons _ _ ih => rw [cons_append, tables, ih, tables, append_assoc]; rfl

lemma after_concat (steps : List Step) (step : Step) :
    after (steps ++ [step]) = ((after steps).changeRoutes step.2).1 := by
  rw [after, map_append, map_singleton, changed_concat, after]

lemma current_concat (steps : List Step) (step : Step) :
    current (steps ++ [step]) = (after (steps ++ [step])).preferredTable step.1 := by
  rw [current, List.getLast?_concat]

/-- A message that changes the routes is answered with a table of the preferred ones, others with none. -/
lemma tables_step (steps : List Step) (step : Step) :
    (Changes steps step ∧ ∃ routes, tables .default (steps ++ [step]) = tables .default steps ++ [routes] ∧
      Agree routes (current (steps ++ [step]))) ∨
    (¬ Changes steps step ∧ tables .default (steps ++ [step]) = tables .default steps) := by
  rw [tables_concat, current_concat, after_concat, ← after, Changes, Daemon.handle]
  dsimp only
  by_cases hchanges : ((after steps).changeRoutes step.2).2 = true
  · refine .inl ⟨hchanges, ?_⟩
    have hnodup : (after steps).routes.keys.Nodup := Daemon.nodup_changed (d := .default) List.Pairwise.nil _
    have hlast : ((after steps).changeRoutes step.2).1.lastRoutingTable = none := by
      rw [← after_concat]
      exact Daemon.lastRoutingTable_changed _
    obtain ⟨routes, hsend, hagree⟩ := Daemon.sendRouteUpdate_agree (Daemon.nodup_changeRoutes hnodup) hlast
    refine ⟨routes, ?_, hagree⟩
    rw [if_pos hchanges, hsend]
    rfl
  · refine .inr ⟨hchanges, ?_⟩
    rw [if_neg hchanges]
    exact append_nil _

/-- The table sent last, which is empty before there is one. -/
def lastSent (steps : List Step) : Table Endpoint NexthopInfo := (tables .default steps).getLast?.getD .empty

lemma tables_eq_nil_iff (steps : List Step) :
    tables .default steps = [] ↔ Throughout (fun before step => ¬ Changes before step) steps := by
  induction steps using List.reverseRecOn with
  | nil => exact iff_of_true rfl (throughout_nil _)
  | append_singleton steps step ih =>
    rw [throughout_concat, ← ih]
    obtain ⟨hchanges, _, htables, -⟩ | ⟨hchanges, htables⟩ := tables_step steps step <;> simp [htables, hchanges]

/-- A message that changes the routes changes the preferred ones, except for the first such message, and no other
message changes them. -/
def Telling : List Step → Prop := Throughout fun before step =>
  (Changes before step → ¬ Throughout (fun before step => ¬ Changes before step) before →
    ¬ Agree (current before) (current (before ++ [step]))) ∧
  (¬ Changes before step → Agree (current before) (current (before ++ [step])))

/-- After each message, the table sent last has the preferred routes. -/
def UpToDate : List Step → Prop :=
  Throughout fun before step => Agree (lastSent (before ++ [step])) (current (before ++ [step]))

lemma UpToDate.agree (h : UpToDate steps) : Agree (lastSent steps) (current steps) := by
  rcases eq_nil_or_concat steps with rfl | ⟨steps, step, rfl⟩
  · exact fun e => rfl
  · rw [concat_eq_append] at h ⊢
    exact (throughout_concat.mp h).2

/-- Consecutive tables differ and the table sent last has the preferred routes if each message that changes the routes
changes the preferred ones, and no other message does. -/
theorem tables_iff (steps : List Step) :
    ((tables .default steps).IsChain (fun t t' => ¬ Agree t t') ∧ UpToDate steps) ↔ Telling steps := by
  induction steps using List.reverseRecOn with
  | nil => exact iff_of_true ⟨.nil, throughout_nil _⟩ (throughout_nil _)
  | append_singleton steps step ih =>
    rw [Telling, throughout_concat, UpToDate, throughout_concat, ← UpToDate, ← Telling, ← ih,
      ← tables_eq_nil_iff, lastSent]
    obtain ⟨hchanges, routes, htables, hagree⟩ | ⟨hchanges, htables⟩ := tables_step steps step
    · rw [htables, isChain_append, List.getLast?_concat]
      constructor
      · rintro ⟨⟨hchain, -, hne⟩, hupto, -⟩
        refine ⟨⟨hchain, hupto⟩, fun _ hsent hsame => ?_, fun h => absurd hchanges h⟩
        have hlast := List.getLast?_eq_some_getLast hsent
        have hagree' := hupto.agree
        rw [lastSent, hlast, Option.getD_some] at hagree'
        exact hne _ hlast routes rfl (hagree'.trans (hsame.trans hagree.symm))
      · rintro ⟨⟨hchain, hupto⟩, hne, -⟩
        refine ⟨⟨hchain, .singleton _, fun t ht t' ht' hsame => ?_⟩, hupto, hagree⟩
        have hagree' := hupto.agree
        rw [lastSent, Option.mem_def.mp ht, Option.getD_some] at hagree'
        obtain rfl : routes = t' := Option.some.inj ht'
        exact hne hchanges (ne_nil_of_mem (mem_of_getLast? ht)) (hagree'.symm.trans (hsame.trans hagree))
    · rw [htables]
      constructor
      · rintro ⟨hchain, hupto, hlast⟩
        exact ⟨⟨hchain, hupto⟩, fun h => absurd h hchanges, fun _ => hupto.agree.symm.trans hlast⟩
      · rintro ⟨⟨hchain, hupto⟩, -, hsame⟩
        exact ⟨hchain, hupto, hupto.agree.trans (hsame hchanges)⟩

/-- A route to node 3 over node 4, which is not connected, changes nothing in the preferred routes, and the same table
is sent again. -/
theorem table_sent_twice : tables .default [(.unlucky, .addRoute (.ipn ⟨2, 0⟩) .connected (.ipn ⟨2, 0⟩) none),
    (.unlucky, .addRoute (.ipn ⟨3, 0⟩) .static (.ipn ⟨4, 0⟩) none)] =
      [Table.empty.insert (.ipn ⟨2, 0⟩) ⟨.ipn ⟨2, 0⟩, none⟩, Table.empty.insert (.ipn ⟨2, 0⟩) ⟨.ipn ⟨2, 0⟩, none⟩] := by
  decide +kernel

end Dtn.Dtrd.Routing
