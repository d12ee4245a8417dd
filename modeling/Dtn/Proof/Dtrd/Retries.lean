import Mathlib.Algebra.Order.BigOperators.Group.List
import Mathlib.Data.List.TakeWhile
import Dtn.Proof.Dtrd.Remote

/-!
# Which queues a message makes the agent try again

`Daemon.Waits` says that a bundle waits for a node although the agent of its
next hop could be offered it. A handler puts its message into the tables
(`Message.taken`) and then tries the queues of some nodes (`Message.retries`).
After that nothing waits that did not wait before (`handle_waits`), and where a
queue was tried and the mailbox had room something was sent if there is still
something that waits (`handle_gives`).
-/

namespace Dtn.Dtrd.Protocol

open List Outcome Dtn.Bp7 Context

variable {queue queue' : List StoredBundleRef} {targets : List Endpoint} {m : Message} {accepts : List Bool}

/-- A bundle waits for this node that may be offered to this agent. -/
def Daemon.Waits (d : Daemon) (node : Endpoint) (a : Nat) : Prop :=
  ∃ next ∈ nextHop d node, next.1 = a ∧ ∃ r ∈ d.remoteBundles.list node, tooLarge next.2 r = none

instance (d : Daemon) (node : Endpoint) (a : Nat) : Decidable (d.Waits node a) :=
  inferInstanceAs (Decidable (∃ next ∈ nextHop d node, next.1 = a ∧
    ∃ r ∈ d.remoteBundles.list node, tooLarge next.2 r = none))

/-- The queues have bundles for their nodes. -/
def Daemon.Sorted (d : Daemon) : Prop := ∀ k, ∀ r ∈ d.remoteBundles.list k,
  r.primaryBlock.destinationEndpoint.getNodeEndpoint = (.ok k : Outcome Empty Endpoint)

/-- A bundle for the node goes to the agent. -/
def Gives (sent : List Command) (node : Endpoint) (a : Nat) : Prop :=
  ∃ r, .agentForwardBundle a r ∈ sent ∧
    r.primaryBlock.destinationEndpoint.getNodeEndpoint = (.ok node : Outcome Empty Endpoint)

/-- One of these endpoints is of the node. -/
def Concerns (targets : List Endpoint) (node : Endpoint) : Prop :=
  ∃ target ∈ targets, target.getNodeEndpoint = (.ok node : Outcome Empty Endpoint)

instance (targets : List Endpoint) (node : Endpoint) : Decidable (Concerns targets node) :=
  inferInstanceAs (Decidable (∃ target ∈ targets, target.getNodeEndpoint = (.ok node : Outcome Empty Endpoint)))

lemma getNodeEndpoint_node {e node : Endpoint} (h : e.getNodeEndpoint = (.ok node : Outcome Empty Endpoint)) :
    node.getNodeEndpoint = (.ok node : Outcome Empty Endpoint) := by
  cases e with
  | ipn => cases h; rfl
  | dtn =>
    obtain ⟨_, he', h⟩ := bind_eq_ok.mp h
    cases h
    obtain ⟨_, hname, h⟩ := bind_eq_ok.mp he'
    cases h
    obtain ⟨cs, -, h⟩ := bind_eq_ok.mp hname
    cases h
    have hslice : (sliceFrom 2 ("//" ++ String.ofList (cs.takeWhile (· ≠ '/'))).toList : Outcome Empty (List Char)) =
        .ok (cs.takeWhile (· ≠ '/')) := by
      rw [String.toList_append, String.toList_ofList, String.toList_ofList]
      simp [sliceFrom, show Char.utf8Size '/' = 1 from rfl]
    rw [Endpoint.getNodeEndpoint, DTNEndpoint.getNodeEndpoint, DTNEndpoint.nodeName, hslice,
      ok_bind, takeWhile_idem]
    rfl

/-! ## What a handler leaves -/

/-- The queues and the connections have become fewer, and more was sent. -/
structure Shrinks (c c' : Context) : Prop where
  queues : ∀ k, (c'.daemon.remoteBundles.list k).Subperm (c.daemon.remoteBundles.list k)
  routes : c'.daemon.remoteRoutes = c.daemon.remoteRoutes
  connections : ∀ k a, c'.daemon.remoteConnections.get k = some a → c.daemon.remoteConnections.get k = some a
  sent : c.sent ⊆ c'.sent

variable {S : Serde} {w : World} {c c' c1 : Context} {d d' : Daemon} {k node destination : Endpoint} {a : Nat}

namespace Shrinks

lemma refl (c : Context) : Shrinks c c := ⟨fun _ => .refl _, rfl, fun _ _ h => h, List.Subset.refl _⟩

lemma trans (h : Shrinks c c1) (h' : Shrinks c1 c') : Shrinks c c' :=
  ⟨fun k => (h'.queues k).trans (h.queues k), h'.routes.trans h.routes,
    fun k a hk => h.connections k a (h'.connections k a hk), List.Subset.trans h.sent h'.sent⟩

lemma nextHop {next : Nat × Option UInt64} (h : Shrinks c c') (hnext : nextHop c'.daemon k = some next) :
    Context.nextHop c.daemon k = some next := by
  obtain ⟨route, hroute, hnext⟩ := Option.bind_eq_some_iff.mp hnext
  obtain ⟨sender, hsender, hnext⟩ := Option.bind_eq_some_iff.mp hnext
  rw [h.routes] at hroute hnext
  exact Option.bind_eq_some_iff.mpr ⟨route, hroute, Option.bind_eq_some_iff.mpr
    ⟨sender, h.connections _ _ hsender, hnext⟩⟩

lemma waits (h : Shrinks c c') (hwaits : c'.daemon.Waits k a) : c.daemon.Waits k a := by
  obtain ⟨next, hnext, ha, r, hr, hfits⟩ := hwaits
  exact ⟨next, h.nextHop hnext, ha, r, (h.queues k).subset hr, hfits⟩

lemma gives (h : Shrinks c c') (hgives : Gives c.sent k a) : Gives c'.sent k a := by
  obtain ⟨r, hr, hnode⟩ := hgives
  exact ⟨r, h.sent hr, hnode⟩

lemma sorted (h : Shrinks c c') (hc : c.daemon.Sorted) : c'.daemon.Sorted :=
  fun k r hr => hc k r ((h.queues k).subset hr)

end Shrinks

lemma subperm_insert {t : Table Endpoint (List StoredBundleRef)} (hq : t.get destination = some queue)
    (h : queue'.Subperm queue) (k : Endpoint) : ((t.insert destination queue').list k).Subperm (t.list k) := by
  rw [Table.list_insert]
  split
  · rename_i hk
    rw [← hk, Table.list, hq]
    exact h
  · exact .refl _

lemma Move.shrinks (h : Move w c c') : Shrinks c c' := by
  have hsent {commands} (hs : c'.sent = c.sent ++ commands) : c.sent ⊆ c'.sent :=
    hs ▸ subset_append_left ..
  cases h with
  | report hd hs | deliver _ _ _ hd hs =>
    exact ⟨fun k => by rw [hd], by rw [hd], fun k a h => by rw [hd] at h; exact h, hsent hs⟩
  | forward hq _ _ hd hs | fragment hq _ _ _ hd hs =>
    refine ⟨fun k => ?_, by rw [hd], fun k a h => by rw [hd] at h; exact h, hsent hs⟩
    rw [hd]
    exact subperm_insert hq (sublist_cons_self ..).subperm k
  | rotateLocal _ _ hd hs | closeLocal _ _ hd hs =>
    exact ⟨fun k => by rw [hd], by rw [hd], fun k a h => by rw [hd] at h; exact h, hs ▸ List.Subset.refl _⟩
  | rotateRemote hq hperm hd hs =>
    refine ⟨fun k => ?_, by rw [hd], fun k a h => by rw [hd] at h; exact h, hs ▸ List.Subset.refl _⟩
    rw [hd]
    exact subperm_insert hq hperm.subperm k
  | closeRemote _ _ _ hd hs =>
    refine ⟨fun k => by rw [hd], by rw [hd], fun k a h => ?_, hs ▸ List.Subset.refl _⟩
    rw [hd] at h
    exact Table.get_of_get_remove h

lemma Moves.shrinks (h : Moves w c c') : Shrinks c c' := by
  induction h with
  | refl => exact .refl c
  | tail _ hmove ih => exact ih.trans hmove.shrinks

/-! ## One pass -/

section

variable {sender : Nat} {limit : Option UInt64}
variable {visited : List String} {back : List StoredBundleRef} {results : List SendResult}

lemma pass_forwards (hroom : results.headD .full = .ok)
    (h : (pass sender limit visited back results queue).offered ≠ []) :
    ∃ r ∈ queue, .agentForwardBundle sender r ∈ (pass sender limit visited back results queue).sent := by
  fun_induction pass with
  | case1 | case2 => exact absurd rfl h
  | case3 => grind
  | case4 _ _ _ _ _ _ _ _ _ ih =>
    obtain ⟨r', hr', hsent⟩ := ih hroom h
    exact ⟨r', mem_cons_of_mem _ hr', mem_cons_of_mem _ hsent⟩
  | case5 _ _ _ r => exact ⟨r, mem_cons_self, mem_cons_self⟩
  | case6 _ _ _ _ _ _ _ _ hresult => exact absurd hroom hresult

lemma unhindered_of_nodup (h : (queue.map StoredBundleRef.getId).Nodup) : Unhindered limit [] queue := by
  rintro before r after rfl (hr | ⟨x, hx, -, hid⟩)
  · cases hr
  · grind

/-- After a pass that could send, nothing is left that could be sent, or something was sent. -/
lemma pass_served (hids : (queue.map StoredBundleRef.getId).Nodup) (hroom : results.headD .full = .ok)
    (hr : r ∈ (pass sender limit [] [] results queue).queue) (hfits : tooLarge limit r = none) :
    ∃ r' ∈ queue, .agentForwardBundle sender r' ∈ (pass sender limit [] [] results queue).sent := by
  refine pass_forwards hroom fun hnone => ?_
  have hleft := (pass_complete_iff (by rw [hnone]; exact forall_mem_nil _)).mpr (unhindered_of_nodup hids)
  rw [append_nil] at hleft
  have hunsendable := (mem_filter.mp (hleft.mem_iff.mp hr)).2
  rw [unsendable_of_fits hfits] at hunsendable
  cases hunsendable

/-- A pass asks for each bundle of the queue at most once. -/
lemma remoteLoop_accepts (h : remoteLoop w destination sender limit visited back queue c = .ok (c', queue')) :
    ∃ i ≤ queue.length, c'.accepts = c.accepts.drop i := by
  induction queue generalizing c visited back with
  | nil => cases h; exact ⟨0, Nat.zero_le _, rfl⟩
  | cons r queue ih =>
    have hlater {accepts} (hone : ∃ i ≤ 1, accepts = c.accepts.drop i)
        (haccepts : ∃ i ≤ queue.length, c'.accepts = accepts.drop i) :
        ∃ i ≤ (r :: queue).length, c'.accepts = c.accepts.drop i := by grind [drop_drop]
    have htry {result c1} (h : c.trySend w sender = (result, c1)) :
        ∃ i ≤ 1, c1.accepts = c.accepts.drop i := by
      unfold Context.trySend at h
      split at h
      · split at h <;> cases h <;> rename_i haccepts <;> rw [haccepts]
        · exact ⟨1, Nat.le_refl _, rfl⟩
        · exact ⟨1, Nat.le_refl _, rfl⟩
        · exact ⟨0, Nat.zero_le _, rfl⟩
      · cases h
        exact ⟨0, Nat.zero_le _, rfl⟩
    rw [remoteLoop] at h
    split at h
    · cases h
      exact ⟨0, Nat.zero_le _, rfl⟩
    · split at h
      · split at h
        · exact hlater ⟨0, Nat.zero_le _, rfl⟩ (ih h)
        · have haccepts := ih h
          exact hlater ⟨0, Nat.zero_le _, rfl⟩ haccepts
      · split at h
        · rename_i c1 hc1
          have haccepts := ih h
          exact hlater (htry hc1) haccepts
        · grind
        · grind

end

lemma deliverRemoteBundles_accepts (h : c.deliverRemoteBundles w destination = .ok c')
    (hnode : destination.getNodeEndpoint = (.ok node : Outcome Empty Endpoint)) :
    ∃ i ≤ (c.daemon.remoteBundles.list node).length, c'.accepts = c.accepts.drop i := by
  rw [Context.deliverRemoteBundles, hnode, ok_bind] at h
  split at h
  · grind [remoteLoop_accepts, Table.list]
  · cases h
    exact ⟨0, Nat.zero_le _, rfl⟩

/-- The queue of a node is tried, and the mailbox has room. -/
lemma deliverRemoteBundles_gives (h : c.deliverRemoteBundles w destination = .ok c')
    (hnode : destination.getNodeEndpoint = (.ok node : Outcome Empty Endpoint)) (hsorted : c.daemon.Sorted)
    (hids : ((c.daemon.remoteBundles.list node).map StoredBundleRef.getId).Nodup) (hroom : c.accepts.head? = some true)
    (hrunning : w.running a = true) (hwaits : c'.daemon.Waits node a) : Gives c'.sent node a := by
  obtain ⟨⟨_, limit⟩, hnext, rfl, r, hr, hfits⟩ := hwaits
  have hshrinks := Moves.shrinks (deliverRemoteBundles_moves h)
  replace hnext := hshrinks.nextHop hnext
  obtain ⟨queue, hqueue, -⟩ := Table.exists_of_mem_list ((hshrinks.queues node).subset hr)
  rename_i a
  obtain ⟨c1, hloop, hdaemon, hsent⟩ := remoteLoop_pass w node a limit [] [] queue c
  rw [Context.deliverRemoteBundles, hnode, ok_bind, hnext, hqueue] at h
  dsimp only at h
  rw [hloop] at h
  cases h
  obtain ⟨accepts, haccepts⟩ := List.head?_eq_some_iff.mp hroom
  have hresults : (outcomes w a c.accepts).headD .full = .ok := by
    rw [outcomes, if_pos hrunning, haccepts]
    rfl
  have hlist : c.daemon.remoteBundles.list node = queue := by rw [Table.list, hqueue, Option.getD_some]
  rw [Table.list_insert, if_pos rfl] at hr
  rw [hlist] at hids
  obtain ⟨r', hr', hgiven⟩ := pass_served hids hresults hr hfits
  exact ⟨r', by rw [hsent]; exact mem_append_right _ hgiven, hsorted node r' (hlist ▸ hr')⟩

/-! ## One queue after the other -/

/-- The queue that is tried for the target. -/
def Daemon.tried (d : Daemon) (target : Endpoint) : List StoredBundleRef :=
  match (target.getNodeEndpoint : Outcome Empty Endpoint) with
  | .ok node => d.remoteBundles.list node
  | _ => []

/-- All mailboxes have room for all that is queued for these targets. -/
def Ample (accepts : List Bool) (d : Daemon) (targets : List Endpoint) : Prop :=
  (∀ x ∈ accepts, x = true) ∧ (targets.map fun target => (d.tried target).length).sum ≤ accepts.length

instance (accepts : List Bool) (d : Daemon) (targets : List Endpoint) : Decidable (Ample accepts d targets) :=
  inferInstanceAs (Decidable (_ ∧ _))

lemma tried_of_node (hnode : destination.getNodeEndpoint = (.ok node : Outcome Empty Endpoint)) :
    d.tried destination = d.remoteBundles.list node := by
  rw [Daemon.tried, hnode]

lemma Shrinks.tried (h : Shrinks c c') (target : Endpoint) :
    (c'.daemon.tried target).length ≤ (c.daemon.tried target).length := by
  unfold Daemon.tried
  split
  · exact (h.queues _).length_le
  · exact Nat.le_refl _

lemma Ample.tail (hroom : Ample c.accepts c.daemon (destination :: targets))
    (h : c.deliverRemoteBundles w destination = .ok c')
    (hnode : destination.getNodeEndpoint = (.ok node : Outcome Empty Endpoint)) :
    Ample c'.accepts c'.daemon targets := by
  obtain ⟨hall, henough⟩ := hroom
  have hshrinks := Moves.shrinks (deliverRemoteBundles_moves h)
  obtain ⟨_, _, haccepts⟩ := deliverRemoteBundles_accepts h hnode
  rw [haccepts]
  refine ⟨fun x hx => hall x (mem_of_mem_drop hx), ?_⟩
  have hless : (targets.map fun target => (c'.daemon.tried target).length).sum ≤
      (targets.map fun target => (c.daemon.tried target).length).sum :=
    sum_le_sum fun target _ => hshrinks.tried target
  rw [map_cons, sum_cons, tried_of_node hnode] at henough
  rw [length_drop]
  omega

lemma deliverRoutes_gives (h : c.deliverRoutes w targets = .ok c') (hnode : Concerns targets node)
    (hsorted : c.daemon.Sorted) (hids : ((c.daemon.remoteBundles.list node).map StoredBundleRef.getId).Nodup)
    (hroom : Ample c.accepts c.daemon targets) (hrunning : w.running a = true) (hwaits : c'.daemon.Waits node a) :
    Gives c'.sent node a := by
  induction targets generalizing c with
  | nil =>
    obtain ⟨target, htarget, -⟩ := hnode
    cases htarget
  | cons target targets ih =>
    obtain ⟨c1, h1, h⟩ := bind_eq_ok.mp h
    have hshrinks := Moves.shrinks (deliverRemoteBundles_moves h1)
    have hshrinks' := Moves.shrinks (deliverRoutes_moves h)
    by_cases htarget : target.getNodeEndpoint = (.ok node : Outcome Empty Endpoint)
    · have hwaits1 := hshrinks'.waits hwaits
      obtain ⟨-, -, -, _, hr, -⟩ := hshrinks.waits hwaits1
      have hhead : c.accepts.head? = some true := by
        obtain ⟨hall, henough⟩ := hroom
        rw [map_cons, sum_cons, tried_of_node htarget] at henough
        have hlength := length_pos_of_mem hr
        cases haccepts : c.accepts with
        | nil => rw [haccepts, length_nil] at henough; omega
        | cons x => rw [hall x (by rw [haccepts]; exact mem_cons_self)]; rfl
      exact hshrinks'.gives (deliverRemoteBundles_gives h1 htarget hsorted hids hhead hrunning hwaits1)
    · obtain ⟨_, hnode', -⟩ := bind_eq_ok.mp h1
      have hrest : Concerns targets node := by
        obtain ⟨target', hmem, htarget'⟩ := hnode
        rcases mem_cons.mp hmem with rfl | hmem
        · exact absurd htarget' htarget
        · exact ⟨target', hmem, htarget'⟩
      have hids1 : ((c1.daemon.remoteBundles.list node).map StoredBundleRef.getId).Nodup := by
        obtain ⟨_, hperm, hsub⟩ := hshrinks.queues node
        exact (hperm.map _).nodup_iff.mp (hids.sublist (hsub.map _))
      exact ih h hrest (hshrinks.sorted hsorted) hids1 (hroom.tail h1 hnode')

/-! ## Messages -/

/-- The endpoints for which the handler calls `deliver_remote_bundles`. -/
def Message.retries : Message → List Endpoint
  | .eventBundleUpdated r => if r.state = .forwardingQueued then [r.primaryBlock.destinationEndpoint] else []
  | .eventPeerConnected destination _ => [destination]
  | .eventBundleForwarded endpoint _ => [endpoint]
  | .eventRoutingTableUpdate routes => routes.keys
  | _ => []

/-- The endpoints of the queues that the message is about. -/
def Message.affects : Message → List Endpoint
  | .eventBundleForwardingFailed endpoint _ => [endpoint]
  | m => m.retries

/-- The tables when the handler has put its message into them. -/
def Message.taken (d : Daemon) : Message → Daemon
  | .eventBundleUpdated r =>
    match r.state, (r.primaryBlock.destinationEndpoint.getNodeEndpoint : Outcome Empty Endpoint) with
    | .forwardingQueued, .ok node =>
      { d with remoteBundles := d.remoteBundles.insert node (d.remoteBundles.list node ++ [r]) }
    | _, _ => d
  | .eventPeerConnected destination sender =>
    { d with remoteConnections := d.remoteConnections.insert destination sender }
  | .eventPeerDisconnected destination => { d with remoteConnections := d.remoteConnections.remove destination }
  | .eventBundleForwardingFailed endpoint r =>
    match (endpoint.getNodeEndpoint : Outcome Empty Endpoint) with
    | .ok node => { d with remoteBundles := d.remoteBundles.insert node (r :: d.remoteBundles.list node) }
    | _ => d
  | .eventRoutingTableUpdate routes => { d with remoteRoutes := routes }
  | _ => d

/-- The mailboxes have room for what the handler offers first, or for all of it if it tries several queues. -/
def Message.Answered (accepts : List Bool) (d : Daemon) : Message → Prop
  | .eventRoutingTableUpdate routes => Ample accepts d routes.keys
  | _ => accepts.head? = some true

instance (accepts : List Bool) (d : Daemon) (m : Message) : Decidable (m.Answered accepts d) := by
  unfold Message.Answered
  split <;> infer_instance

/-- These are the same tables of queues, connections and routes to other nodes. -/
structure SameTables (d d' : Daemon) : Prop where
  queues : d'.remoteBundles = d.remoteBundles
  connections : d'.remoteConnections = d.remoteConnections
  routes : d'.remoteRoutes = d.remoteRoutes

lemma SameTables.waits (h : SameTables d d') : d'.Waits k a ↔ d.Waits k a := by
  unfold Daemon.Waits nextHop
  rw [h.queues, h.connections, h.routes]

lemma Takes.tables (h : Takes S w c m c') : SameTables (m.taken c.daemon) c'.daemon := by
  have hsame {r} (hst : r.state ≠ .forwardingQueued) :
      Message.taken c.daemon (.eventBundleUpdated r) = c.daemon := by grind [Message.taken]
  cases h with
  | received hst | defragment hst | deliver hst | forward hst | expire hst | queueLocal hst =>
    rw [hsame (by rw [hst]; exact nofun)]
    exact ⟨rfl, rfl, rfl⟩
  | queueRemote hst hnode =>
    rw [Message.taken, hst, hnode]
    exact ⟨rfl, rfl, rfl⟩
  | ignored hst =>
    rw [hsame (by rintro hst'; rw [hst', State.Done] at hst; simp at hst)]
    exact ⟨rfl, rfl, rfl⟩
  | forwardingFailed hnode =>
    rw [Message.taken, hnode]
    exact ⟨rfl, rfl, rfl⟩
  | _ => exact ⟨rfl, rfl, rfl⟩

/-- What waits when the handler returns has waited when it had taken the message. -/
lemma handle_waits (h : Context.handle S w ⟨d, accepts, []⟩ m = .ok c')
    (hwaits : c'.daemon.Waits k a) : (m.taken d).Waits k a := by
  obtain ⟨_, _, hreport, htakes, hmoves⟩ := handle_takes h
  have hwaits2 := htakes.tables.waits.mp (Moves.shrinks hmoves |>.waits hwaits)
  rwa [hreport.daemon] at hwaits2

lemma sorted_insert (hsorted : d.Sorted)
    (h : ∀ r ∈ queue, r.primaryBlock.destinationEndpoint.getNodeEndpoint = (.ok node : Outcome Empty Endpoint)) :
    Daemon.Sorted { d with remoteBundles := d.remoteBundles.insert node queue } := by
  intro k r hr
  rw [Table.list_insert] at hr
  split at hr
  · rename_i hk
    rw [← hk]
    exact h r hr
  · exact hsorted k r hr

/-- The queue was tried with room in the mailbox, so something was sent if something waits still. -/
lemma handle_gives (h : Context.handle S w ⟨d, accepts, []⟩ m = .ok c') (hsorted : d.Sorted)
    (hnode : Concerns m.retries node) (hids : (((m.taken d).remoteBundles.list node).map StoredBundleRef.getId).Nodup)
    (hroom : m.Answered accepts (m.taken d)) (hrunning : w.running a = true) (hwaits : c'.daemon.Waits node a) :
    Gives c'.sent node a := by
  have hone {e} (h : Concerns [e] node) : e.getNodeEndpoint = (.ok node : Outcome Empty Endpoint) := by
    obtain ⟨target, htarget, h⟩ := h
    rwa [mem_singleton.mp htarget] at h
  have hnone (h : Concerns [] node) : False := by
    obtain ⟨target, htarget, -⟩ := h
    cases htarget
  cases m with
  | eventBundleUpdated =>
    rw [Message.retries] at hnode
    split at hnode <;> [rename_i hst; exact (hnone hnode).elim]
    have hdest := hone hnode
    rw [Message.taken, hst, hdest] at hids
    rw [Context.handle, Context.eventBundleUpdated, hst] at h
    rw [hdest, ok_bind] at h
    refine deliverRemoteBundles_gives h hdest (sorted_insert hsorted fun r' hr' => ?_) hids hroom hrunning hwaits
    rcases mem_append.mp hr' with hr' | hr'
    · exact hsorted node r' hr'
    · rw [mem_singleton.mp hr']
      exact hdest
  | eventPeerConnected =>
    obtain ⟨node', hnode', h⟩ := bind_eq_ok.mp h
    split at h <;> [cases h; skip]
    exact deliverRemoteBundles_gives h (hone hnode) hsorted hids hroom hrunning hwaits
  | eventBundleForwarded =>
    obtain ⟨_, hnode', h⟩ := bind_eq_ok.mp h
    cases hnode'.symm.trans (hone hnode)
    obtain ⟨c1, hreport, h⟩ := bind_eq_ok.mp h
    have hdaemon := (reported hreport).daemon
    have haccepts : c1.accepts = accepts := by
      rcases reported hreport with rfl | ⟨data, rfl⟩ <;> rfl
    refine deliverRemoteBundles_gives h (getNodeEndpoint_node hnode') ?_ ?_ ?_ hrunning hwaits
    · intro k r' hr'
      refine hsorted k r' ?_
      rwa [Context.update, Context.send, hdaemon] at hr'
    · rw [Context.update, Context.send, hdaemon]
      exact hids
    · rw [Context.update, Context.send, haccepts]
      exact hroom
  | eventRoutingTableUpdate routes =>
    have hperm : (routes.keys.filter (!d.remoteRoutes.keys.contains ·) ++
        routes.keys.filter (d.remoteRoutes.keys.contains ·)).Perm routes.keys :=
      perm_append_comm.trans (filter_append_perm _ _)
    obtain ⟨target, htarget, hnode⟩ := hnode
    obtain ⟨hall, henough⟩ := hroom
    refine deliverRoutes_gives h ⟨target, hperm.mem_iff.mpr htarget, hnode⟩ hsorted hids ⟨hall, ?_⟩ hrunning hwaits
    rw [(hperm.map _).sum_eq]
    exact henough
  | eventBundleDelivered | eventBundleDeliveryFailed | eventClientConnected | eventClientDisconnected
  | eventPeerDisconnected | eventBundleForwardingFailed => exact (hnone hnode).elim

end Dtn.Dtrd.Protocol
