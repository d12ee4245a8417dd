import Dtn.Proof.Dtrd.Delivery

/-!
# The queues of the protocol agent

What waits for a client, or was sent to it and is pending, is a whole bundle for
the endpoint it is queued under, and what waits for a node or is pending for it is
a bundle of another node with a destination there (`queues_disciplined`). The
references in the queues are in order anyway (`Sound`); those that are pending are,
because they come from the front of a queue (`Awaits`, `handle_awaits`). So the
assertion on fragments in `deliver_local_bundles` holds whenever it is made
(`handle_eq_ok`).
-/

namespace Dtn.Dtrd

open List Multiset Dtn.Bp7 Protocol Context Table

variable {S : Serde} {endpoint : Endpoint} {found files : List (String × List UInt8)}
variable {k : Endpoint} {r : StoredBundleRef} {m : Message}

namespace Protocol

variable {w : World} {c c' : Context} {P : Parties}
variable {d : Daemon} {queue : List StoredBundleRef} {t : Table Endpoint (List StoredBundleRef)} {accepts : List Bool}
  {destination : Endpoint}

/-! ## Pending bundles -/

/-- What is pending could be in the queue that it was taken from. -/
structure Daemon.Awaits (S : Serde) (endpoint : Endpoint) (P : Parties) (d : Daemon) : Prop where
  delivery : ∀ k, ∀ r ∈ d.bundlesPendingLocalDelivery.list k, ItemOk S endpoint P (.localQueue k, r)
  forwarding : ∀ k, ∀ r ∈ d.bundlesPendingForwarding.list k, ItemOk S endpoint P (.remoteQueue k, r)

lemma mem_items_local (hq : d.localBundles.get k = some queue) (hr : r ∈ queue) : (.localQueue k, r) ∈ d.items :=
  mem_add.mpr (.inl (mem_gather.mpr ⟨(k, queue), mem_of_get hq, mem_placed.mpr ⟨rfl, hr⟩⟩))

lemma mem_items_remote (hq : d.remoteBundles.get k = some queue) (hr : r ∈ queue) : (.remoteQueue k, r) ∈ d.items :=
  mem_add.mpr (.inr (mem_gather.mpr ⟨(k, queue), mem_of_get hq, mem_placed.mpr ⟨rfl, hr⟩⟩))

lemma forall_list_push {Q : Endpoint → StoredBundleRef → Prop} (ht : ∀ k, ∀ r ∈ t.list k, Q k r) (hr : Q k r) :
    ∀ k', ∀ r' ∈ (t.insert k (t.list k ++ [r])).list k', Q k' r' := by grind

lemma mem_of_mem_retain {node : Endpoint} (h : r ∈ (retain t node r').list k) : r ∈ t.list k := by
  grind [retain, list]

lemma Move.awaits (h : Move w c c') (hitems : ∀ i ∈ c.items, ItemOk S endpoint P i)
    (hc : c.daemon.Awaits S endpoint P) : c'.daemon.Awaits S endpoint P := by
  have hqueued {i} (hi : i ∈ c.daemon.items) : ItemOk S endpoint P i := hitems i (mem_add.mpr (.inr hi))
  cases h with
  | report hd | fragment _ _ _ _ hd | rotateLocal _ _ hd | rotateRemote _ _ hd | closeLocal _ _ hd
  | closeRemote _ _ _ hd =>
    rw [hd]
    exact ⟨hc.delivery, hc.forwarding⟩
  | deliver hq _ _ hd =>
    rw [hd]
    exact ⟨forall_list_push hc.delivery (hqueued (mem_items_local hq List.mem_cons_self)), hc.forwarding⟩
  | forward hq _ _ hd =>
    rw [hd]
    exact ⟨hc.delivery, forall_list_push hc.forwarding (hqueued (mem_items_remote hq List.mem_cons_self))⟩

lemma Moves.awaits (h : Moves w c c') (hok : c.Ok endpoint P) (hitems : ∀ i ∈ c.items, ItemOk S endpoint P i)
    (hc : c.daemon.Awaits S endpoint P) : c'.daemon.Awaits S endpoint P := by
  induction h with
  | refl => exact hc
  | tail hmoves hmove ih =>
    obtain ⟨-, hpasses⟩ := Moves.passes (S := S) hmoves hok
    exact hmove.awaits (hpasses.ok hitems) ih

lemma Takes.awaits (h : Takes S w c m c') (hc : c.daemon.Awaits S endpoint P) : c'.daemon.Awaits S endpoint P := by
  cases h with
  | delivered | deliveryFailed => exact ⟨fun k r hr => hc.delivery k r (mem_of_mem_retain hr), hc.forwarding⟩
  | forwarded | forwardingFailed => exact ⟨hc.delivery, fun k r hr => hc.forwarding k r (mem_of_mem_retain hr)⟩
  | _ => exact ⟨hc.delivery, hc.forwarding⟩

lemma handle_awaits (h : d.handle S w accepts m = .ok (d', commands)) (hd : Context.Ok endpoint P ⟨d, [], []⟩)
    (hconnects : m.Connects P) (hitems : ∀ i ∈ m.items + d.items, ItemOk S endpoint P i)
    (hawaits : d.Awaits S endpoint P) : d'.Awaits S endpoint P := by
  obtain ⟨_, hc', h⟩ := Outcome.bind_eq_ok.mp h
  cases h
  obtain ⟨c1, _, hreport, htakes, hmoves⟩ := handle_takes hc'
  obtain ⟨hok1, hpasses1⟩ := Moves.passes (S := S) (hreport.moves (w := w)) ⟨hd.endpoint, hd.listeners, hd.agents⟩
  have hitems1 : ∀ i ∈ m.items + c1.items, ItemOk S endpoint P i := by grind [hpasses1.ok, items]
  have hm : ∀ i ∈ m.items, ItemOk S endpoint P i := fun i hi => hitems i (mem_add.mpr (.inl hi))
  have hawaits1 : c1.daemon.Awaits S endpoint P := by
    rw [hreport.daemon]
    exact hawaits
  exact hmoves.awaits (htakes.ok hok1 hconnects) ((htakes.passes hok1 hm).ok hitems1) (htakes.awaits hawaits1)

/-! ## The assertion on fragments -/

lemma localLoop_eq_ok (hwhole : ∀ r ∈ queue, r.primaryBlock.fragmentOffset = none) (c : Context) :
    ∃ x, localLoop w destination sender queue c = .ok x := by
  induction queue generalizing c with
  | nil => exact ⟨_, rfl⟩
  | cons _ _ ih =>
    obtain ⟨hr, hqueue⟩ := List.forall_mem_cons.mp hwhole
    rw [localLoop, hr, Option.isSome_none, if_neg Bool.false_ne_true]
    split
    · exact ih hqueue _
    · exact ⟨_, rfl⟩
    · exact ⟨_, rfl⟩

lemma deliverLocalBundles_eq_ok (hwhole : ∀ queue, c.daemon.localBundles.get destination = some queue →
      ∀ r ∈ queue, r.primaryBlock.fragmentOffset = none) : ∃ c', c.deliverLocalBundles w destination = .ok c' := by
  unfold deliverLocalBundles
  split
  · rename_i sender queue hsender hqueue
    obtain ⟨x, hx⟩ : ∃ x, localLoop w destination sender queue c = .ok x :=
      localLoop_eq_ok (hwhole queue hqueue) c
    exact ⟨_, by rw [hx, Outcome.ok_bind]; rfl⟩
  · exact ⟨c, rfl⟩

/-- A bundle that is not a fragment and has one block can be encoded. -/
lemma toVec_report (data : List UInt8) (hflags : pb.bundleProcessingFlags.Defined)
    (hoffset : pb.fragmentOffset = none) (htotal : pb.totalDataLength = none) :
    ∃ bytes, (Bundle.mk pb [⟨.payload ⟨data⟩, 1, .empty, .noCRC⟩]).toVec = .ok bytes := by
  refine Bundle.Shaped.toVec ⟨cons_ne_nil _ _, by rw [hoffset, htotal], ⟨hflags, ?_⟩, ?_⟩
  · exact forall_mem_singleton.mpr (show BlockFlags.empty.Defined by decide)
  · exact forall_mem_singleton.mpr trivial

lemma sendStatusReport_eq_ok (c : Context) (r : StoredBundleRef) (reason : BundleStatusReason) (a b d e : Bool) :
    ∃ data, c.sendStatusReport w r reason a b d e = .ok (c.send (.storage (.storeNewBundle data))) := by
  have hencoded {report : Bundle} (h : ∃ bytes, report.toVec = .ok bytes) (f : List UInt8 → Outcome Empty Context) :
      ∃ bytes, (report.toVec.unwrap >>= f) = f bytes := by
    obtain ⟨bytes, hbytes⟩ := h
    exact ⟨bytes, by rw [hbytes]; rfl⟩
  exact hencoded (toVec_report _ (show BundleFlags.administrativeRecord.Defined by decide) rfl rfl) _

/-- A report is sent if it is requested, and there is no error. -/
lemma reported_eq_ok (c : Context) (r : StoredBundleRef) (reason : BundleStatusReason) (requested a b d e : Bool) :
    ∃ c', (if !requested then .ok c else c.sendStatusReport w r reason a b d e) = .ok c' := by
  split
  · exact ⟨c, rfl⟩
  · obtain ⟨_, hdata⟩ := sendStatusReport_eq_ok (w := w) c r reason a b d e
    exact ⟨_, hdata⟩

lemma sendStatusReportDelivered_eq_ok (c : Context) (r : StoredBundleRef) :
    ∃ c', c.sendStatusReportDelivered w r = .ok c' := reported_eq_ok ..

lemma sendStatusReportReceived_eq_ok (c : Context) (r : StoredBundleRef) :
    ∃ c', c.sendStatusReportReceived w r = .ok c' := reported_eq_ok ..

/-- The messages whose handlers call `deliver_local_bundles`. -/
def Message.delivers : Message → Bool
  | .eventBundleUpdated r => r.state = .deliveryQueued
  | .eventBundleDelivered _ _ | .eventClientConnected _ _ => true
  | _ => false

/-- The assertion holds, as the queue and the message have no fragments: these handlers return. -/
lemma handle_eq_ok (hm : m.delivers = true)
    (hitems : ∀ i ∈ m.items + d.items, ItemOk S endpoint P i) : ∃ x, d.handle S w accepts m = .ok x := by
  have hwhole {k r} (hi : (.localQueue k, r) ∈ m.items + d.items) :
      r.primaryBlock.fragmentOffset = none := by
    obtain ⟨hr, hst, -⟩ := hitems _ hi
    exact (hr.deliveryQueued hst).2
  have hqueues (k : Endpoint) (queue : List StoredBundleRef) (hq : d.localBundles.get k = some queue) :
      ∀ r ∈ queue, r.primaryBlock.fragmentOffset = none :=
    fun r hr => hwhole (mem_add.mpr (.inr (mem_items_local hq hr)))
  suffices h : ∃ c', handle S w ⟨d, accepts, []⟩ m = .ok c' by
    obtain ⟨_, hc'⟩ := h
    exact ⟨_, by rw [Daemon.handle, hc']; rfl⟩
  cases m with
  | eventBundleUpdated r =>
    have hst : r.state = .deliveryQueued := of_decide_eq_true hm
    obtain ⟨hr, -⟩ := hitems (.protocolBox (.eventBundleUpdated r), r)
      (mem_add.mpr (.inl (Multiset.mem_singleton_self _)))
    rw [handle, eventBundleUpdated, hst]
    refine deliverLocalBundles_eq_ok fun queue hq => ?_
    cases (get_insert_self ..).symm.trans hq
    refine forall_mem_append.mpr ⟨fun r' hr' => ?_, forall_mem_singleton.mpr (hr.deliveryQueued hst).2⟩
    obtain ⟨queue, hget, hr'⟩ := exists_of_mem_list hr'
    exact hqueues _ queue hget r' hr'
  | eventBundleDelivered k r =>
    obtain ⟨c1, hc1⟩ := sendStatusReportDelivered_eq_ok (w := w) (retainLocal ⟨d, accepts, []⟩ k r) r
    rw [handle, eventBundleDelivered, hc1, Outcome.ok_bind]
    refine deliverLocalBundles_eq_ok ?_
    have hdaemon : (c1.update r .delivered none).daemon.localBundles = d.localBundles := by
      change c1.daemon.localBundles = _
      rw [(reported hc1).daemon]
      rfl
    rw [hdaemon]
    exact hqueues k
  | eventClientConnected k => exact deliverLocalBundles_eq_ok (hqueues k)
  | _ => cases hm

end Protocol

/-! ## Runs -/

namespace Node

variable {n n' : Node} {e : NodeEvent}

lemma mem_items_queued (hi : i ∈ n.protocol.items) : i ∈ n.items := by grind [Node.items]

/-- The references in the message that is handled next and in the queues. -/
lemma Sound.front (hn : n.Sound S endpoint) (hbox : n.protocolBox = m :: box) :
    ∀ i ∈ m.items + n.protocol.items, ItemOk S endpoint n.parties i := by
  grind [hn.items, mem_items_front, mem_items_queued]

lemma Step.awaits (h : Step S n e n') (hn : n.Sound S endpoint) (ha : n.protocol.Awaits S endpoint n.parties) :
    n'.protocol.Awaits S endpoint n'.parties := by
  cases h with
  | @protocol m box _ _ d commands hbox h =>
    obtain ⟨_, _, _, hn'⟩ := foldl_deliver_eq { n with protocol := d, protocolBox := box }
      commands
    have hawaits := handle_awaits h hn.knows.context (hn.knows.connects m (by rw [hbox]; exact List.mem_cons_self))
      (hn.front hbox) ha
    rw [hn']
    exact ⟨hawaits.delivery, hawaits.forwarding⟩
  | _ => exact ⟨ha.delivery, ha.forwarding⟩

lemma reaches_awaits (h : (node S endpoint found files).Reaches allowed n) :
    n.protocol.Awaits S endpoint n.parties := by
  refine (h.invariant (fun n => n.Kept S endpoint files ∧ n.protocol.Awaits S endpoint n.parties) (fun n h => ?_)
    fun n e n' hn _ h => ?_).2
  · obtain ⟨_, -, rfl⟩ := start_eq_ok h
    exact ⟨start_kept h, fun _ => forall_mem_nil _, fun _ => forall_mem_nil _⟩
  · have hstep := next_step h.2
    exact ⟨hstep.kept h.1 hn.1,
      hstep.awaits hn.1.sound hn.2⟩

end Node

open Node

/-- What is queued or pending for a client under this endpoint. -/
structure ForClient (endpoint k : Endpoint) (r : StoredBundleRef) : Prop where
  destination : r.primaryBlock.destinationEndpoint = k
  isLocal : endpoint.matchesNode r.primaryBlock.destinationEndpoint = (.ok true : Outcome Empty Bool)
  whole : r.primaryBlock.fragmentOffset = none

/-- What is queued or pending for this node. -/
structure ForNode (endpoint k : Endpoint) (r : StoredBundleRef) : Prop where
  destination : r.primaryBlock.destinationEndpoint.getNodeEndpoint = (.ok k : Outcome Empty Endpoint)
  isRemote : endpoint.matchesNode r.primaryBlock.destinationEndpoint = (.ok false : Outcome Empty Bool)

lemma ItemOk.forClient (h : ItemOk S endpoint P (.localQueue k, r)) : ForClient endpoint k r := by
  obtain ⟨hr, hst, hk⟩ := h
  exact ⟨hk, (hr.deliveryQueued hst).1, (hr.deliveryQueued hst).2⟩

lemma ItemOk.forNode (h : ItemOk S endpoint P (.remoteQueue k, r)) : ForNode endpoint k r := by
  obtain ⟨hr, hst, hk⟩ := h
  exact ⟨hk, hr.forwardingQueued hst⟩

/-- The queues are in order in every state of a node. So the handlers that call
`deliver_local_bundles` return, and what they offer to a client has the endpoint
that it listens on as its destination. -/
theorem queues_disciplined {n : Node} (h : (node S endpoint found files).Reaches (fun _ _ => True) n) :
    (∀ k, (∀ r ∈ n.protocol.localBundles.list k, ForClient endpoint k r) ∧
      ∀ r ∈ n.protocol.bundlesPendingLocalDelivery.list k, ForClient endpoint k r) ∧
    (∀ k, (∀ r ∈ n.protocol.remoteBundles.list k, ForNode endpoint k r) ∧
      ∀ r ∈ n.protocol.bundlesPendingForwarding.list k, ForNode endpoint k r) ∧
    ∀ m box, n.protocolBox = m :: box → ∀ accepts now,
      (m.delivers = true → ∃ x, n.protocol.handle S (n.world now) accepts m = .ok x) ∧
      ∀ d commands, n.protocol.handle S (n.world now) accepts m = .ok (d, commands) →
        ∀ a r, .clientDeliverBundle a r ∈ commands →
          (n.listeners.get a).map (·.endpoint) = some r.primaryBlock.destinationEndpoint := by
  have hn := (reaches_kept h).sound
  have ha := reaches_awaits h
  refine ⟨fun k => ⟨fun r hr => ?_, fun r hr => (ha.delivery k r hr).forClient⟩,
    fun k => ⟨fun r hr => ?_, fun r hr => (ha.forwarding k r hr).forNode⟩, fun m box hbox accepts now =>
      ⟨fun hm => ?_, ?_⟩⟩
  · obtain ⟨queue, hget, hr⟩ := exists_of_mem_list hr
    exact (hn.items _ (mem_items_queued (mem_items_local hget hr))).forClient
  · obtain ⟨queue, hget, hr⟩ := exists_of_mem_list hr
    exact (hn.items _ (mem_items_queued (mem_items_remote hget hr))).forNode
  · exact handle_eq_ok hm (hn.front hbox)
  · intro d commands hhandle a r hmem
    have hm : ∀ i ∈ m.items, ItemOk S endpoint n.parties i := fun i hi => hn.items i (mem_items_front hbox hi)
    obtain ⟨-, hpasses⟩ := handle_passes hhandle hn.knows.context
      (hn.knows.connects m (by rw [hbox]; exact List.mem_cons_self)) hm
    have hsent : (.clientMailbox a, r) ∈ (commands.map Protocol.Command.items).sum + d.items :=
      mem_add.mpr (.inl (mem_sum_map.mpr ⟨_, hmem, Multiset.mem_singleton_self _⟩))
    exact (hpasses.ok (hn.front hbox) _ hsent).2.2

/-- A bundle is with its client. -/
theorem queues_disciplined_parcel :
    ∃ n, (node .plain (.ipn ⟨1, 0⟩) [] []).Reaches (fun _ _ => True) n ∧
      ∃ r ∈ n.protocol.bundlesPendingLocalDelivery.list (.ipn ⟨1, 5⟩), ForClient (.ipn ⟨1, 0⟩) (.ipn ⟨1, 5⟩) r := by
  obtain ⟨n, hreaches, hne⟩ := reaches_any (fun _ _ => True) parcelEvents
    (fun n => n.protocol.bundlesPendingLocalDelivery.list (.ipn ⟨1, 5⟩) ≠ []) (by decide +kernel)
  obtain ⟨r, hr⟩ := List.exists_mem_of_ne_nil _ hne
  exact ⟨n, hreaches, r, hr, ((queues_disciplined hreaches).1 _).2 r hr⟩

end Dtn.Dtrd
