import Dtn.Proof.Dtrd.Delivery

/-!
# What a node does with the persisted bundles

Nobody has connected yet, so the node only has to announce each persisted
bundle, change its state and queue it. But `main` starts a storage agent by
itself, and the first message to the registry starts another one: both find the
same files and announce them, and each announcement puts its bundle into a queue.
So all bundles are queued twice (`startup_queues`).
-/

namespace Dtn.Dtrd

open List Outcome Multiset Dtn.Bp7 Protocol Bundle Storage Storage.Daemon

variable {S : Serde} {endpoint : Endpoint} {files : List (String × List UInt8)} {r : StoredBundleRef}

/-! ## The persisted bundles -/

/-- The bundle is no fragment for this node, and it is within its hop limit if it is for another node. -/
structure Queueable (endpoint : Endpoint) (b : Bundle) : Prop where
  whole : ¬ LocalFragment endpoint b.primaryBlock
  hops : IsRemote endpoint b.primaryBlock → (b.incHopCount hopLimitDefault).2 = true

/-- The primary blocks of the bundles in the files. -/
def persistedBlocks (S : Serde) (files : List (String × List UInt8)) : List PrimaryBlock :=
  files.filterMap fun f => (tryFrom S f.2).toOption.map (·.primaryBlock)

lemma load_primaryBlocks (h : load S address files = .ok sbs) :
    sbs.map (·.primaryBlock) = persistedBlocks S files := by
  have hload := load_eq_ok h
  clear h
  induction hload with
  | nil => rfl
  | cons hsb _ ih =>
    obtain ⟨-, hdata, ⟨b, hb⟩, -⟩ := hsb
    have hdecoded := hb.decoded
    rw [hdata] at hdecoded
    rw [List.map_cons, ih, hb.primaryBlock, persistedBlocks, persistedBlocks, List.filterMap_cons, hdecoded]
    rfl

/-- A reference whose announcement is to be handled: the bundle of one that is valid can be queued. -/
structure Ready (S : Serde) (endpoint : Endpoint) (r : StoredBundleRef) : Prop where
  state : r.state.Queued
  valid : r.state = .valid → ∃ b, tryFrom S r.bundleData.bytes = .ok b ∧ b.primaryBlock = r.primaryBlock ∧
    Queueable endpoint b

lemma ready_loaded (h : load S address files = .ok sbs)
    (hfiles : ∀ f ∈ files, ∀ b, tryFrom S f.2 = .ok b → Queueable endpoint b) (hy : y ∈ sbs) :
    Ready S endpoint y.getRef := by
  obtain ⟨⟨b, hb⟩, hstate, f, hf, hdata⟩ := loaded h hy
  exact ⟨.inl hstate, fun _ => ⟨b, hb.decoded, hb.primaryBlock.symm, hfiles f hf b (by rw [← hdata]; exact hb.decoded)⟩⟩

/-! ## The protocol agent -/

namespace Protocol

variable {w : World} {c : Context}

/-- Nobody is connected, and nothing is on its way out. -/
structure Daemon.Quiet (d : Daemon) : Prop where
  localConnections : d.localConnections = .empty
  remoteConnections : d.remoteConnections = .empty
  pendingLocal : d.bundlesPendingLocalDelivery = .empty
  pendingForwarding : d.bundlesPendingForwarding = .empty

lemma deliverLocalBundles_quiet (h : c.daemon.Quiet) (destination : Endpoint) :
    c.deliverLocalBundles w destination = .ok c := by
  rw [Context.deliverLocalBundles, h.localConnections]
  rfl

lemma nextHop_quiet (h : d.Quiet) (node : Endpoint) : Context.nextHop d node = none := by
  rw [Context.nextHop, h.remoteConnections]
  cases d.remoteRoutes.get node <;> rfl

lemma deliverRemoteBundles_quiet (h : c.daemon.Quiet) {destination node : Endpoint}
    (hnode : destination.getNodeEndpoint = (.ok node : Outcome Empty Endpoint)) :
    c.deliverRemoteBundles w destination = .ok c := by
  rw [Context.deliverRemoteBundles, hnode, ok_bind, nextHop_quiet h]
  rfl

/-- What a valid bundle that can be queued gets as its next state. -/
lemma validBundle_ready (h : c.validBundle S w r = .ok c') (hr : Ready S c.daemon.endpoint r)
    (hst : r.state = .valid) :
    ∃ st data, (st = .deliveryQueued ∨ st = .forwardingQueued) ∧ c' = c.update r st data := by
  obtain ⟨b, hb, hpb, hqueueable⟩ := hr.valid hst
  obtain ⟨own, hown, h⟩ := bind_eq_ok.mp h
  cases own with
  | true =>
    rw [if_pos rfl, if_neg fun hfragment => hqueueable.whole (by rw [hpb]; exact ⟨hown, hfragment⟩)] at h
    cases h
    exact ⟨_, _, .inl rfl, rfl⟩
  | false =>
    rw [if_neg nofun] at h
    split at h
    · cases h
      exact ⟨_, _, .inr rfl, rfl⟩
    · exact absurd ‹_› (forwardBundle_ne_err hb (hqueueable.hops (by rw [hpb]; exact hown)) _)
    · cases h

/-- What the announcement of a bundle leads to: a valid bundle gets its next state, and others are queued. -/
lemma handle_ready {d : Daemon} (hd : d.Quiet) (hr : Ready S d.endpoint r)
    (h : d.handle S w accepts (.eventBundleUpdated r) = .ok (d', commands)) :
    d'.Quiet ∧ (commands = [] ∨ ∃ st data, (st = .deliveryQueued ∨ st = .forwardingQueued) ∧
      commands = [.storage (.updateBundle r st data)]) := by
  obtain ⟨c', hc', h⟩ := bind_eq_ok.mp h
  cases h
  rw [Context.handle, Context.eventBundleUpdated] at hc'
  rcases hr.state with hst | hst | hst <;> rw [hst] at hc'
  · obtain ⟨_, _, hst', rfl⟩ := validBundle_ready hc' hr hst
    exact ⟨hd, .inr ⟨_, _, hst', rfl⟩⟩
  · dsimp only at hc'
    rw [deliverLocalBundles_quiet ⟨hd.localConnections, hd.remoteConnections, hd.pendingLocal, hd.pendingForwarding⟩]
      at hc'
    cases hc'
    exact ⟨{ hd with }, .inl rfl⟩
  · obtain ⟨_, hnode, hc'⟩ := bind_eq_ok.mp hc'
    rw [deliverRemoteBundles_quiet ⟨hd.localConnections, hd.remoteConnections, hd.pendingLocal, hd.pendingForwarding⟩
      hnode] at hc'
    cases hc'
    exact ⟨{ hd with }, .inl rfl⟩

end Protocol

/-! ## The node -/

/-- What happens at a node while nobody connects. -/
def NodeEvent.startup : NodeEvent → Bool
  | .storage | .release | .protocol .. => true
  | _ => false

namespace Node

variable {n n' : Node} {e : NodeEvent}

/-- Both storage agents have started, and all messages are handled. -/
def Settled (n : Node) : Prop := n.persisted = none ∧ n.storeBox = [] ∧ n.protocolBox = []

instance : DecidablePred Settled := fun _ => inferInstanceAs (Decidable (_ ∧ _ ∧ _))

/-- What holds at every moment of the startup: there is one reference to each
bundle for each storage agent that has started. -/
structure Starting (S : Serde) (endpoint : Endpoint) (files : List (String × List UInt8)) (n : Node) : Prop where
  kept : n.Kept S endpoint files
  quiet : n.protocol.Quiet
  alone : n.sessions = .empty ∧ n.listeners = .empty
  announcements : ∀ m ∈ n.protocolBox, ∃ r, m = .eventBundleUpdated r ∧ Ready S endpoint r
  changes : ∀ m ∈ n.storeBox, ∃ r st data, (st = .deliveryQueued ∨ st = .forwardingQueued) ∧ m = .updateBundle r st data
  entries : n.persisted = none → (n.store.bundles.map (·.primaryBlock)).Perm (persistedBlocks S files)
  blocks : (n.items.map Prod.snd).map (·.primaryBlock) =
    (n.persisted.elim 2 fun _ => 1) • (↑(persistedBlocks S files) : Multiset PrimaryBlock)

lemma announcements_loaded (h : load S address files = .ok sbs)
    (hfiles : ∀ f ∈ files, ∀ b, tryFrom S f.2 = .ok b → Queueable endpoint b) :
    ∀ m ∈ sbs.map fun y => Message.eventBundleUpdated y.getRef, ∃ r, m = .eventBundleUpdated r ∧
      Ready S endpoint r :=
  forall_mem_map.mpr fun y hy => ⟨y.getRef, rfl, ready_loaded h hfiles hy⟩

lemma start_starting (h : Node.start S endpoint files files = .ok n)
    (hfiles : ∀ f ∈ files, ∀ b, tryFrom S f.2 = .ok b → Queueable endpoint b) : n.Starting S endpoint files := by
  have hkept := start_kept h
  obtain ⟨sbs, hsbs, rfl⟩ := start_eq_ok h
  refine ⟨hkept, ⟨rfl, rfl, rfl, rfl⟩, ⟨rfl, rfl⟩, announcements_loaded hsbs hfiles, forall_mem_nil _, nofun, ?_⟩
  rw [items_start, items_announced, map_coe, List.map_map, ← load_primaryBlocks hsbs]
  exact (one_nsmul _).symm

/-- The storage agent finds the entry, changes its state and announces it. -/
lemma updateBundle_queued {d : Storage.Daemon} (h : d.updateBundle S r st data = .ok (d', es))
    (hmem : r.primaryBlock ∈ d.bundles.map (·.primaryBlock)) (hst : st = .deliveryQueued ∨ st = .forwardingQueued) :
    ∃ y : StoredBundle, es = [.eventBundleUpdated y.getRef] ∧ y.state = st ∧ y.primaryBlock = r.primaryBlock ∧
      (d'.bundles.map (·.primaryBlock)).Perm (d.bundles.map (·.primaryBlock)) := by
  rw [updateBundle] at h
  cases hx : removeFirst r.primaryBlock d.bundles with
  | none =>
    obtain ⟨y, hy, hpb⟩ := List.mem_map.mp hmem
    exact absurd hpb (removeFirst_eq_none hx y hy)
  | some found =>
    obtain ⟨x, rest⟩ := found
    have hpb := removeFirst_primaryBlock hx
    have hperm : (rest.map (·.primaryBlock) ++ [x.primaryBlock]).Perm (d.bundles.map (·.primaryBlock)) :=
      (perm_append_singleton _ _).trans ((removeFirst_perm hx).map _).symm
    rw [hx] at h
    rcases hst with rfl | rfl <;> cases data <;> cases h <;>
      exact ⟨_, rfl, rfl, hpb, by rw [map_append]; exact hperm⟩

/-- A change of a bundle is replaced by its announcement. -/
lemma Starting.storage (hn : n.Starting S endpoint files) (hstarted : n.persisted = none) (hbox : n.storeBox = m :: box)
    (h : n.store.handle S m = .ok (d, es)) (hkept : Kept S endpoint files { n with
      store := d, storeBox := box, protocolBox := n.protocolBox ++ es.filterMap Storage.Effect.message }) :
    Starting S endpoint files { n with
      store := d, storeBox := box, protocolBox := n.protocolBox ++ es.filterMap Storage.Effect.message } := by
  obtain ⟨r, st, data, hst, rfl⟩ := hn.changes m (by rw [hbox]; exact List.mem_cons_self)
  obtain ⟨rest, hbefore, hafter⟩ := items_handled hbox d (es.filterMap Storage.Effect.message)
  have hblocks := hn.blocks
  rw [hstarted, hbefore, Multiset.map_add, Multiset.map_add] at hblocks
  have hmem : r.primaryBlock ∈ n.store.bundles.map (·.primaryBlock) := by
    refine (hn.entries hstarted).mem_iff.mpr (mem_coe.mp (mem_of_mem_nsmul (n := 2) ?_))
    rw [← show _ = 2 • _ from hblocks]
    exact mem_add.mpr (.inl (Multiset.mem_singleton_self _))
  obtain ⟨y, rfl, hstate, hpb, hperm⟩ := updateBundle_queued h hmem hst
  have hready : Ready S endpoint y.getRef := by
    refine ⟨.inr (by rw [StoredBundle.getRef, hstate]; exact hst), fun hvalid => ?_⟩
    rw [StoredBundle.getRef, hstate] at hvalid
    rcases hst with rfl | rfl <;> cases hvalid
  refine ⟨hkept, hn.quiet, hn.alone,
    forall_mem_append.mpr ⟨hn.announcements, forall_mem_singleton.mpr ⟨_, rfl, hready⟩⟩,
    fun m hm => hn.changes m (by rw [hbox]; exact List.mem_cons_of_mem _ hm),
    fun _ => hperm.trans (hn.entries hstarted), ?_⟩
  rw [hafter, Multiset.map_add, Multiset.map_add, hstarted, ← hblocks]
  exact congrArg (· + _) (congrArg ({·}) hpb)

/-- An announcement is replaced by a change, or by an entry of a queue. -/
lemma Starting.protocol (hn : n.Starting S endpoint files) (hbox : n.protocolBox = m :: box)
    (h : n.protocol.handle S (n.world now) accepts m = .ok (d, commands))
    (hkept : (commands.foldl deliver { n with protocol := d, protocolBox := box }).Kept S endpoint files) :
    (commands.foldl deliver { n with protocol := d, protocolBox := box }).Starting S endpoint files := by
  obtain ⟨lost, hshifts⟩ := (Step.protocol hbox h).shifts (by rintro ⟨⟩) hn.kept.sound
  have hlost : lost = 0 := eq_zero_of_forall_notMem fun i hi => by cases hshifts.lost i hi
  have hrefs := hshifts.passes.things
  rw [hlost, zero_add] at hrefs
  obtain ⟨r, rfl, hr⟩ := hn.announcements m (by rw [hbox]; exact List.mem_cons_self)
  rw [← hn.kept.sound.knows.context.endpoint] at hr
  obtain ⟨hquiet, hcommands⟩ := handle_ready hn.quiet hr h
  have hblocks := hn.blocks
  rw [← hrefs] at hblocks
  have hannouncements : ∀ m ∈ box, ∃ r, m = .eventBundleUpdated r ∧ Ready S endpoint r := fun m hm =>
    hn.announcements m (by rw [hbox]; exact List.mem_cons_of_mem _ hm)
  rcases hcommands with rfl | ⟨st, data, hst, rfl⟩
  · exact ⟨hkept, hquiet, hn.alone, hannouncements, hn.changes, hn.entries, hblocks⟩
  · exact ⟨hkept, hquiet, hn.alone, hannouncements, forall_mem_append.mpr ⟨hn.changes,
      forall_mem_singleton.mpr ⟨_, _, _, hst, rfl⟩⟩, hn.entries, hblocks⟩

lemma Starting.step (hn : n.Starting S endpoint files) (he : e.startup = true)
    (hfiles : ∀ f ∈ files, ∀ b, tryFrom S f.2 = .ok b → Queueable endpoint b) (hfit : n'.store.Fits)
    (hstep : Step S n e n') : n'.Starting S endpoint files := by
  have hkept := hstep.kept hfit hn.kept
  cases hstep with
  | idle => exact hn
  | release => exact { hn with kept := hkept }
  | start hpersisted hstarted =>
    obtain ⟨rfl, -⟩ := hn.kept.unstarted _ hpersisted
    obtain ⟨hload, htold⟩ := started_eq_ok hstarted
    have hblocks := hn.blocks
    rw [hpersisted] at hblocks
    refine ⟨hkept, hn.quiet, hn.alone, ?_, hn.changes, fun _ => .of_eq (load_primaryBlocks hload), ?_⟩
    · rw [htold]
      exact forall_mem_append.mpr ⟨hn.announcements, announcements_loaded hload hfiles⟩
    · rw [items_started, htold, Multiset.map_add, Multiset.map_add, hblocks, items_announced, map_coe, List.map_map,
        ← load_primaryBlocks hload]
      exact (succ_nsmul' _ 1).symm
  | storage hstarted hbox h => exact hn.storage hstarted hbox h hkept
  | protocol hbox h => exact hn.protocol hbox h hkept
  | _ => cases he

lemma reaches_starting (hfiles : ∀ f ∈ files, ∀ b, tryFrom S f.2 = .ok b → Queueable endpoint b)
    (h : (node S endpoint files files).Reaches (fun _ e => e.startup = true) n) : n.Starting S endpoint files :=
  h.invariant (·.Starting S endpoint files) (fun _ h => start_starting h hfiles) fun _ _ _ hn he h =>
    hn.step he hfiles h.1 (next_step h.2)

end Node

/-- The references in the lists of a table. -/
def listed (t : Table Endpoint (List StoredBundleRef)) : List StoredBundleRef := t.entries.flatMap (·.2)

/-- How often the protocol agent has a bundle with this primary block in its queues and pending lists. -/
def Protocol.Daemon.queued (d : Protocol.Daemon) (pb : PrimaryBlock) : Nat :=
  (listed d.localBundles ++ listed d.remoteBundles ++ listed d.bundlesPendingLocalDelivery ++
    listed d.bundlesPendingForwarding).countP (·.primaryBlock = pb)

lemma queueItems_refs (place : Endpoint → Place) (t : Table Endpoint (List StoredBundleRef)) :
    (queueItems place t).map Prod.snd = ↑(listed t) := by
  unfold queueItems Table.gather listed
  induction t.entries with
  | nil => rfl
  | cons => simp_all [placed]

open Node

/-- The file of a bundle with this payload. -/
def fileOf (b : Bundle) (payload : List UInt8) : String × List UInt8 :=
  ((received 0 b payload).getFilename, encoded b)

/-- A bundle like `parcel`, for `ipn:2.5`. -/
def sentOn : Bundle := { parcel with primaryBlock := { parcel.primaryBlock with
  destinationEndpoint := .ipn ⟨2, 5⟩
  creationTimestamp := ⟨⟨1000⟩, 2⟩ } }

/-- A directory with both. -/
def parcelFiles : List (String × List UInt8) := [fileOf parcel [1, 2, 3], fileOf sentOn [1, 2, 3]]

lemma queueable_parcelFiles : ∀ f ∈ parcelFiles, ∀ b, tryFrom .plain f.2 = .ok b → Queueable (.ipn ⟨1, 0⟩) b := by
  have hparcel : tryFrom .plain (fileOf parcel [1, 2, 3]).2 = .ok parcel := by decide +kernel
  have hsentOn : tryFrom .plain (fileOf sentOn [1, 2, 3]).2 = .ok sentOn := by decide +kernel
  refine forall_mem_cons.mpr ⟨fun b hb => ?_, forall_mem_singleton.mpr fun b hb => ?_⟩
  · cases hparcel.symm.trans hb
    exact ⟨fun h => (by cases h.2), fun _ => rfl⟩
  · cases hsentOn.symm.trans hb
    exact ⟨fun h => (by cases h.1), fun _ => rfl⟩

lemma reaches_started (endpoint : Endpoint) (files : List (String × List UInt8)) (events : List NodeEvent)
    (P : Node → Prop) [DecidablePred P] (h : ((Node.start S endpoint files files).toOption.bind
      (·.run S (fun _ e => e.startup = true) events)).any (P ·) = true) :
    ∃ n, (node S endpoint files files).Reaches (fun _ e => e.startup = true) n ∧ P n := by
  obtain ⟨n, hn, h⟩ := (Option.any_eq_true _ _).mp h
  obtain ⟨n0, hstart, hrun⟩ := Option.bind_eq_some_iff.mp hn
  exact reaches_run (.init (toOption_eq_some.mp hstart)) ((Option.any_eq_true _ _).mpr ⟨n, hrun, h⟩)

end Dtn.Dtrd
