import Mathlib.Data.List.Pairwise
import Dtn.Proof.Dtrd.Node

/-!
# References and stored bundles

`Sound` says that every reference of a node is in order in its place, and every
stored bundle too; no event breaks it (`Step.sound`). `Owned` says that the
references to some class of bundles are exactly those to the stored bundles of
that class. The storage agent keeps it as long as these bundles are distinct
(`Step.owned_storage`), and every other event as long as none of them is lost
(`Step.owned_outside`).
-/

namespace Dtn.Dtrd

open List Multiset Dtn.Bp7 Protocol

variable {S : Serde} {endpoint : Endpoint}
variable {y : StoredBundle} {address : Nat}

/-- A bundle for this node that is a fragment. -/
def LocalFragment (endpoint : Endpoint) (pb : PrimaryBlock) : Prop := IsLocal endpoint pb ∧ pb.fragmentOffset.isSome

lemma IsRemote.not_localFragment (h : IsRemote endpoint pb) : ¬ LocalFragment endpoint pb :=
  fun hlocal => nomatch hlocal.1.symm.trans h

/-- What a bundle is forwarded as: the encoding of a bundle with the same primary block. -/
lemma ForwardsTo.encodes (h : ForwardsTo S endpoint r (.ok bs)) :
    ∃ b0 b2 : Bundle, Bundle.tryFrom S r.bundleData.bytes = .ok b0 ∧ b2.Shaped ∧ b2.primaryBlock = b0.primaryBlock ∧
      b2.toVec = .ok bs := by
  obtain ⟨_, _, -, hforward⟩ := h
  obtain ⟨hb0, h1, h2, hv⟩ := forwardBundle_eq_ok hforward
  rename_i b0 b1 b2
  have hshaped := tryFrom_shaped hb0
  obtain ⟨hs1, hp1⟩ : b1.Shaped ∧ b1.primaryBlock = b0.primaryBlock := by
    rcases h1 with rfl | h1
    · exact ⟨hshaped, rfl⟩
    · exact ⟨h1.shaped hshaped, h1.primaryBlock⟩
  exact ⟨b0, b2, hb0, h2.shaped hs1, h2.primaryBlock.trans hp1, hv⟩

/-- What a bundle is forwarded as is still this bundle, and decodes to what was encoded. -/
lemma ForwardsTo.decoded (h : ForwardsTo S endpoint r (.ok bs)) (hr : RefOk S endpoint r) (hfit : FitsInMemory bs)
    (hb : Bundle.tryFrom S bs = .ok b) : b.primaryBlock = r.primaryBlock ∧ b.toVec = .ok bs := by
  obtain ⟨b0, _, hb0, hs2, hp2, hv⟩ := h.encodes
  obtain ⟨-, rfl⟩ := hs2.decoded hv hfit hb
  exact ⟨hp2.trans (hr.decoded b0 hb0), hv⟩

/-! ## The storage agent -/

namespace Storage

/-- What a message takes out of the store, and what it puts in and announces. -/
structure Exchange (endpoint : Endpoint) (sbs : List StoredBundle) (m : Message) (sbs' : List StoredBundle)
    (es : List Effect) (gone stay new : List StoredBundle) : Prop where
  before : sbs.Perm (gone ++ stay)
  after : sbs'.Perm (stay ++ new)
  told : es.filterMap Effect.message = new.map fun y => .eventBundleUpdated y.getRef
  unasked : m.bundleref = none → gone = []
  fragments : ∀ r, m.bundleref = some r → LocalFragment endpoint r.primaryBlock →
    ∀ x ∈ gone, LocalFragment endpoint x.primaryBlock
  found : ∀ r, m.bundleref = some r → ¬ LocalFragment endpoint r.primaryBlock →
    (∃ x, gone = [x] ∧ x.primaryBlock = r.primaryBlock) ∨ gone = [] ∧ ∀ y ∈ sbs, y.primaryBlock ≠ r.primaryBlock

/-- The entry with the primary block of the reference is replaced. -/
lemma Exchange.replaced {m : Message} {r : StoredBundleRef} {x : StoredBundle}
    {es : List Effect} (hr : m.bundleref = some r) (hx : removeFirst r.primaryBlock sbs = some (x, rest))
    (told : es.filterMap Effect.message = new.map fun y => .eventBundleUpdated y.getRef) :
    Exchange endpoint sbs m (rest ++ new) es [x] rest new where
  before := removeFirst_perm hx
  after := .refl _
  told := told
  unasked h := by cases hr.symm.trans h
  fragments r' hr' hlocal := by grind [removeFirst_primaryBlock]
  found r' hr' _ := by grind [removeFirst_primaryBlock]

/-- Nothing is taken out, as the message does not refer to a bundle or only to a local fragment. -/
lemma Exchange.added (after : sbs'.Perm (sbs ++ new)) (told : es.filterMap Effect.message = new.map fun y =>
      .eventBundleUpdated y.getRef) (hm : ∀ r, m.bundleref = some r → LocalFragment endpoint r.primaryBlock) :
    Exchange endpoint sbs m sbs' es [] sbs new where
  before := .refl _
  after := after
  told := told
  unasked _ := rfl
  fragments _ _ _ := forall_mem_nil _
  found r hr hne := absurd (hm r hr) hne

lemma told_announce (ys : List StoredBundle) (sbs : List StoredBundle) :
    (ys.flatMap announce ++ sbs.map fun sb => Effect.deleteBundleFile sb.getFilename).filterMap Effect.message =
      ys.map fun y => .eventBundleUpdated y.getRef := by
  have hdeleted : (sbs.map fun sb => Effect.deleteBundleFile sb.getFilename).filterMap Effect.message = [] := by
    induction sbs with
    | nil => rfl
    | cons _ _ ih => exact ih
  rw [filterMap_append, hdeleted, append_nil]
  induction ys with
  | nil => rfl
  | cons _ _ ih =>
    rw [flatMap_cons, filterMap_append, ih]
    rfl

/-- The fragments that a bundle for this node is put together from are for this node too. -/
lemma localFragment_of_reassembled {sbs : List StoredBundle}
    (hbundles : List.Forall₂ (fun sb b => Bundle.tryFrom S sb.bundleData.bytes = .ok b)
      (sbs.filter (isFragmentOf S pb)) bundles) (hcan : Bundle.reassembleBundles bundles = .ok bs)
    (hentries : ∀ y ∈ sbs, RefOk S endpoint y.getRef)
    (hlocal : IsLocal endpoint pb) : ∀ x ∈ sbs.filter (isFragmentOf S pb), LocalFragment endpoint x.primaryBlock := by
  intro x hx
  obtain ⟨b, hb, hdecoded⟩ := forall₂_mem hbundles hx
  have hsome := ((Bundle.reassembleBundles_eq_ok hcan).1 b hb).1
  obtain ⟨hmem, hfragment⟩ := List.mem_filter.mp hx
  have hpb : b.primaryBlock = x.primaryBlock := (hentries x hmem).decoded b hdecoded
  rw [isFragmentOf, hdecoded] at hfragment
  have hdestination : b.primaryBlock.destinationEndpoint = pb.destinationEndpoint :=
    congrArg (·.destinationEndpoint) (eq_of_beq hfragment)
  rw [← hpb]
  exact ⟨by rw [IsLocal, hdestination]; exact hlocal, hsome⟩

lemma exchange_of_change {sbs sbs' : List StoredBundle} {m : Message} {es : List Effect} (h : Change S sbs m sbs' es)
    (hm : ∀ r, m.bundleref = some r → m.Ok S endpoint r) (hentries : ∀ y ∈ sbs, RefOk S endpoint y.getRef) :
    ∃ gone stay new, Exchange endpoint sbs m sbs' es gone stay new := by
  cases h with
  | received | created => exact ⟨_, _, _, .added (.refl _) rfl fun _ => nofun⟩
  | @missing _ r hr hx =>
    refine ⟨[], sbs, [], .refl _, by rw [append_nil], rfl, fun _ => rfl,
      fun _ _ _ => forall_mem_nil _, fun r' hr' _ => ?_⟩
    cases hr.symm.trans hr'
    exact .inr ⟨rfl, removeFirst_eq_none hx⟩
  | changed hx =>
    refine ⟨_, _, _, .replaced rfl hx ?_⟩
    split <;> rfl
  | @finished _ r st data x hx =>
    have h := @Exchange.replaced endpoint sbs _ [] (.updateBundle r st data) r x [.deleteBundleFile x.getFilename]
      rfl hx rfl
    rw [append_nil] at h
    exact ⟨_, _, _, h⟩
  | @waiting _ r _ _ _ _ hx =>
    have hfragment := (hm r rfl).2.2
    refine ⟨[], sbs, [], .added ?_ rfl fun r' hr' => by cases hr'; exact hfragment⟩
    rw [append_nil]
    exact perm_append_comm.trans ((filter_append_perm ..).trans (removeFirst_perm_append hx).symm)
  | @reassembled _ r _ x y _ _ hx _ hbundles hcan _ hy =>
    have hlocal := (hm r rfl).2.2
    have hperm := removeFirst_perm_append hx
    have hgone := localFragment_of_reassembled hbundles hcan (fun y hy => hentries y (hperm.mem_iff.mpr hy))
      (by rw [removeFirst_primaryBlock hx]; exact hlocal.1)
    exact ⟨_, _, _, hperm.trans (filter_append_perm (isFragmentOf S x.primaryBlock) _).symm, .refl _,
      told_announce [y] _, nofun, fun _ _ _ => hgone, fun r' hr' hne => by cases hr'; exact absurd hlocal hne⟩
  | tooSmall hx => exact ⟨_, _, _, .replaced rfl hx rfl⟩
  | @fragmented _ ys _ _ x _ _ _ hx => exact ⟨_, _, _, .replaced rfl hx (told_announce ys [x])⟩

/-! ## Entries in order -/

lemma refOk_of_describes (hy : ∃ b, y.Describes S b) (hst : y.state = .received ∨ y.state = .valid) :
    RefOk S endpoint y.getRef := by
  obtain ⟨_, hb⟩ := hy
  refine ⟨hst.imp_right .inl, fun h => ?_, fun h => ?_, fun b' hb' => ?_⟩
  · rcases hst with hst | hst <;> cases hst.symm.trans h
  · rcases hst with hst | hst <;> cases hst.symm.trans h
  · cases hb.decoded.symm.trans hb'
    exact hb.primaryBlock.symm

lemma refOk_changed {x : StoredBundle}
    (hpb : x.primaryBlock = r.primaryBlock) (hst : st.Queued) (hm : (Message.updateBundle r st data).Ok S endpoint r)
    (hr : RefOk S endpoint r) (hx : RefOk S endpoint x.getRef)
    (hfit : FitsInMemory (data.elim x.bundleData (⟨address, ·⟩)).bytes) :
    RefOk S endpoint (StoredBundle.getRef
      { x with state := st, bundleData := data.elim x.bundleData (⟨address, ·⟩) }) := by
  obtain ⟨-, hm⟩ := hm
  rcases hst with rfl | rfl | rfl
  · obtain ⟨-, rfl⟩ := hm
    exact ⟨.inr (.inl rfl), by rintro ⟨⟩, by rintro ⟨⟩, hx.decoded⟩
  · obtain ⟨-, hlocal, hwhole, rfl⟩ := hm
    refine ⟨.inr (.inr (.inl rfl)), fun _ => ?_, by rintro ⟨⟩, hx.decoded⟩
    rw [StoredBundle.getRef, hpb]
    exact ⟨hlocal, hwhole⟩
  · obtain ⟨-, hremote, _, rfl, hforward⟩ := hm
    refine ⟨.inr (.inr (.inr rfl)), by rintro ⟨⟩, fun _ => ?_, fun b hb => ?_⟩
    · rw [StoredBundle.getRef, hpb]
      exact hremote
    · rw [StoredBundle.getRef, hpb]
      exact (hforward.decoded hr hfit hb).1

lemma refOk_of_change (h : Change S sbs m sbs' es)
    (hm : ∀ r, m.bundleref = some r → RefOk S endpoint r ∧ m.Ok S endpoint r)
    (hfit : ∀ y ∈ sbs', FitsInMemory y.bundleData.bytes) (hentries : ∀ y ∈ sbs, RefOk S endpoint y.getRef) :
    ∀ y ∈ sbs', RefOk S endpoint y.getRef := by
  intro y hy
  cases h.origin hy with
  | kept hy => exact hentries y hy
  | fresh hdescribes hstate => exact refOk_of_describes hdescribes hstate
  | changed hupdate hx hst =>
    subst hupdate
    obtain ⟨hr, hok⟩ := hm _ rfl
    exact refOk_changed (removeFirst_primaryBlock hx) hst hok hr (hentries _ (removeFirst_mem hx).1) (hfit _ hy)
  | measured hx =>
    obtain ⟨hstate, hdelivery, hforwarding, hdecoded⟩ := hentries _ hx
    exact ⟨hstate, hdelivery, hforwarding, hdecoded⟩

end Storage

/-! ## Nodes -/

namespace Node

variable {n n' : Node} {e : NodeEvent}
variable {m : Storage.Message} {box : List Storage.Message} {files : List (String × List UInt8)}
  {es : List Storage.Effect}

lemma items_announced (ys : List StoredBundle) :
    ((ys.map fun y => Message.eventBundleUpdated y.getRef).map Message.items).sum.map Prod.snd =
      (↑(ys.map (·.getRef)) : Multiset StoredBundleRef) := by
  induction ys with
  | nil => rfl
  | cons _ _ ih =>
    rw [List.map_cons, List.map_cons, List.sum_cons, Multiset.map_add, ih]
    rfl

lemma mem_items_announced {ys : List StoredBundle}
    (h : i ∈ ((ys.map fun y => Message.eventBundleUpdated y.getRef).map Message.items).sum) :
    ∃ y ∈ ys, i = (.protocolBox (.eventBundleUpdated y.getRef), y.getRef) := by
  induction ys with
  | nil => cases h
  | cons y =>
    rw [List.map_cons, List.map_cons, List.sum_cons] at h
    rcases mem_add.mp h with h | h
    · exact ⟨y, List.mem_cons_self, Multiset.mem_singleton.mp h⟩
    · grind

lemma Step.frame (h : Step S n e n') (he : e ≠ .storage) :
    n'.store = n.store ∧ n'.persisted = n.persisted ∧ ∀ sb ∈ n'.unregistered, sb ∈ n.unregistered := by
  cases h with
  | start | storage => exact absurd rfl he
  | @protocol _ box _ _ d commands _ h =>
    obtain ⟨_, _, _, hn'⟩ := foldl_deliver_eq { n with protocol := d, protocolBox := box }
      commands
    rw [hn']
    exact ⟨rfl, rfl, fun _ h => h⟩
  | release => exact ⟨rfl, rfl, forall_mem_nil _⟩
  | _ => exact ⟨rfl, rfl, fun _ h => h⟩

lemma Knows.withSession (hn : n.Knows endpoint) (a : Nat) (s : Session) : (n.withSession a s).Knows endpoint :=
  ⟨(extends_withSession ..).context hn.context, fun m hm => (extends_withSession ..).connects (hn.connects m hm)⟩

lemma Knows.withListener (hn : n.Knows endpoint)
    (h : Extends n.parties (n.withListener a l).parties) : (n.withListener a l).Knows endpoint :=
  ⟨h.context hn.context, fun m hm => h.connects (hn.connects m hm)⟩

lemma Knows.tell (hn : n.Knows endpoint) {m : Message} (hm : m.Connects n.parties) : (n.tell m).Knows endpoint :=
  ⟨hn.context, forall_mem_append.mpr ⟨hn.connects, forall_mem_singleton.mpr hm⟩⟩

lemma connects_effects (es : List Storage.Effect) (P : Parties) :
    ∀ m ∈ es.filterMap Storage.Effect.message, m.Connects P := by
  intro m hm
  obtain ⟨effect, -, hm⟩ := List.mem_filterMap.mp hm
  cases effect <;> cases hm
  trivial

lemma Step.knows (h : Step S n e n') (hn : n.Sound S endpoint) : n'.Knows endpoint := by
  have hk := hn.knows
  cases h with
  | idle | submit | release => exact ⟨hk.context, hk.connects⟩
  | @notify m h =>
    refine hk.tell ?_
    cases m with
    | eventPeerConnected => exact h
    | eventClientConnected => cases h
    | _ => trivial
  | connect | take | takeDead | takeClosed | disconnect | stopAgent => exact hk.withSession ..
  | sent | failed => exact (hk.withSession ..).tell trivial
  | @listen _ _ _ hl =>
    refine (hk.withListener (extends_withListener fun l' hl' => by cases hl.symm.trans hl')).tell ?_
    simp [Message.Connects, parties, withListener, Table.get_insert]
  | start | storage => exact ⟨hk.context, forall_mem_append.mpr ⟨hk.connects, connects_effects _ _⟩⟩
  | @protocol m box _ _ d commands hbox h =>
    have hm : ∀ i ∈ m.items, ItemOk S endpoint n.parties i := fun i hi => hn.items i (mem_items_front hbox hi)
    obtain ⟨hok, -⟩ := Protocol.handle_passes h hk.context (hk.connects m (by rw [hbox]; exact List.mem_cons_self)) hm
    have hextends := foldl_deliver_extends { n with protocol := d, protocolBox := box } commands
    obtain ⟨_, _, _, hn'⟩ := foldl_deliver_eq { n with protocol := d, protocolBox := box }
      commands
    rw [hn'] at hextends ⊢
    exact ⟨hextends.context hok, fun m hm => hextends.connects
      (hk.connects m (by rw [hbox]; exact List.mem_cons_of_mem _ hm))⟩
  | pass hl | readDead hl | hangUp hl | stopListener hl => exact hk.withListener (extends_changeListener hl rfl)
  | passClosed hl | read hl =>
    refine Knows.tell (hk.withListener ?_) trivial
    exact extends_changeListener hl rfl

/-- The references of a message to the storage agent are replaced by those it announces. -/
lemma items_handled (hbox : n.storeBox = m :: box) (d : Storage.Daemon)
    (ms : List Message) : ∃ rest, n.items = m.items + rest ∧
      ({ n with store := d, storeBox := box, protocolBox := n.protocolBox ++ ms } : Node).items =
        (ms.map Message.items).sum + rest := by
  refine ⟨(n.protocolBox.map Message.items).sum + n.protocol.items + (box.map Storage.Message.items).sum +
    n.sessions.gather Session.items + n.listeners.gather Listener.items, ?_, ?_⟩
  · rw [items, hbox, List.map_cons, List.sum_cons]
    abel
  · simp only [items, map_append, sum_append]
    abel

lemma items_started (n : Node) (d : Storage.Daemon) (ms : List Message) :
    ({ n with store := d, protocolBox := n.protocolBox ++ ms, persisted := none } : Node).items =
      (ms.map Message.items).sum + n.items := by
  simp only [items, map_append, sum_append]
  abel

lemma mem_message_items (h : m.bundleref = some r) : m.items = {(.storeBox m, r)} := by
  cases m <;> cases h <;> rfl

/-- What the storage agent has loaded, and that it announces it. -/
lemma started_eq_ok (h : Storage.Daemon.started S endpoint files = .ok (d, es)) :
    Storage.Daemon.load S 0 files = .ok d.bundles ∧
      es.filterMap Storage.Effect.message = d.bundles.map fun y => .eventBundleUpdated y.getRef := by
  obtain ⟨_, hsbs, h⟩ := Outcome.bind_eq_ok.mp h
  cases h
  refine ⟨hsbs, ?_⟩
  rw [List.filterMap_map]
  exact List.filterMap_eq_map.symm ▸ rfl

lemma refOk_loaded
    (h : Storage.Daemon.load S address files = .ok sbs) : ∀ y ∈ sbs, RefOk S endpoint y.getRef := fun y hy => by
  obtain ⟨hdescribes, hstate, -⟩ := Storage.loaded h hy
  exact Storage.refOk_of_describes hdescribes (.inr hstate)

lemma Sound.message (hn : n.Sound S endpoint) (hbox : n.storeBox = m :: box) (hr : m.bundleref = some r) :
    RefOk S endpoint r ∧ m.Ok S endpoint r := by
  obtain ⟨_, hitems, -⟩ := items_handled hbox n.store []
  have hmem : ((.storeBox m, r) : Item) ∈ n.items := by rw [hitems, mem_message_items hr]; simp
  exact hn.items _ hmem

lemma Step.sound (h : Step S n e n') (hfit : n'.store.Fits) (hn : n.Sound S endpoint) : n'.Sound S endpoint := by
  by_cases he : e = .storage
  · have hknows := h.knows hn
    have hold {i} (hi : i ∈ n.items) (hextends : Extends n.parties n'.parties) :
        ItemOk S endpoint n'.parties i :=
      hextends.item (hn.items i hi)
    cases h with
    | idle => exact hn
    | @start _ _ _ _ h =>
      obtain ⟨hload, hes⟩ := started_eq_ok h
      refine ⟨hknows, fun i hi => ?_, refOk_loaded hload⟩
      rw [items_started, hes] at hi
      rcases mem_add.mp hi with hi | hi
      · obtain ⟨y, hy, rfl⟩ := mem_items_announced hi
        exact ⟨refOk_loaded hload y hy, rfl⟩
      · exact hold hi (.refl _)
    | @storage m _ d es _ hbox h =>
      have hchange := Storage.Daemon.handle_change h
      have hm (r : StoredBundleRef) (hr : m.bundleref = some r) := hn.message hbox hr
      have hentries := Storage.refOk_of_change hchange hm hfit hn.entries
      obtain ⟨_, _, _, hex⟩ := Storage.exchange_of_change hchange (fun r hr => (hm r hr).2) hn.entries
      obtain ⟨_, hbefore, hafter⟩ := items_handled hbox d (es.filterMap Storage.Effect.message)
      refine ⟨hknows, fun i hi => ?_, hentries⟩
      rw [hafter, hex.told] at hi
      rcases mem_add.mp hi with hi | hi
      · obtain ⟨y, hy, rfl⟩ := mem_items_announced hi
        exact ⟨hentries y (hex.after.mem_iff.mpr (mem_append_right _ hy)), rfl⟩
      · exact hold (by rw [hbefore]; exact mem_add.mpr (.inr hi)) (.refl _)
    | _ => cases he
  · obtain ⟨_, hshifts⟩ := h.shifts he hn
    refine ⟨h.knows hn, fun i hi => ?_, by rw [(h.frame he).1]; exact hn.entries⟩
    exact hshifts.parties.item (hshifts.passes.ok hn.items i (mem_add.mpr (.inr hi)))

/-! ## Owned references -/

/-- No two stored bundles of the class have the same primary block. -/
def Distinct (Q : PrimaryBlock → Prop) (n : Node) : Prop :=
  n.store.bundles.Pairwise fun x y => x.primaryBlock = y.primaryBlock → ¬ Q x.primaryBlock

instance (Q : PrimaryBlock → Prop) [DecidablePred Q] (n : Node) : Decidable (n.Distinct Q) :=
  inferInstanceAs (Decidable (List.Pairwise _ _))

/-- The references to bundles of the class are those to the stored ones. -/
def Owned (Q : PrimaryBlock → Prop) (n : Node) : Prop :=
  ∀ r, Q r.primaryBlock → (n.items.map Prod.snd).count r = (n.store.bundles.map (·.getRef)).count r

variable {Q : PrimaryBlock → Prop}

lemma Distinct.eq (hd : n.Distinct Q) (hx : x ∈ n.store.bundles) (hy : y ∈ n.store.bundles)
    (hpb : x.primaryBlock = y.primaryBlock) (hQ : Q x.primaryBlock) : x = y := by
  have : Std.Symm fun x y : StoredBundle => x.primaryBlock = y.primaryBlock → ¬ Q x.primaryBlock :=
    ⟨fun x y h hpb => by rw [hpb]; exact h hpb.symm⟩
  by_contra hne
  exact hd.forall hx hy hne hpb hQ

/-- A stored bundle of the class is stored once. -/
lemma Distinct.count_le (hd : n.Distinct Q) (hQ : Q r.primaryBlock) :
    (n.store.bundles.map (·.getRef)).count r ≤ 1 := by
  unfold Distinct at hd
  generalize n.store.bundles = sbs at hd
  induction sbs with
  | nil => simp
  | cons x xs ih =>
    obtain ⟨hx, hxs⟩ := pairwise_cons.mp hd
    rw [List.map_cons, List.count_cons]
    split
    · rename_i heq
      have hr : x.getRef = r := eq_of_beq heq
      have hzero : (xs.map (·.getRef)).count r = 0 := List.count_eq_zero.mpr fun hmem => by
        obtain ⟨y, hy, hyr⟩ := List.mem_map.mp hmem
        have hpb : x.primaryBlock = y.primaryBlock := congrArg (·.primaryBlock) (hr.trans hyr.symm)
        exact hx y hy hpb (by rw [← hr] at hQ; exact hQ)
      omega
    · exact ih hxs

/-- The references to bundles of the class are to stored ones, and no more than one to each. -/
def Covered (Q : PrimaryBlock → Prop) (n : Node) : Prop :=
  ∀ r, Q r.primaryBlock → (n.items.map Prod.snd).count r ≤ (n.store.bundles.map (·.getRef)).count r

lemma Owned.covered (ho : n.Owned Q) : n.Covered Q := fun r hQ => (ho r hQ).le

lemma Covered.stored (hc : n.Covered Q) (hr : r ∈ n.items.map Prod.snd) (hQ : Q r.primaryBlock) :
    ∃ y ∈ n.store.bundles, y.getRef = r :=
  List.mem_map.mp (count_pos_iff.mp ((count_pos.mpr hr).trans_le (hc r hQ)))

lemma Owned.stored (ho : n.Owned Q) (hr : r ∈ n.items.map Prod.snd) (hQ : Q r.primaryBlock) :
    ∃ y ∈ n.store.bundles, y.getRef = r := ho.covered.stored hr hQ

/-- Where the reference to a stored bundle is. -/
lemma Owned.item (ho : n.Owned Q) (hy : y ∈ n.store.bundles) (hQ : Q y.primaryBlock) :
    ∃ p, (p, y.getRef) ∈ n.items := by
  have hpos : 0 < (n.store.bundles.map (·.getRef)).count y.getRef := count_pos_iff.mpr (List.mem_map_of_mem hy)
  rw [← ho y.getRef hQ] at hpos
  obtain ⟨⟨p, _⟩, hi, hr⟩ := Multiset.mem_map.mp (count_pos.mp hpos)
  exact ⟨p, by rw [← hr]; exact hi⟩

lemma Owned.live (ho : n.Owned Q) (hr : r ∈ n.items.map Prod.snd) (hQ : Q r.primaryBlock) :
    n.live r.bundleData.address = true := by
  obtain ⟨y, hy, rfl⟩ := ho.stored hr hQ
  have hany : n.store.bundles.any (·.bundleData.address = y.getRef.bundleData.address) = true :=
    any_eq_true.mpr ⟨y, hy, decide_eq_true rfl⟩
  rw [Node.live, hany]
  rfl

/-- Two references in different places are to different bundles. -/
lemma Owned.ne (ho : n.Owned Q) (hd : n.Distinct Q) (hitems : n.items = {i} + others) (hj : j ∈ others)
    (hQ : Q i.2.primaryBlock) : i.2.primaryBlock ≠ j.2.primaryBlock := by
  intro hpb
  obtain ⟨rest, rfl⟩ := exists_cons_of_mem hj
  have hrefs : n.items.map Prod.snd = {i.2} + ({j.2} + rest.map Prod.snd) := by rw [hitems]; simp
  obtain ⟨x, hx, hxi⟩ := ho.stored (r := i.2) (by rw [hrefs]; simp) hQ
  obtain ⟨y, hy, hyj⟩ := ho.stored (r := j.2) (by rw [hrefs]; simp) (hpb ▸ hQ)
  have hxy : x = y := hd.eq hx hy (by
    have h1 : x.primaryBlock = i.2.primaryBlock := congrArg (·.primaryBlock) hxi
    have h2 : y.primaryBlock = j.2.primaryBlock := congrArg (·.primaryBlock) hyj
    rw [h1, h2, hpb]) (by rw [← hxi] at hQ; exact hQ)
  have hij : i.2 = j.2 := by rw [← hxi, ← hyj, hxy]
  have hcount := hd.count_le hQ
  rw [← ho i.2 hQ, hrefs, hij] at hcount
  simp at hcount

lemma Step.owned_outside (h : Step S n e n') (he : e ≠ .storage) (hn : n.Sound S endpoint) (ho : n.Owned Q)
    (hlost : ∀ i, Loses n e i → ItemOk S endpoint n.parties i → i.2 ∈ n.items.map Prod.snd → ¬ Q i.2.primaryBlock) :
    n'.Owned Q := by
  obtain ⟨lost, hshifts⟩ := h.shifts he hn
  have hthings := hshifts.passes.things
  rw [Multiset.map_add] at hthings
  intro r hQ
  have hzero : (lost.map Prod.snd).count r = 0 := Multiset.count_eq_zero.mpr fun hmem => by
    obtain ⟨i, hi, rfl⟩ := Multiset.mem_map.mp hmem
    refine hlost i (hshifts.lost i hi) (hshifts.passes.ok hn.items i (mem_add.mpr (.inl hi))) ?_ hQ
    rw [← hthings]
    exact mem_add.mpr (.inl hmem)
  rw [(h.frame he).1, ← ho r hQ, ← hthings, count_add, hzero, zero_add]

/-- The storage agent has not been started, or knows what was persisted. -/
def Unstarted (files : List (String × List UInt8)) (n : Node) : Prop :=
  ∀ files', n.persisted = some files' → files' = files ∧ n.store.bundles = []

/-- The reference that is handled is the one to the bundle that is taken out. -/
lemma count_gone (hbox : n.storeBox = m :: box)
    (hex : Storage.Exchange endpoint n.store.bundles m sbs' es gone stay new)
    (hfragments : ∀ pb, Q pb → ¬ LocalFragment endpoint pb) (hd : n.Distinct Q) (hc : n.Covered Q)
    (hitems : n.items = m.items + rest) (hQ : Q r.primaryBlock) :
    (m.items.map Prod.snd).count r = (gone.map (·.getRef)).count r := by
  cases hm : m.bundleref with
  | none =>
    rw [hex.unasked hm]
    cases m <;> first | rfl | cases hm
  | some r' =>
    rw [mem_message_items hm] at hitems ⊢
    have hmem : r' ∈ n.items.map Prod.snd := by rw [hitems]; simp
    by_cases hlocal : LocalFragment endpoint r'.primaryBlock
    · -- neither is of the class
      have hne : r ≠ r' := fun h => hfragments _ hQ (h ▸ hlocal)
      have hgone : r ∉ gone.map (·.getRef) := fun h => by
        obtain ⟨x, hx, rfl⟩ := List.mem_map.mp h
        exact hfragments _ hQ (hex.fragments r' hm hlocal x hx)
      rw [List.count_eq_zero.mpr hgone]
      simpa using hne
    · rcases hex.found r' hm hlocal with ⟨x, rfl, hx⟩ | ⟨rfl, hnone⟩
      · by_cases hQ' : Q r'.primaryBlock
        · obtain ⟨y, hy, rfl⟩ := hc.stored hmem hQ'
          have hxmem : x ∈ n.store.bundles := hex.before.mem_iff.mpr (by simp)
          obtain rfl := hd.eq hxmem hy hx (hx ▸ hQ')
          rw [← coe_count]
          rfl
        · have hne : r ≠ r' := fun h => hQ' (h ▸ hQ)
          have hne' : r ≠ x.getRef := fun h => hQ' (hx ▸ (h ▸ hQ : Q x.getRef.primaryBlock))
          simp [hne, Ne.symm hne']
      · have hne : r ≠ r' := by
          rintro rfl
          obtain ⟨y, hy, rfl⟩ := hc.stored hmem hQ
          exact hnone y hy rfl
        simpa using hne

/-- The storage agent takes a bundle out with its reference, and puts others in with theirs. -/
lemma Step.counts_storage (h : Step S n .storage n') (hn : n.Sound S endpoint)
    (hfragments : ∀ pb, Q pb → ¬ LocalFragment endpoint pb) (hd : n.Distinct Q) (hunstarted : n.Unstarted files)
    (hc : n.Covered Q) (hQ : Q r.primaryBlock) : ∃ taken put items entries,
      (n.items.map Prod.snd).count r = taken + items ∧ (n.store.bundles.map (·.getRef)).count r = taken + entries ∧
      (n'.items.map Prod.snd).count r = put + items ∧ (n'.store.bundles.map (·.getRef)).count r = put + entries := by
  cases h with
  | idle => exact ⟨0, 0, _, _, (zero_add _).symm, (zero_add _).symm, (zero_add _).symm, (zero_add _).symm⟩
  | @start _ d _ hfiles h =>
    obtain ⟨_, hes⟩ := started_eq_ok h
    refine ⟨0, (d.bundles.map (·.getRef)).count r, _, 0, (zero_add _).symm, ?_, ?_, rfl⟩
    · rw [(hunstarted _ hfiles).2]
      rfl
    · rw [items_started, hes, Multiset.map_add, items_announced, count_add, coe_count]
  | @storage _ _ d es _ hbox h =>
    have hchange := Storage.Daemon.handle_change h
    obtain ⟨gone, stay, new, hex⟩ :=
      Storage.exchange_of_change hchange (fun r hr => (hn.message hbox hr).2) hn.entries
    obtain ⟨rest, _, hafter⟩ := items_handled hbox d (es.filterMap Storage.Effect.message)
    refine ⟨(gone.map (·.getRef)).count r, (new.map (·.getRef)).count r, (rest.map Prod.snd).count r,
      (stay.map (·.getRef)).count r, ?_, ?_, ?_, ?_⟩
    · grind [Multiset.map_add, count_add, count_gone]
    · rw [(hex.before.map _).count_eq, map_append, count_append]
    · rw [hafter, hex.told, Multiset.map_add, items_announced, count_add, coe_count]
    · grind [hex.after]

lemma Step.owned_storage (h : Step S n .storage n') (hn : n.Sound S endpoint)
    (hfragments : ∀ pb, Q pb → ¬ LocalFragment endpoint pb) (hd : n.Distinct Q) (hunstarted : n.Unstarted files)
    (ho : n.Owned Q) : n'.Owned Q := by
  intro r hQ
  obtain ⟨_, _, _, _, _, _, _, _⟩ := h.counts_storage hn hfragments hd hunstarted ho.covered hQ
  have hcount := ho r hQ
  omega

lemma Step.covered_storage (h : Step S n .storage n') (hn : n.Sound S endpoint)
    (hfragments : ∀ pb, Q pb → ¬ LocalFragment endpoint pb) (hd : n.Distinct Q) (hunstarted : n.Unstarted files)
    (hc : n.Covered Q) : n'.Covered Q := by
  intro r hQ
  obtain ⟨_, _, _, _, _, _, _, _⟩ := h.counts_storage hn hfragments hd hunstarted hc hQ
  have hcount := hc r hQ
  omega

lemma Step.covered_outside (h : Step S n e n') (he : e ≠ .storage) (hn : n.Sound S endpoint) (hc : n.Covered Q) :
    n'.Covered Q := by
  obtain ⟨_, hshifts⟩ := h.shifts he hn
  have hthings := hshifts.passes.things
  rw [Multiset.map_add] at hthings
  intro r hQ
  rw [(h.frame he).1]
  refine le_trans ?_ (hc r hQ)
  rw [← hthings, count_add]
  exact Nat.le_add_left _ _

end Node

end Dtn.Dtrd
