import Dtn.Proof.Dtrd.Gather
import Dtn.Proof.Dtrd.Panics
import Dtn.Proof.Dtrd.Queues

/-!
# Fragments that are put together once

A bundle for this node arrives in fragments, each of them once, in any order and
among other bundles. `gatheringNode` is a node with a record of the fragments that
its storage agent has stored and of the bundles that it has made of them. Until
all fragments have arrived they are stored and nothing is made; from then on the
agent is told of one of them until it has made the whole bundle, once
(`Stage.gathers`, `reaches_gathering`). When nothing is left to handle it has done
so (`fragments_rejoin`). A bundle with a checksum is not put together: its
fragments stop the agent (`fragments_lost`).
-/

namespace Dtn.Dtrd

open List Outcome Dtn.Bp7 Protocol Storage Node

variable {S : Serde} {endpoint : Endpoint} {found files : List (String × List UInt8)} {b : Bundle} {ls : List Bundle}

/-! ## What is stored of one bundle -/

namespace Storage

variable {sbs sbs' : List StoredBundle} {arrived : List (List UInt8)} {made : List StoredBundleRef}
  {pending pending' : StoredBundleRef → Prop} {m : Message} {es : List Effect}

/-- What is stored of a bundle is what has arrived of it. When all has, something is still to be done with a part of
it. -/
structure Collected (b : Bundle) (ls : List Bundle) (sbs : List StoredBundle) (arrived : List (List UInt8))
    (made : List StoredBundleRef) (pending : StoredBundleRef → Prop) : Prop where
  none : made = []
  stored : (contents (group b.asFragment sbs)).Perm arrived
  told : (∀ l ∈ ls, encoded l ∈ arrived) → ∃ y ∈ group b.asFragment sbs, pending y.getRef

/-- All has arrived, and was put together. -/
structure Joined (b : Bundle) (ls : List Bundle) (sbs : List StoredBundle) (arrived : List (List UInt8))
    (made : List StoredBundleRef) : Prop where
  once : ∃ r, made = [r] ∧ b.payloadLast.toVec = .ok r.bundleData.bytes
  none : group b.asFragment sbs = []
  all : ∀ l ∈ ls, encoded l ∈ arrived

def Stage (b : Bundle) (ls : List Bundle) (sbs : List StoredBundle) (arrived : List (List UInt8))
    (made : List StoredBundleRef) (pending : StoredBundleRef → Prop) : Prop :=
  Collected b ls sbs arrived made pending ∨ Joined b ls sbs arrived made

lemma Stage.mono (h : Stage b ls sbs arrived made pending) (hgroup : group b.asFragment sbs' = group b.asFragment sbs)
    (hpending : ∀ y ∈ group b.asFragment sbs, pending y.getRef → pending' y.getRef) :
    Stage b ls sbs' arrived made pending' := by
  rcases h with h | h
  · refine .inl ⟨h.none, by rw [hgroup]; exact h.stored, fun hall => ?_⟩
    obtain ⟨y, hy, hp⟩ := h.told hall
    exact ⟨y, by rw [hgroup]; exact hy, hpending y hy hp⟩
  · exact .inr ⟨h.once, hgroup.trans h.none, h.all⟩

lemma encoded_eq (h : b.toVec = .ok bs) : encoded b = bs := by rw [encoded, h]

lemma tryFrom_encoded (h : b.Scattered ls) (hl : l ∈ ls) : Bundle.tryFrom S (encoded l) = .ok l := by
  obtain ⟨ho, _, hv, hfit⟩ := h.decoded hl
  rw [encoded_eq hv]
  exact ho.tryFrom_eq hv hfit

lemma arrival_encoded (h : b.Scattered ls) (hl : l ∈ ls) :
    (Message.storeReceivedBundle (encoded l)).arrival S b.asFragment = some (encoded l) := by
  have hpart : isPart S b.asFragment (encoded l) = true := by
    rw [isPart, tryFrom_encoded h hl]
    exact h.equals_asFragment hl
  rw [Message.arrival, if_pos hpart]

/-- The bundles that are collected are the fragments that have arrived. -/
lemma mem_bundles_iff (h : b.Scattered ls) (harrived : ∀ bs ∈ arrived, bs ∈ ls.map encoded)
    (hstored : (contents sbs).Perm arrived)
    (hbundles : List.Forall₂ (fun sb b => Bundle.tryFrom S sb.bundleData.bytes = .ok b) sbs bundles) (x : Bundle) :
    x ∈ bundles ↔ x ∈ ls ∧ encoded x ∈ arrived := by
  constructor
  · intro hx
    obtain ⟨sb, hsb, hdecoded⟩ := forall₂_mem' hbundles hx
    have hmem : sb.bundleData.bytes ∈ arrived := hstored.mem_iff.mp (mem_map_of_mem hsb)
    obtain ⟨_, hl, hencoded⟩ := mem_map.mp (harrived _ hmem)
    rw [← hencoded] at hdecoded hmem
    cases (tryFrom_encoded h hl).symm.trans hdecoded
    exact ⟨hl, hmem⟩
  · rintro ⟨hx, hmem⟩
    obtain ⟨_, hsb, hdata⟩ := mem_map.mp (hstored.mem_iff.mpr hmem)
    obtain ⟨_, hx', hdecoded⟩ := forall₂_mem hbundles hsb
    rw [hdata] at hdecoded
    cases (tryFrom_encoded h hx).symm.trans hdecoded
    exact hx'

lemma Stage.gathers (hs : Stage b ls sbs arrived made pending) (h : b.Scattered ls)
    (hg : Gathers S b.asFragment sbs m sbs' es) (harrived : ∀ bs ∈ arrived, bs ∈ ls.map encoded)
    (hm : ∀ bs, m.arrival S b.asFragment = some bs → bs ∈ ls.map encoded ∧ bs ∉ arrived)
    (hold : ∀ r, pending r → m.bundleref ≠ some r → pending' r) (hnew : ∀ r, .eventBundleUpdated r ∈ es → pending' r) :
    Stage b ls sbs' (arrived ++ (m.arrival S b.asFragment).toList)
      (made ++ Storage.made b.asFragment m sbs' es) pending' := by
  cases hg with
  | @arrives y harrival =>
    have hmade : Storage.made b.asFragment m (sbs ++ [y]) [.eventBundleUpdated y.getRef] = [] := by
      cases m with
      | storeReceivedBundle => rfl
      | _ => cases harrival
    rw [harrival, hmade, append_nil]
    rcases hs with hs | hs
    · have hgroup : group b.asFragment (sbs ++ [y]) =
          group b.asFragment sbs ++ [y] := by grind [group]
      refine .inl ⟨hs.none, ?_, fun _ => ⟨y, ?_, hnew _ mem_cons_self⟩⟩
      · grind [hs.stored, contents]
      · rw [hgroup]
        exact mem_concat_self
    · -- nothing more can arrive
      obtain ⟨hpart, hnot⟩ := hm _ harrival
      obtain ⟨l, hl, hencoded⟩ := mem_map.mp hpart
      exact absurd (hencoded ▸ hs.all l hl) hnot
  | keeps harrival hdata hmade hnext =>
    rw [harrival, hmade, Option.toList_none, append_nil, append_nil]
    rcases hs with hs | hs
    · refine .inl ⟨hs.none, hdata.trans hs.stored, fun hall => ?_⟩
      obtain ⟨y, hy, hp⟩ := hs.told hall
      rcases hnext y hy with ⟨hmem, hother⟩ | ⟨y', hy', htold⟩
      · exact ⟨y, mem_filter.mpr ⟨hmem, (mem_filter.mp hy).2⟩, hold _ hp hother⟩
      · exact ⟨y', hy', hnew _ htold⟩
    · rw [hs.none] at hdata
      exact .inr ⟨hs.once, map_eq_nil_iff.mp hdata.eq_nil, hs.all⟩
  | @waits r data _ bundles _ _ hm' hne hperm hperm1 hbundles hcannot =>
    subst hm'
    have hmade : Storage.made b.asFragment (.updateBundle r .defragmentationPending data) sbs' [] = [] := by
      rw [Storage.made]
      split <;> rfl
    rw [hmade, arrival_updateBundle, Option.toList_none, append_nil, append_nil]
    rcases hs with hs | hs
    · refine .inl ⟨hs.none, (contents_perm hperm).trans hs.stored, fun hall => ?_⟩
      -- what has arrived could be put together
      have hmem := mem_bundles_iff h harrived ((contents_perm hperm1).trans hs.stored) hbundles
      have hwhole (x : Bundle) : x ∈ bundles ↔ x ∈ ls := (hmem x).trans ⟨fun hx => hx.1, fun hx => ⟨hx, hall x hx⟩⟩
      obtain ⟨bytes, hcan, -⟩ := h.reassemble hwhole
      cases hcannot.symm.trans hcan
    · exact absurd hs.none hne
  | @joins _ _ _ bundles _ _ y hm' hne hperm1 hbundles hcan hgone hmade =>
    subst hm'
    rw [hmade, arrival_updateBundle, Option.toList_none, append_nil]
    rcases hs with hs | hs
    · have hmem := mem_bundles_iff h harrived ((contents_perm hperm1).trans hs.stored) hbundles
      have hall : ∀ l ∈ ls, encoded l ∈ arrived := by
        by_contra hmissing
        push Not at hmissing
        obtain ⟨l, hl, hnot⟩ := hmissing
        have hsome : bundles ≠ [] := by
          rintro rfl
          have hnil := forall₂_nil_right_iff.mp hbundles
          exact hne (map_eq_nil_iff.mp ((contents_perm hperm1).symm.trans (by rw [hnil]; rfl)).eq_nil)
        cases hcan.symm.trans (h.incomplete (fun x hx => ((hmem x).mp hx).1) hsome hl fun hx => hnot ((hmem l).mp hx).2)
      have hwhole (x : Bundle) : x ∈ bundles ↔ x ∈ ls := (hmem x).trans ⟨fun hx => hx.1, fun hx => ⟨hx, hall x hx⟩⟩
      obtain ⟨_, hcan', hv⟩ := h.reassemble hwhole
      cases hcan.symm.trans hcan'
      exact .inr ⟨⟨y.getRef, by rw [hs.none]; rfl, hv⟩, hgone, hall⟩
    · exact absurd hs.none hne

end Storage

/-! ## Messages on their way -/

/-- The protocol agent asks the storage agent about each fragment for this node that it is told of. -/
lemma Protocol.handle_localFragment (w : World) (accepts : List Bool) {d : Daemon} {r : StoredBundleRef}
    (hd : d.endpoint = endpoint) (hr : RefOk S endpoint r) (hl : LocalFragment endpoint r.primaryBlock)
    (hsource : ∃ own, r.primaryBlock.sourceNode.matchesNode endpoint = (.ok own : Outcome Empty Bool)) :
    ∃ d' commands m, d.handle S w accepts (.eventBundleUpdated r) = .ok (d', commands) ∧ .storage m ∈ commands ∧
      m.bundleref = some r := by
  suffices h : ∃ (c : Context) (st : State), Context.eventBundleUpdated S w ⟨d, accepts, []⟩ r =
    .ok (c.update r st none) by
    obtain ⟨c, st, h⟩ := h
    refine ⟨c.daemon, c.sent ++ [.storage (.updateBundle r st none)], .updateBundle r st none, ?_,
      mem_concat_self, rfl⟩
    rw [Daemon.handle, Context.handle, h]
    rfl
  rcases hr.state with hst | hst | hst | hst
  · obtain ⟨own, hown⟩ := hsource
    obtain ⟨c, hc⟩ := sendStatusReportReceived_eq_ok (w := w) ⟨d, accepts, []⟩ r
    refine ⟨if own then ⟨d, accepts, []⟩ else c, .valid, ?_⟩
    rw [Context.eventBundleUpdated, hst]
    rw [hd, hown, ok_bind]
    cases own with
    | true => rfl
    | false =>
      rw [if_neg Bool.false_ne_true, hc]
      rfl
  · refine ⟨⟨d, accepts, []⟩, .defragmentationPending, ?_⟩
    have hlocal : d.endpoint.matchesNode r.primaryBlock.destinationEndpoint = (.ok true : Outcome Empty Bool) :=
      hd ▸ hl.1
    rw [Context.eventBundleUpdated, hst]
    rw [Context.validBundle, hlocal, ok_bind, if_pos rfl, if_pos hl.2]
    rfl
  · have hsome := hl.2
    rw [(hr.deliveryQueued hst).2] at hsome
    cases hsome
  · cases hl.1.symm.trans (hr.forwardingQueued hst)

namespace Node

variable {n n' : Node} {e : NodeEvent} {r : StoredBundleRef}

/-- The protocol agent is told of the bundle, or the storage agent is asked something about it. -/
def Tells (n : Node) (r : StoredBundleRef) : Prop :=
  .eventBundleUpdated r ∈ n.protocolBox ∨ ∃ m ∈ n.storeBox, m.bundleref = some r

lemma Step.tells (h : Step S n e n') (he : e ≠ .storage) (hn : n.Sound S endpoint) (hr : RefOk S endpoint r)
    (hl : LocalFragment endpoint r.primaryBlock)
    (hsource : ∃ own, r.primaryBlock.sourceNode.matchesNode endpoint = (.ok own : Outcome Empty Bool))
    (ht : n.Tells r) : n'.Tells r := by
  rcases ht with ht | ⟨m, hm, hr⟩
  · cases h with
    | start | storage => exact absurd rfl he
    | notify | listen | sent | failed | passClosed | read => exact .inl (mem_append_left _ ht)
    | @protocol m box now accepts d commands hbox h =>
      rw [hbox] at ht
      rcases mem_cons.mp ht with rfl | ht
      · -- the agent is told of this bundle now
        obtain ⟨_, _, m, h', hm, hr⟩ :=
          handle_localFragment (n.world now) accepts hn.knows.context.endpoint hr hl hsource
        cases h.symm.trans h'
        refine .inr ⟨m, ?_, hr⟩
        rw [storeBox_foldl_deliver]
        exact mem_append_right _ (mem_filterMap.mpr ⟨_, hm, rfl⟩)
      · obtain ⟨storeBox, _, _, hn'⟩ :=
          foldl_deliver_eq { n with protocol := d, protocolBox := box } commands
        rw [hn']
        exact .inl ht
    | _ => exact .inl ht
  · obtain ⟨_, hms, -⟩ := h.storeBox hn he
    exact .inr ⟨m, by rw [hms]; exact mem_append_left _ hm, hr⟩

lemma handleStorage_cases (h : n.handleStorage S = .ok n') :
    (n.persisted = none ∧ n.storeBox = [] ∧ n' = n) ∨
    (∃ files d es, n.persisted = some files ∧ Storage.Daemon.started S n.store.endpoint files = .ok (d, es) ∧
      n' = { n with
        store := { d with nextAddress := d.nextAddress + n.store.nextAddress }
        protocolBox := n.protocolBox ++ es.filterMap Storage.Effect.message
        persisted := none }) ∨
    ∃ m box d es, n.persisted = none ∧ n.storeBox = m :: box ∧ n.store.handle S m = .ok (d, es) ∧
      n' = { n with
        store := d, storeBox := box, protocolBox := n.protocolBox ++ es.filterMap Storage.Effect.message } := by
  unfold handleStorage at h
  split at h <;> grind

end Node

/-! ## Runs with a record of the fragments -/

/-- The fragments that the storage agent has got, and the bundles that it has made of them. -/
structure Gathered where
  arrived : List (List UInt8)
  made : List StoredBundleRef
  deriving DecidableEq

/-- The record after an event. -/
def Node.gathers (S : Serde) (p : PrimaryBlock) (n : Node) (g : Gathered) : NodeEvent → Gathered
  | .storage =>
    match n.persisted, n.storeBox with
    | none, m :: _ => ⟨g.arrived ++ (m.arrival S p).toList,
      g.made ++ (n.store.handle S m).toOption.elim [] fun x => made p m x.1.bundles x.2⟩
    | _, _ => g
  | _ => g

/-- A node and what it has gathered of the bundle that `p` is a fragment of. -/
def gatheringNode (S : Serde) (endpoint : Endpoint) (found files : List (String × List UInt8)) (p : PrimaryBlock) :
    System (Node × Gathered) NodeEvent where
  init q := (node S endpoint found files).init q.1 ∧ q.2 = ⟨[], []⟩
  step q e q' := (node S endpoint found files).step q.1 e q'.1 ∧ q'.2 = q.1.gathers S p q.2 e

/-- The fragments that were stored or wait to be stored. -/
def receivedParts (S : Serde) (p : PrimaryBlock) (q : Node × Gathered) : List (List UInt8) :=
  q.2.arrived ++ q.1.storeBox.filterMap (Storage.Message.arrival S p)

/-- A node is careful with what arrives, and what arrives of the bundle is one of the parts, each of them once. -/
def ArriveOnce (S : Serde) (p : PrimaryBlock) (parts : List (List UInt8)) (q : Node × Gathered)
    (e : NodeEvent) : Prop :=
  q.1.Careful S e ∧
    match e with
    | .submit m => ∀ bs ∈ m.arrival S p, bs ∈ parts ∧ bs ∉ receivedParts S p q
    | _ => True

instance (S : Serde) (p : PrimaryBlock) (parts : List (List UInt8)) (q : Node × Gathered) (e : NodeEvent) :
    Decidable (ArriveOnce S p parts q e) := by
  unfold ArriveOnce
  split <;> infer_instance

/-- What is known of a node that gathers the fragments of `b`. -/
structure Gathering (S : Serde) (endpoint : Endpoint) (files : List (String × List UInt8)) (b : Bundle)
    (ls : List Bundle)
    (q : Node × Gathered) : Prop where
  kept : q.1.Kept S endpoint files
  calm : q.1.Calm S endpoint
  nodup : (receivedParts S b.asFragment q).Nodup
  parts : ∀ bs ∈ receivedParts S b.asFragment q, bs ∈ ls.map encoded
  stage : Storage.Stage b ls q.1.store.bundles q.2.arrived q.2.made q.1.Tells

section

variable {q q' : Node × Gathered} {e : NodeEvent} (h : b.Scattered ls) (hlocal : IsLocal endpoint b.primaryBlock)
  (hsource : ∃ own, b.primaryBlock.sourceNode.matchesNode endpoint = (.ok own : Outcome Empty Bool))

include hlocal in
lemma localFragment_asFragment : LocalFragment endpoint b.asFragment := ⟨hlocal, rfl⟩

include hlocal in
/-- The parts of the bundle that are stored are fragments for this node, from its source. -/
lemma Gathering.part (hq : Gathering S endpoint files b ls q)
    (hy : y ∈ group b.asFragment q.1.store.bundles) : RefOk S endpoint y.getRef ∧
      LocalFragment endpoint y.primaryBlock ∧ y.primaryBlock.sourceNode = b.primaryBlock.sourceNode := by
  obtain ⟨hmem, hbelongs⟩ := mem_filter.mp hy
  have hr := hq.kept.sound.entries y hmem
  refine ⟨hr, localFragment_of_belongs (localFragment_asFragment hlocal) (Bundle.consistent_asFragment b)
    (hq.calm.entries y hmem) hr hbelongs, ?_⟩
  have hsource := congrArg PrimaryBlock.sourceNode (belongs_iff.mp hbelongs)
  exact hsource

lemma group_loaded (hload : Storage.Daemon.load S 0 files = .ok sbs)
    (hnone : ∀ f ∈ files, isPart S b.asFragment f.2 = false) : group b.asFragment sbs = [] := by
  refine group_eq_nil.mpr fun y hy => ?_
  obtain ⟨⟨_, hb'⟩, -, f, hf, hdata⟩ := loaded hload hy
  have hpart := hnone f hf
  rw [← hdata, isPart, hb'.decoded] at hpart
  rw [Storage.Belongs, hb'.primaryBlock]
  exact hpart

include hlocal hsource in
lemma Gathering.step_outside (hq : Gathering S endpoint files b ls q) (he : e ≠ .storage)
    (ha : ArriveOnce S b.asFragment (ls.map encoded) q e) (hs : Node.Step S q.1 e q'.1)
    (hkept : q'.1.Kept S endpoint files) (hcalm : q'.1.Calm S endpoint) (hrecord : q'.2 = q.2) :
    Gathering S endpoint files b ls q' := by
  obtain ⟨ms, _, hsent⟩ := hs.storeBox hq.kept.sound he
  have hreceived : receivedParts S b.asFragment q' =
      receivedParts S b.asFragment q ++ ms.filterMap (Storage.Message.arrival S b.asFragment) := by
    grind [receivedParts]
  have hstage : Storage.Stage b ls q'.1.store.bundles q'.2.arrived q'.2.made q'.1.Tells := by
    rw [(hs.frame he).1, hrecord]
    refine hq.stage.mono rfl fun y hy => ?_
    obtain ⟨hr, hl, hsame⟩ := hq.part hlocal hy
    exact hs.tells he hq.kept.sound hr hl (by rw [StoredBundle.getRef, hsame]; exact hsource)
  -- only what arrives can be a part of the bundle
  have hnone (hnot : ∀ m ∈ ms, m.arrival S b.asFragment = none) : Gathering S endpoint files b ls q' := by
    rw [filterMap_eq_nil_iff.mpr hnot, append_nil] at hreceived
    exact ⟨hkept, hcalm, by rw [hreceived]; exact hq.nodup, by rw [hreceived]; exact hq.parts, hstage⟩
  rcases hsent with ⟨m, rfl, rfl⟩ | hreports
  · cases harrival : m.arrival S b.asFragment with
    | none => exact hnone (forall_mem_singleton.mpr harrival)
    | some bs =>
      obtain ⟨_, _⟩ := ha.2 bs harrival
      rw [filterMap_cons_some harrival, filterMap_nil] at hreceived
      refine ⟨hkept, hcalm, ?_, ?_, hstage⟩ <;> rw [hreceived]
      all_goals grind [hq.nodup, hq.parts]
  · refine hnone fun m hm => ?_
    have hreport := hreports m hm
    cases m with
    | storeReceivedBundle => exact hreport.elim
    | _ => rfl

include h hlocal in
lemma Gathering.step_storage (hq : Gathering S endpoint files b ls q)
    (hself : endpoint.matchesNode endpoint = (.ok true : Outcome Empty Bool))
    (hnone : ∀ f ∈ files, Storage.isPart S b.asFragment f.2 = false) (ha : q.1.Careful S .storage)
    (hs : q.1.handleStorage S = .ok q'.1) (hfit : q'.1.store.Fits) (hkept : q'.1.Kept S endpoint files)
    (hcalm : q'.1.Calm S endpoint) (hrecord : q'.2 = q.1.gathers S b.asFragment q.2 .storage) :
    Gathering S endpoint files b ls q' := by
  obtain ⟨_, _⟩ := q'
  obtain rfl := hrecord
  rcases handleStorage_cases hs with ⟨hstarted, hbox, hn'⟩ | ⟨files', d, es, hfiles, hd, hn'⟩ |
    ⟨m, box, d, es, hstarted, hbox, hd, hn'⟩ <;> dsimp only at hn' <;> subst hn'
  · grind [gathers]
  · have hsame : q.1.gathers S b.asFragment q.2 .storage = q.2 := by rw [gathers, hfiles]
    obtain ⟨rfl, hempty⟩ := hq.kept.unstarted files' hfiles
    obtain ⟨hload, -⟩ := started_eq_ok hd
    rw [hsame] at hkept hcalm ⊢
    refine ⟨hkept, hcalm, hq.nodup, hq.parts, hq.stage.mono ?_ fun y hy => ?_⟩
    · rw [hempty]
      exact group_loaded hload hnone
    · rw [hempty] at hy
      cases hy
  · have hgathers : q.1.gathers S b.asFragment q.2 .storage =
        ⟨q.2.arrived ++ (m.arrival S b.asFragment).toList, q.2.made ++ Storage.made b.asFragment m d.bundles es⟩ := by
      rw [gathers, hstarted, hbox]
      dsimp only
      rw [hd]
      rfl
    have hreceived : receivedParts S b.asFragment q = q.2.arrived ++ (m.arrival S b.asFragment).toList ++
        box.filterMap (Storage.Message.arrival S b.asFragment) := by grind [receivedParts]
    rw [Node.Careful, hstarted, hbox] at ha
    obtain ⟨-, -, _⟩ := ha
    obtain ⟨hbrings, -⟩ := hq.calm.brings hq.kept.sound hself hbox (by omega)
    have hg := Storage.gathers_of_change (Storage.Daemon.handle_change hd) (localFragment_asFragment hlocal)
      (Bundle.consistent_asFragment b) (fun r hr => hq.kept.sound.message hbox hr) hbrings hfit hq.calm.entries
      hq.kept.sound.entries
    have hnodup := hq.nodup
    have hparts := hq.parts
    rw [hreceived] at hnodup hparts
    rw [hgathers]
    refine ⟨hkept, hcalm, hnodup, hparts, hq.stage.gathers h hg (fun bs hbs => ?_) (fun bs harrival => ?_)
      (fun r ht hne => ?_) fun r hr => ?_⟩
    · grind
    · grind
    · rcases ht with ht | ⟨m', hm', hr⟩
      · exact .inl (mem_append_left _ ht)
      · rw [hbox] at hm'
        rcases mem_cons.mp hm' with rfl | hm'
        · exact absurd hr hne
        · exact .inr ⟨m', hm', hr⟩
    · exact .inl (mem_append_right _ (mem_filterMap.mpr ⟨_, hr, rfl⟩))

include h hlocal hsource in
lemma reaches_gathering (hself : endpoint.matchesNode endpoint = (.ok true : Outcome Empty Bool))
    (hfound : ∀ f ∈ found, Storage.Readable S f.2) (hfiles : Loadable S endpoint files)
    (hnone : ∀ f ∈ files, isPart S b.asFragment f.2 = false)
    (hq : (gatheringNode S endpoint found files b.asFragment).Reaches
      (ArriveOnce S b.asFragment (ls.map encoded)) q) : Gathering S endpoint files b ls q := by
  refine hq.invariant (Gathering S endpoint files b ls) (fun q hq => ?_) fun q e q' hq ha hstep => ?_
  · obtain ⟨_, _⟩ := q
    obtain ⟨hstart, rfl⟩ := hq
    have hkept := start_kept hstart
    have hcalm := start_calm hstart hfound
    obtain ⟨_, -, rfl⟩ := start_eq_ok hstart
    refine ⟨hkept, hcalm, nodup_nil, forall_mem_nil _, .inl ⟨rfl, .refl _, fun hall => ?_⟩⟩
    obtain ⟨l, hl⟩ := exists_mem_of_ne_nil ls h.ne_nil
    cases hall l hl
  · obtain ⟨⟨hfit, hnext⟩, hrecord⟩ := hstep
    have hs := next_step hnext
    have hkept := hs.kept hfit hq.kept
    have hcalm := hq.calm.step hq.kept hfiles hself hs hfit ha.1
    by_cases he : e = .storage
    · subst he
      exact hq.step_storage h hlocal hself hnone ha.1 (toOption_eq_some.mp hnext) hfit hkept hcalm hrecord
    · refine hq.step_outside hlocal hsource he ha hs hkept hcalm (hrecord.trans ?_)
      cases e with
      | storage => exact absurd rfl he
      | _ => rfl

end

/-- The bytes 0 to 255, and from 0 to 43 again. -/
def letterBytes : List UInt8 := (List.range 300).map UInt8.ofNat

/-- These bytes, from `ipn:3.0` to `ipn:1.5`. -/
def letter (crc : CRCType) : Bundle where
  primaryBlock := ⟨7, ⟨0⟩, crc, .ipn ⟨1, 5⟩, .ipn ⟨3, 0⟩, .ipn ⟨3, 0⟩, ⟨⟨1000⟩, 1⟩, 3600, none, none⟩
  blocks := [⟨.payload ⟨letterBytes⟩, 1, .empty, .noCRC⟩]

def letterPart (o : UInt64) (data : List UInt8) : Bundle where
  primaryBlock := { (letter .noCRC).primaryBlock with
    bundleProcessingFlags := .fragment
    fragmentOffset := some o
    totalDataLength := some 300 }
  blocks := [⟨.payload ⟨data⟩, 1, .empty, .noCRC⟩]

def letterParts : List Bundle := [letterPart 0 (letterBytes.take 154), letterPart 154 (letterBytes.drop 154)]

lemma scattered_letter : (letter .noCRC).Scattered letterParts := by
  have hcut : (letter .noCRC).fragment 350 = .ok (letterParts, (196, 196)) := by decide +kernel
  have hshaped : (letter .noCRC).Shaped := ⟨cons_ne_nil _ _, rfl, ⟨show BundleFlags.Defined ⟨0⟩ by decide,
    forall_mem_singleton.mpr (show BlockFlags.empty.Defined by decide)⟩, forall_mem_singleton.mpr trivial⟩
  have hlen : (encoded (letter .noCRC)).length ≤ isizeMax := by decide +kernel
  refine ⟨(Bundle.orderly_iff hshaped).mpr (by decide +kernel), rfl, fun bytes hv => ?_, 350, _, _, hcut, .refl _⟩
  rwa [encoded_eq hv] at hlen

/-- The entry of a bundle that is valid. -/
def validEntry (address : Nat) (b : Bundle) (payload : List UInt8) : StoredBundle :=
  { received address b payload with state := .valid }

/-- The second fragment of `letter`, which arrives first. -/
def lastLetter : StoredBundle := validEntry 0 (letterPart 154 (letterBytes.drop 154)) (letterBytes.drop 154)

def firstLetter : StoredBundle := validEntry 1 (letterPart 0 (letterBytes.take 154)) (letterBytes.take 154)

def wholeLetter : StoredBundle := validEntry 2 (letter .noCRC) letterBytes

/-- Both fragments have arrived, and the storage agent is told to look for the others of each. -/
def collectedLetter : Node × Gathered :=
  (⟨storeOf [lastLetter, firstLetter] 2, [.updateBundle lastLetter.getRef .defragmentationPending none,
    .updateBundle firstLetter.getRef .defragmentationPending none], .new (.ipn ⟨1, 0⟩), [], .empty, .empty, [], none⟩,
    ⟨[lastLetter.bundleData.bytes, firstLetter.bundleData.bytes], []⟩)

/-- It has put them together. -/
def joinedLetter : Node × Gathered :=
  (⟨storeOf [wholeLetter] 3, [.updateBundle firstLetter.getRef .defragmentationPending none],
    .new (.ipn ⟨1, 0⟩),
    [.eventBundleUpdated wholeLetter.getRef], .empty, .empty, [], none⟩,
    ⟨[lastLetter.bundleData.bytes, firstLetter.bundleData.bytes], [wholeLetter.getRef]⟩)

/-- The event and what is gathered by it, if it is allowed. -/
def gatheringNext : Node × Gathered → NodeEvent → Option (Node × Gathered) :=
  loggedNext .plain (ArriveOnce .plain (letter .noCRC).asFragment (letterParts.map encoded))
    fun q e _ => q.1.gathers .plain (letter .noCRC).asFragment q.2 e

lemma handle_letter : (storeOf [lastLetter, firstLetter] 2).handle .plain
    (.updateBundle lastLetter.getRef .defragmentationPending none) = .ok (storeOf [wholeLetter] 3,
      announce wholeLetter ++ [firstLetter, lastLetter].map fun y => .deleteBundleFile y.getFilename) := by
  have hsplit : Storage.Daemon.splitFragments .plain lastLetter.primaryBlock [firstLetter, lastLetter] =
      .ok ([firstLetter, lastLetter], []) := by decide +kernel
  have hbundles : Storage.Daemon.getBundles .plain [firstLetter, lastLetter] = .ok letterParts := by decide +kernel
  have hstore : Storage.Daemon.storeBundle .plain (storeOf [] 2) (encoded (letter .noCRC)) none
      .valid true = .ok (storeOf [wholeLetter] 3, announce wholeLetter) := by decide +kernel
  have hfound : removeFirst lastLetter.getRef.primaryBlock [lastLetter, firstLetter] =
      some (lastLetter, [firstLetter]) := by decide +kernel
  obtain ⟨_, hcan, hv⟩ := scattered_letter.reassemble fun _ => Iff.rfl
  have hlast : (letter .noCRC).payloadLast = letter .noCRC := by decide +kernel
  rw [hlast] at hv
  rw [← encoded_eq hv] at hcan
  rw [Storage.Daemon.handle, Storage.Daemon.updateBundle_defragmentationPending hfound]
  exact Storage.Daemon.tryDefragmentBundle_of_reassembled hsplit (by rintro ⟨⟩) hbundles hcan hstore

lemma gatheringNext_letter : gatheringNext collectedLetter .storage = some joinedLetter := by
  have hnext : collectedLetter.1.next .plain .storage = some joinedLetter.1 := by
    change (collectedLetter.1.handleStorage .plain).toOption = _
    rw [handleStorage]
    dsimp only [collectedLetter]
    rw [handle_letter]
    rfl
  have hgathers : collectedLetter.1.gathers .plain (letter .noCRC).asFragment collectedLetter.2 .storage =
    joinedLetter.2 := by
    rw [gathers]
    dsimp only [collectedLetter]
    rw [handle_letter]
    decide +kernel
  rw [gatheringNext, loggedNext, if_pos (by decide +kernel), hnext, hgathers]
  decide +kernel

end Dtn.Dtrd
