import Dtn.Proof.Dtrd.Hops
import Dtn.Proof.Dtrd.Panics
import Dtn.Proof.Dtrd.Remote

/-!
# Requests for fragments

`recordedNode` is a node with two records: the messages that were sent to its
storage agent, and the bundles that this agent has put into its store. A
bundle is cut to at most `m` bytes at the request of the protocol agent; its
fragments are not larger than that, and if it cannot be cut, a minimal size
above `m` is recorded in its entry. So there are no more requests for a
primary block and a size than bundles with this primary block and above this
size were stored, and between two storings there is at most one
(`requests_le_storings`), if the stored bundles for other nodes have distinct
primary blocks.

The entries that may still be cut are a potential: a request is paid by the
entry that it is about, which can not be cut any more when it is answered, and
only a storing adds to them (`Paid`).
-/

namespace Dtn.Dtrd

open List Multiset Dtn.Bp7 Protocol Storage Nat Node

variable {S : Serde} {endpoint : Endpoint} {found files : List (String × List UInt8)}
variable {r : StoredBundleRef} {box : List Storage.Message}

/-! ## What is asked for, and what is stored -/

namespace StoredBundleRef

/-- The bundle has this primary block and is larger than `m`. -/
def exceeds (pb : PrimaryBlock) (m : UInt64) (r : StoredBundleRef) : Bool := r.primaryBlock = pb ∧ m < r.size

/-- It is not known that it cannot be cut to `m` bytes. -/
def cuttable (pb : PrimaryBlock) (m : UInt64) (r : StoredBundleRef) : Bool := r.exceeds pb m && r.minSize.all (· ≤ m)

end StoredBundleRef

namespace Storage

variable {sbs sbs' : List StoredBundle} {m : Message} {es : List Effect} {pb : PrimaryBlock} {k : UInt64}
variable {pb' : PrimaryBlock} {x : StoredBundle}

/-- The message asks for fragments of at most `k` bytes of the bundle with this primary block. -/
def Message.asks (pb : PrimaryBlock) (k : UInt64) : Message → Bool
  | .fragmentBundle r n => r.primaryBlock = pb ∧ n = k
  | _ => false

/-- The bundles that a message adds to the store. What else is announced was stored before: it has a new state, or a
minimal size. -/
def added (m : Message) (es : List Effect) : List StoredBundleRef :=
  match m with
  | .storeReceivedBundle _ | .storeNewBundle _ => announced es
  | .updateBundle _ st _ => if st = .defragmentationPending then announced es else []
  | .fragmentBundle _ _ => if es.any fun | .deleteBundleFile _ => true | _ => false then announced es else []

/-- The stored bundles that may be asked to be cut to `k` bytes. -/
def cuts (sbs : List StoredBundle) (pb : PrimaryBlock) (k : UInt64) : Nat := sbs.countP (·.getRef.cuttable pb k)

lemma cuts_append (sbs sbs' : List StoredBundle) : cuts (sbs ++ sbs') pb k = cuts sbs pb k + cuts sbs' pb k :=
  countP_append

lemma cuts_perm (h : sbs.Perm sbs') : cuts sbs pb k = cuts sbs' pb k := h.countP_eq _

lemma cuts_singleton (y : StoredBundle) : cuts [y] pb k = if y.getRef.cuttable pb k then 1 else 0 :=
  countP_singleton

lemma cuts_le (pb : PrimaryBlock) (k : UInt64) (sbs : List StoredBundle) : cuts sbs pb k ≤ (sbs.map (·.getRef)).countP
    (·.exceeds pb k) := by
  rw [List.countP_map]
  refine countP_mono_left fun y _ hy => ?_
  exact (Bool.and_eq_true_iff.mp hy).1

lemma started_announced (h : Daemon.started S endpoint files = .ok (d, es)) :
    announced es = d.bundles.map (·.getRef) := by
  obtain ⟨sbs, -, h⟩ := Outcome.bind_eq_ok.mp h
  cases h
  rw [announced, List.filterMap_map]
  exact congrFun List.filterMap_eq_map sbs

/-- The fragments of a bundle are added, whose file is deleted then. -/
lemma added_fragmented (r : StoredBundleRef) (n : UInt64) (ys : List StoredBundle) (x : StoredBundle) :
    added (.fragmentBundle r n) (ys.flatMap announce ++ [.deleteBundleFile x.getFilename]) = ys.map (·.getRef) := by
  rw [added, if_pos (any_eq_true.mpr ⟨_, mem_concat_self, rfl⟩)]
  exact announced_announce ys [x]

/-- The entry that a request refers to is the current one, and it is known what cutting it can give. -/
def Current (S : Serde) (sbs : List StoredBundle) : Message → Prop
  | .fragmentBundle r n => ∃ x rest, removeFirst r.primaryBlock sbs = some (x, rest) ∧ x.getRef = r ∧ n < r.size ∧
    (∀ j, r.minSize = some j → j ≤ n) ∧ ∀ b j, Bundle.tryFrom S x.bundleData.bytes = .ok b →
      b.fragment n.toNat = .err (.canNotFragmentThatSmall j) → n < j
  | _ => True

lemma cuts_replaced (hx : removeFirst pb' sbs = some (x, rest)) (pb : PrimaryBlock) (k : UInt64)
    (new : List StoredBundle) :
    cuts sbs pb k = (if x.getRef.cuttable pb k then 1 else 0) + cuts rest pb k ∧
      cuts (rest ++ new) pb k = cuts rest pb k + cuts new pb k := by
  rw [cuts_perm (removeFirst_perm hx), ← singleton_append, cuts_append, cuts_append, cuts_singleton]
  exact ⟨rfl, rfl⟩

lemma cuttable_iff : r.cuttable pb k = true ↔ r.primaryBlock = pb ∧ k < r.size ∧ ∀ j, r.minSize = some j → j ≤ k := by
  rw [StoredBundleRef.cuttable, StoredBundleRef.exceeds, Bool.and_eq_true, decide_eq_true_eq, and_assoc]
  refine and_congr_right fun _ => and_congr_right fun _ => ?_
  cases r.minSize with
  | none | some => simp

section

variable {x : StoredBundle} {rest : List StoredBundle} {n : UInt64} (hsize : n < x.getRef.size)
  (hmin : ∀ j, x.getRef.minSize = some j → j ≤ n)
variable {minSize : UInt64}

include hsize hmin

/-- What a request asks for could be cut. -/
lemma cuttable_of_asks (h : (Message.fragmentBundle x.getRef n).asks pb k = true) :
    x.getRef.cuttable pb k = true := by
  obtain ⟨hpb, rfl⟩ := of_decide_eq_true h
  exact cuttable_iff.mpr ⟨hpb, hsize, hmin⟩

omit hsize in
/-- Once the entry has a larger minimum, whatever may be cut of it could be before, and is not what was asked for. -/
lemma cuttable_of_larger (hlt : n < minSize)
    (h : StoredBundleRef.cuttable pb k { x with minSize := some minSize : StoredBundle }.getRef = true) :
    x.getRef.cuttable pb k = true ∧ (Message.fragmentBundle x.getRef n).asks pb k = false := by
  obtain ⟨hpb, hk, hj⟩ := cuttable_iff.mp h
  have hle := hj minSize rfl
  refine ⟨cuttable_iff.mpr ⟨hpb, hk, fun j h => ?_⟩, decide_eq_false fun h => ?_⟩
  · grind
  · rw [← h.2] at hle
    exact UInt64.not_le.mpr hlt hle

lemma cuts_tooSmall (hlt : n < minSize) (hx : removeFirst pb' sbs = some (x, rest)) :
    cuts (rest ++ [{ x with minSize := some minSize }]) pb k +
      (if (Message.fragmentBundle x.getRef n).asks pb k then 1 else 0) ≤ cuts sbs pb k := by
  obtain ⟨hbefore, hafter⟩ := cuts_replaced hx pb k [{ x with minSize := some minSize }]
  rw [hbefore, hafter, cuts_singleton]
  cases hcut : StoredBundleRef.cuttable pb k { x with minSize := some minSize : StoredBundle }.getRef with
  | true => grind [cuttable_of_larger]
  | false => grind [cuttable_of_asks]

end

/-- A request uses up the bundle it refers to: its fragments are small enough or its entry says that it cannot be
cut. -/
lemma Change.cuts_le (h : Change S sbs m sbs' es) (hm : Current S sbs m) (pb : PrimaryBlock) (k : UInt64) :
    cuts sbs' pb k + (if m.asks pb k then 1 else 0) ≤ cuts sbs pb k + (added m es).countP (·.exceeds pb k) := by
  cases h with
  | @received bs y | @created bs b n y =>
    have hnew := cuts_le pb k [y]
    rw [cuts_append, add_assoc]
    exact Nat.add_le_add_left hnew _
  | @missing _ r hr hx =>
    cases m with
    | storeReceivedBundle | storeNewBundle => cases hr
    | updateBundle => exact Nat.le_add_right ..
    | fragmentBundle =>
      cases hr
      obtain ⟨x, rest, hx', -⟩ := hm
      cases hx.symm.trans hx'
  | @changed _ _ _ _ x y _ hx _ hy =>
    obtain ⟨hbefore, hafter⟩ := cuts_replaced hx pb k [y]
    have hsame : y.getRef.cuttable pb k = x.getRef.cuttable pb k := by rw [hy]; rfl
    rw [hbefore, hafter, cuts_singleton, hsame]
    simp only [Message.asks, Bool.false_eq_true, ↓reduceIte]
    omega
  | @finished _ _ _ _ _ hx =>
    obtain ⟨hbefore, -⟩ := cuts_replaced hx pb k []
    rw [hbefore]
    simp only [Message.asks, Bool.false_eq_true, ↓reduceIte]
    omega
  | @waiting rest _ _ x _ _ hx =>
    have hperm := (filter_append_perm (isFragmentOf S x.primaryBlock) (rest ++ [x])).trans
      (removeFirst_perm_append hx).symm
    rw [cuts_perm (perm_append_comm.trans hperm)]
    exact Nat.le_add_right ..
  | @reassembled rest _ _ x y _ _ hx =>
    have hsub : cuts ((rest ++ [x]).filter (!isFragmentOf S x.primaryBlock ·)) pb k ≤ cuts (rest ++ [x]) pb k :=
      filter_sublist.countP_le
    have hnew := cuts_le pb k [y]
    have hannounced := announced_announce [y] ((rest ++ [x]).filter (isFragmentOf S x.primaryBlock))
    rw [flatMap_singleton] at hannounced
    rw [cuts_append, cuts_perm (removeFirst_perm_append hx), added, if_pos rfl, hannounced]
    simp only [Message.asks, Bool.false_eq_true, ↓reduceIte]
    exact (Nat.add_zero _).trans_le (Nat.add_le_add hsub hnew)
  | @tooSmall _ _ _ minSize _ b hx hb hcannot =>
    obtain ⟨x', rest', hx', rfl, hsize, hmin, hcut⟩ := hm
    cases hx.symm.trans hx'
    exact le_add_right_of_le (cuts_tooSmall hsize hmin (hcut b minSize hb hcannot) hx)
  | @fragmented _ ys _ _ _ _ _ _ hx =>
    obtain ⟨_, _, hx', rfl, _, _, -⟩ := hm
    cases hx.symm.trans hx'
    obtain ⟨hbefore, hafter⟩ := cuts_replaced hx pb k ys
    have hnew := cuts_le pb k ys
    rw [hbefore, hafter, added_fragmented]
    split
    · grind [cuttable_of_asks]
    · omega

/-! ## What is queued for forwarding -/

/-- What is queued for forwarding is stored as the encoder writes it. -/
def Encoded (S : Serde) (y : StoredBundle) : Prop :=
  y.state = .forwardingQueued → ∀ b, Bundle.tryFrom S y.bundleData.bytes = .ok b → b.toVec = .ok y.bundleData.bytes

lemma encoded_of_state (h : y.state ≠ .forwardingQueued) : Encoded S y := fun h' => absurd h' h

lemma encoded_changed (hm : (Message.updateBundle r st data).Ok S endpoint r) (hr : RefOk S endpoint r)
    (hfit : FitsInMemory (data.elim x.bundleData (⟨address, ·⟩)).bytes) :
    Encoded S { x with state := st, bundleData := data.elim x.bundleData (⟨address, ·⟩) } := by
  rintro rfl b hb
  obtain ⟨-, -, -, _, rfl, hforward⟩ := hm
  exact (hforward.decoded hr hfit hb).2

lemma encoded_of_change (h : Change S sbs m sbs' es)
    (hm : ∀ r, m.bundleref = some r → RefOk S endpoint r ∧ m.Ok S endpoint r)
    (hfit : ∀ y ∈ sbs', FitsInMemory y.bundleData.bytes) (hentries : ∀ y ∈ sbs, Encoded S y) :
    ∀ y ∈ sbs', Encoded S y := by
  intro y hy
  cases h.origin hy with
  | kept hy => exact hentries y hy
  | fresh _ hstate => exact encoded_of_state (by rcases hstate with h | h <;> rw [h] <;> exact nofun)
  | changed hupdate =>
    subst hupdate
    exact encoded_changed (hm _ rfl).2 (hm _ rfl).1 (hfit _ hy)
  | measured hx =>
    have hencoded := hentries _ hx
    exact hencoded

end Storage

/-! ## Requests on their way -/

namespace Node

variable {n n' : Node} {e : NodeEvent} {pb : PrimaryBlock} {k : UInt64}

/-- A request is for a bundle that may be cut. -/
lemma cuttable_of_asks {m : Storage.Message} (h : m.asks pb k = true) {P : Parties}
    (hm : ∀ i ∈ m.items, ItemOk S endpoint P i) :
    ∃ r, m.items.map Prod.snd = {r} ∧ r.cuttable pb k = true ∧ IsRemote endpoint pb := by
  cases m with
  | fragmentBundle r =>
    obtain ⟨rfl, rfl⟩ := of_decide_eq_true h
    obtain ⟨hr, -, hst, hsize, -, hmin⟩ := hm _ (Multiset.mem_singleton_self _)
    exact ⟨r, rfl, cuttable_iff.mpr ⟨rfl, hsize, hmin⟩, hr.forwardingQueued hst⟩
  | storeReceivedBundle | storeNewBundle | updateBundle => cases h

/-- Each request carries a reference of its own. -/
lemma countP_asks_le {P : Parties} (box : List Storage.Message)
    (h : ∀ i ∈ (box.map Storage.Message.items).sum, ItemOk S endpoint P i) :
    box.countP (·.asks pb k) ≤ ((box.map Storage.Message.items).sum.map Prod.snd).countP (·.cuttable pb k = true) := by
  induction box with
  | nil => exact zero_le _
  | cons _ _ ih =>
    rw [List.map_cons, List.sum_cons] at h ⊢
    have hrest := ih fun i hi => h i (mem_add.mpr (.inr hi))
    rw [Multiset.map_add, countP_add, List.countP_cons]
    split
    · rename_i hasks
      obtain ⟨r, hr, hcut, -⟩ := cuttable_of_asks hasks fun i hi => h i (mem_add.mpr (.inl hi))
      have hone : Multiset.countP (·.cuttable pb k = true) ({r} : Multiset StoredBundleRef) = 1 := by
        exact countP_eq_card.mpr fun r' hr' => by rw [Multiset.mem_singleton.mp hr']; exact hcut
      rw [hr, hone]
      omega
    · omega

lemma storeBox_items_le (n : Node) : (n.storeBox.map Storage.Message.items).sum ≤ n.items := by
  rw [items]
  exact (Multiset.le_add_left _ _).trans ((Multiset.le_add_right _ _).trans (Multiset.le_add_right _ _))

/-- Only bundles for other nodes are asked to be cut. -/
lemma Sound.asks_eq_zero (hn : n.Sound S endpoint) (hremote : ¬ IsRemote endpoint pb) :
    n.storeBox.countP (·.asks pb k) = 0 := by
  refine List.countP_eq_zero.mpr fun m hm hasks => hremote ?_
  have hok : ∀ i ∈ m.items, ItemOk S endpoint n.parties i := fun i hi =>
    hn.items i (mem_of_le n.storeBox_items_le (mem_sum_map.mpr ⟨m, hm, hi⟩))
  exact (cuttable_of_asks hasks hok).choose_spec.2.2

/-- There are no more requests on their way than stored bundles that may be cut. -/
lemma Covered.requests_le (hc : n.Covered (IsRemote endpoint)) (hn : n.Sound S endpoint) (pb : PrimaryBlock)
    (k : UInt64) : n.storeBox.countP (·.asks pb k) ≤ cuts n.store.bundles pb k := by
  have hbox := n.storeBox_items_le
  have hok : ∀ i ∈ (n.storeBox.map Storage.Message.items).sum, ItemOk S endpoint n.parties i := fun i hi =>
    hn.items i (mem_of_le hbox hi)
  by_cases hremote : IsRemote endpoint pb
  · have hitems := countP_le_of_le (·.cuttable pb k = true) (map_le_map (f := Prod.snd) hbox)
    refine (countP_asks_le _ hok).trans (hitems.trans ?_)
    have hle : (n.items.map Prod.snd).filter (·.cuttable pb k = true) ≤
        (↑(n.store.bundles.map (·.getRef)) : Multiset StoredBundleRef).filter (·.cuttable pb k = true) := by
      refine le_iff_count.mpr fun r => ?_
      rw [Multiset.count_filter, Multiset.count_filter]
      split
      · rename_i hcut
        rw [coe_count]
        exact hc r ((cuttable_iff.mp hcut).1 ▸ hremote)
      · exact le_refl _
    rw [countP_eq_card_filter]
    refine (card_le_card hle).trans (le_of_eq ?_)
    rw [← countP_eq_card_filter, coe_countP, List.countP_map, cuts]
    refine List.countP_congr fun y _ => ?_
    simp
  · exact (hn.asks_eq_zero hremote).trans_le (zero_le _)

/-- Of the bundles with one primary block, one is stored. -/
lemma Distinct.cuts_le_one (hd : n.Distinct (IsRemote endpoint)) (hremote : IsRemote endpoint pb) :
    cuts n.store.bundles pb k ≤ 1 := by
  rw [cuts, List.countP_eq_length_filter]
  have hpairwise := List.Pairwise.sublist (List.filter_sublist (p := fun y => y.getRef.cuttable pb k)) hd
  have hmem {y} (hy : y ∈ n.store.bundles.filter fun y => y.getRef.cuttable pb k) : y.primaryBlock = pb :=
    (cuttable_iff.mp (List.mem_filter.mp hy).2).1
  generalize (n.store.bundles.filter fun y => y.getRef.cuttable pb k) = ys at hpairwise hmem ⊢
  cases ys with
  | nil => exact zero_le _
  | cons x ys =>
    cases ys with
    | nil => exact le_refl _
    | cons y _ =>
      have hx : x.primaryBlock = pb := hmem (by simp)
      have hy : y.primaryBlock = pb := hmem (by simp)
      exact absurd (hx ▸ hremote) ((List.pairwise_cons.mp hpairwise).1 y (by simp) (hx.trans hy.symm))

/-- The entry that a request refers to is the one it was sent for. -/
lemma Kept.current (hn : n.Kept S endpoint files) (hc : n.Covered (IsRemote endpoint))
    (hd : n.Distinct (IsRemote endpoint)) (hfit : n.store.Fits) (hencoded : ∀ y ∈ n.store.bundles, Storage.Encoded S y)
    (hbox : n.storeBox = m :: box) : Storage.Current S n.store.bundles m := by
  cases m with
  | storeReceivedBundle | storeNewBundle | updateBundle => trivial
  | fragmentBundle r =>
    obtain ⟨hr, -, hst, hsize, -, hmin⟩ := hn.sound.message hbox (r := r) rfl
    have hremote := hr.forwardingQueued hst
    obtain ⟨_, hitems, -⟩ := items_handled hbox n.store []
    obtain ⟨y, hy, hyr⟩ := hc.stored (r := r) (by rw [hitems, mem_message_items rfl]; simp) hremote
    cases hx : removeFirst r.primaryBlock n.store.bundles with
    | none => exact absurd (congrArg (·.primaryBlock) hyr) (removeFirst_eq_none hx y hy)
    | some found =>
      obtain ⟨x, others⟩ := found
      have hpb := removeFirst_primaryBlock hx
      have hmem : x ∈ n.store.bundles := (removeFirst_perm hx).mem_iff.mpr List.mem_cons_self
      obtain rfl : x = y := hd.eq hmem hy (hpb.trans (congrArg (·.primaryBlock) hyr).symm) (hpb ▸ hremote)
      refine ⟨x, others, hx, hyr, hsize, hmin, fun b j hb hcannot => UInt64.lt_iff_toNat_lt.mpr ?_⟩
      exact Bundle.lt_minSize hcannot (hencoded x hmem (by rw [← hst, ← hyr]; rfl) b hb) (hfit x hmem)

/-! ## Runs with their records -/

/-- The messages that an event sends to the storage agent. -/
def sends (n : Node) (e : NodeEvent) (n' : Node) : List Storage.Message :=
  if e = .storage then [] else n'.storeBox.drop n.storeBox.length

/-- The bundles that an event adds to the store. -/
def adds (S : Serde) (n : Node) : NodeEvent → List StoredBundleRef
  | .storage =>
    match n.persisted, n.storeBox with
    | some files, _ => (Storage.Daemon.started S n.store.endpoint files).toOption.elim [] fun p => announced p.2
    | none, m :: _ => (n.store.handle S m).toOption.elim [] fun p => added m p.2
    | none, [] => []
  | _ => []

end Node

/-- The messages sent to the storage agent, and the bundles that it has added to its store. -/
structure Records where
  sent : List Storage.Message
  stored : List StoredBundleRef

namespace Records

/-- How often the storage agent was asked to cut the bundle with this primary block to `m` bytes. -/
def requests (h : Records) (pb : PrimaryBlock) (m : UInt64) : Nat := h.sent.countP (·.asks pb m)

/-- How often a bundle with this primary block and of more than `m` bytes was stored. -/
def storings (h : Records) (pb : PrimaryBlock) (m : UInt64) : Nat := h.stored.countP (·.exceeds pb m)

end Records

/-- A node and its records. -/
def recordedNode (S : Serde) (endpoint : Endpoint) (found files : List (String × List UInt8)) :
    System (Node × Records) NodeEvent where
  init q := (node S endpoint found files).init q.1 ∧ q.2 = ⟨[], []⟩
  step q e q' := (node S endpoint found files).step q.1 e q'.1 ∧
    q'.2 = ⟨q.2.sent ++ q.1.sends e q'.1, q.2.stored ++ q.1.adds S e⟩

/-- What is known of a node and its records. -/
structure Recorded (S : Serde) (endpoint : Endpoint) (files : List (String × List UInt8))
    (q : Node × Records) : Prop where
  kept : q.1.Kept S endpoint files
  covered : q.1.Covered (IsRemote endpoint)
  fits : q.1.store.Fits
  encoded : ∀ y ∈ q.1.store.bundles, Storage.Encoded S y
  counts : ∀ pb m, q.2.requests pb m + cuts q.1.store.bundles pb m ≤
    q.2.storings pb m + q.1.storeBox.countP (·.asks pb m)

variable {q q' : Node × Records} {e : NodeEvent}

/-- Between `q` and `q'`, requests are paid for by entries that could be cut and by storings. -/
def Paid (endpoint : Endpoint) (q q' : Node × Records) : Prop := ∀ pb m,
  q'.2.requests pb m + cuts q'.1.store.bundles pb m + (q.2.storings pb m + q.1.storeBox.countP (·.asks pb m)) ≤
      q.2.requests pb m + cuts q.1.store.bundles pb m +
        (q'.2.storings pb m + q'.1.storeBox.countP (·.asks pb m)) ∧
    (¬ IsRemote endpoint pb → q'.2.requests pb m = q.2.requests pb m)

lemma Recorded.step_storage (hq : Recorded S endpoint files q) (hd : q.1.Distinct (IsRemote endpoint))
    (h : Node.Step S q.1 .storage n') (hfit : n'.store.Fits) :
    (∀ y ∈ n'.store.bundles, Storage.Encoded S y) ∧ ∀ pb m, cuts n'.store.bundles pb m +
      q.1.storeBox.countP (·.asks pb m) ≤ cuts q.1.store.bundles pb m + (q.1.adds S .storage).countP
    (·.exceeds pb m) +
        n'.storeBox.countP (·.asks pb m) := by
  cases h with
  | idle => exact ⟨hq.encoded, fun pb m => by omega⟩
  | @start _ d _ hfiles h =>
    obtain ⟨hload, _⟩ := started_eq_ok h
    have hadds : q.1.adds S .storage = d.bundles.map (·.getRef) := by
      rw [adds, hfiles]
      dsimp only
      rw [h]
      exact started_announced h
    refine ⟨fun y hy => encoded_of_state ?_, fun pb m => ?_⟩
    · rw [(loaded hload hy).2.1]
      exact nofun
    · grind [cuts_le]
  | @storage m _ _ es hstarted hbox h =>
    have hchange := Storage.Daemon.handle_change h
    have hadds : q.1.adds S .storage = added m es := by
      rw [adds, hstarted, hbox]
      dsimp only
      rw [h]
      rfl
    refine ⟨encoded_of_change hchange (fun r hr => hq.kept.sound.message hbox hr) hfit hq.encoded,
      fun pb k => ?_⟩
    have hcuts := hchange.cuts_le (hq.kept.current hq.covered hd hq.fits hq.encoded hbox) pb k
    rw [hadds, hbox, List.countP_cons]
    dsimp only
    omega

lemma Recorded.step_paid (hq : Recorded S endpoint files q) (hd : q.1.Distinct (IsRemote endpoint))
    (h : (recordedNode S endpoint found files).step q e q') : Paid endpoint q q' := by
  intro pb m
  obtain ⟨⟨hfit, hnext⟩, hrecords⟩ := h
  have hstep := next_step hnext
  rw [hrecords]
  simp only [Records.requests, Records.storings, countP_append]
  by_cases he : e = .storage
  · subst he
    have hstorage := (hq.step_storage hd hstep hfit).2 pb m
    rw [sends, if_pos rfl, countP_nil]
    omega
  · obtain ⟨_, hms, -⟩ := hstep.storeBox hq.kept.sound he
    have hadds : q.1.adds S e = [] := by
      cases e with
      | storage => exact absurd rfl he
      | _ => rfl
    have hzero : ¬ IsRemote endpoint pb → _ := (hstep.sound hfit hq.kept.sound).asks_eq_zero (k := m)
    rw [hms, countP_append] at hzero
    rw [(hstep.frame he).1, hadds, sends, if_neg he, hms, drop_left, countP_append, countP_nil]
    refine ⟨by omega, fun hremote => ?_⟩
    have := hzero hremote
    omega

lemma Recorded.step (hq : Recorded S endpoint files q) (hd : q.1.Distinct (IsRemote endpoint))
    (h : (recordedNode S endpoint found files).step q e q') : Recorded S endpoint files q' := by
  have hpaid := hq.step_paid hd h
  obtain ⟨⟨hfit, hnext⟩, -⟩ := h
  have hstep := next_step hnext
  refine ⟨hstep.kept hfit hq.kept, hstep.covered hq.kept (fun _ => IsRemote.not_localFragment) hd hq.covered,
    hfit, ?_, fun pb m => ?_⟩
  · by_cases he : e = .storage
    · subst he
      exact (hq.step_storage hd hstep hfit).1
    · rw [(hstep.frame he).1]
      exact hq.encoded
  · have hcounts := hq.counts pb m
    have := (hpaid pb m).1
    omega

/-- What each step pays for is paid for by the whole run. -/
lemma Recorded.run (h : ((recordedNode S endpoint found files).only fun q _ => q.1.Distinct (IsRemote endpoint)).Run
      q as q') (hq : Recorded S endpoint files q) : Recorded S endpoint files q' ∧ Paid endpoint q q' := by
  induction h with
  | nil => exact ⟨hq, fun pb m => ⟨le_refl _, fun _ => rfl⟩⟩
  | cons hs _ ih =>
    have hpaid := hq.step_paid hs.1 hs.2
    obtain ⟨hq', hpaid'⟩ := ih (hq.step hs.1 hs.2)
    refine ⟨hq', fun pb m => ⟨?_, fun hremote => ((hpaid' pb m).2 hremote).trans ((hpaid pb m).2 hremote)⟩⟩
    have h1 := (hpaid pb m).1
    have h2 := (hpaid' pb m).1
    omega

lemma reaches_recorded (hfound : ¬ Node.Persists S (IsRemote endpoint) found)
    (h : (recordedNode S endpoint found files).Reaches (fun q _ => q.1.Distinct (IsRemote endpoint)) q) :
    Recorded S endpoint files q := by
  refine h.invariant (Recorded S endpoint files) (fun q hq => ?_) fun q e q' hq ha h => hq.step ha h
  obtain ⟨hstart, hnone⟩ := hq
  have hempty : q.1.store.bundles = [] := by
    obtain ⟨_, -, hn⟩ := start_eq_ok hstart
    rw [hn]
  refine ⟨start_kept hstart, (start_owned hstart hfound).covered, ?_, ?_, fun pb m => ?_⟩
  · rw [Storage.Daemon.Fits, hempty]
    exact forall_mem_nil _
  · rw [hempty]
    exact forall_mem_nil _
  · rw [hempty, hnone]
    exact zero_le _

/-! ## What is asked for once -/

/-- With a limit of `m` bytes the protocol agent leaves the bundle in its queue. -/
def KeepsQueued (r : StoredBundleRef) (m : UInt64) : Prop :=
  ∀ (w : World) (c c' : Context) (destination node : Endpoint) (sender : Nat),
    destination.getNodeEndpoint = (.ok node : Outcome Empty Endpoint) →
    Context.nextHop c.daemon node = some (sender, some m) → r ∈ c.daemon.remoteBundles.list node →
    c.deliverRemoteBundles w destination = .ok c' → r ∈ c'.daemon.remoteBundles.list node

/-- What becomes of a request: no fragment is above `m` bytes, or the entry and its new reference say that the bundle
cannot be cut, which keeps it queued. -/
def Node.Answers (S : Serde) (n : Node) (r : StoredBundleRef) (m : UInt64) (n' : Node) : Prop :=
  (n.adds S .storage ≠ [] ∧ ∀ s ∈ n.adds S .storage, s.size ≤ m) ∨
    n.adds S .storage = [] ∧ ∃ y ∈ n'.store.bundles, y.primaryBlock = r.primaryBlock ∧
      (∃ j, y.minSize = some j ∧ m < j) ∧ .eventBundleUpdated y.getRef ∈ n'.protocolBox ∧ KeepsQueued y.getRef m

lemma keepsQueued_of_minSize (hsize : m < r.size) (hmin : r.minSize = some j) (hlt : m < j) : KeepsQueued r m := by
  intro w c c' destination node sender hnode hnext hmem h
  refine mem_queue_of_unsendable h hnode hnext ?_ hmem
  have hlarge : Context.tooLarge (some m) r = some m := Option.filter_eq_some_iff.mpr ⟨rfl, decide_eq_true hsize⟩
  rw [unsendable_of_tooLarge hlarge, hmin, Option.any_some, decide_eq_true hlt, Bool.or_true]

lemma Recorded.answers (hq : Recorded S endpoint files q) (hd : q.1.Distinct (IsRemote endpoint))
    (hstarted : q.1.persisted = none)
    (hbox : q.1.storeBox = .fragmentBundle r m :: box) (h : (node S endpoint found files).step q.1 .storage n') :
    q.1.Answers S r m n' := by
  have h := Outcome.toOption_eq_some.mp h.2
  rw [handleStorage, hstarted, hbox] at h
  obtain ⟨⟨d, es⟩, hd', h⟩ := Outcome.bind_eq_ok.mp h
  cases h
  have hadds : q.1.adds S .storage = added (.fragmentBundle r m) es := by
    rw [adds, hstarted, hbox]
    dsimp only
    rw [hd']
    rfl
  obtain ⟨x, _, hx, rfl, hsize, _, hcut⟩ := hq.kept.current hq.covered hd hq.fits hq.encoded hbox
  rw [Node.Answers, hadds]
  have hchange := Storage.Daemon.handle_change hd'
  generalize d.bundles = sbs' at hchange ⊢
  cases hchange with
  | missing hr hx' =>
    cases hr
    cases hx.symm.trans hx'
  | @tooSmall _ _ _ minSize _ b hx' hb hcannot =>
    cases hx.symm.trans hx'
    have hlt := hcut b minSize hb hcannot
    refine .inr ⟨rfl, { x with minSize := some minSize }, ?_, rfl, ⟨minSize, rfl, hlt⟩, mem_concat_self,
      keepsQueued_of_minSize hsize rfl hlt⟩
    exact mem_concat_self
  | @fragmented _ _ _ _ _ _ _ _ hx' _ hfs _ hys =>
    cases hx.symm.trans hx'
    rw [added_fragmented]
    refine .inl ⟨fun hnil => ?_, fun s hs => ?_⟩
    · simp_all
    · obtain ⟨_, hy, rfl⟩ := List.mem_map.mp hs
      obtain ⟨_, hf, hholds⟩ := forall₂_mem' hys hy
      obtain ⟨_, hb'⟩ := hholds.describes
      have hle := Bundle.fragment_small hfs hf hholds.data
      rw [UInt64.le_iff_toNat_le, StoredBundle.getRef, hb'.size, UInt64.toNat_ofNat']
      exact (mod_le _ _).trans hle

lemma Recorded.requests_le_succ (hq : Recorded S endpoint files q)
    (h : ((recordedNode S endpoint found files).only fun q _ => q.1.Distinct (IsRemote endpoint)).Run q as q')
    (hstorings : q'.2.storings pb m = q.2.storings pb m) : q'.2.requests pb m ≤ q.2.requests pb m + 1 := by
  obtain ⟨hq', hpaid⟩ := hq.run h
  obtain ⟨hle, hnone⟩ := hpaid pb m
  by_cases hremote : IsRemote endpoint pb
  · have hway := hq'.covered.requests_le hq'.kept.sound pb m
    cases h with
    | nil => exact le_succ _
    | cons hs _ =>
      have hone := hs.1.cuts_le_one hremote (k := m)
      omega
  · exact (hnone hremote).trans_le (le_succ _)

/-- If the storage agent that `main` starts has found no bundle for another node and the stored ones have distinct
primary blocks: a bundle is asked to be cut to `m` bytes once at most each time that one of more than `m` bytes is
stored with its primary block, in all and between any two storings. Its fragments have at most `m` bytes; if there are
none, the recorded minimal size keeps it queued. -/
theorem requests_le_storings (hfound : ¬ Node.Persists S (IsRemote endpoint) found)
    (h : (recordedNode S endpoint found files).Reaches (fun q _ => q.1.Distinct (IsRemote endpoint)) q) :
    (∀ pb m, q.2.requests pb m ≤ q.2.storings pb m) ∧
      (∀ as q' pb m,
        ((recordedNode S endpoint found files).only fun q _ => q.1.Distinct (IsRemote endpoint)).Run q as q' →
        q'.2.storings pb m = q.2.storings pb m → q'.2.requests pb m ≤ q.2.requests pb m + 1) ∧
      ∀ r m box n', q.1.Distinct (IsRemote endpoint) → q.1.persisted = none →
        q.1.storeBox = .fragmentBundle r m :: box → (node S endpoint found files).step q.1 .storage n' →
        q.1.Answers S r m n' := by
  have hq := reaches_recorded hfound h
  refine ⟨fun pb m => ?_, fun as q' pb m hrun => hq.requests_le_succ hrun,
    fun r m box n' hd hstarted hbox hstep => hq.answers hd hstarted hbox hstep⟩
  have hcounts := hq.counts pb m
  have hway := hq.covered.requests_le hq.kept.sound pb m
  omega

/-- One bundle larger than 280 bytes, which the neighbour takes at most, is asked to be cut once. -/
theorem requests_le_storings_hopping : ∃ q,
    (recordedNode .plain (.ipn ⟨1, 0⟩) [] []).Reaches (fun q _ => q.1.Distinct (IsRemote (.ipn ⟨1, 0⟩))) q ∧
      q.2.requests hopping.primaryBlock 280 = 1 ∧ q.2.storings hopping.primaryBlock 280 = 1 ∧
      q.2.requests hopping.primaryBlock 280 ≤ q.2.storings hopping.primaryBlock 280 := by
  have hinit : (recordedNode .plain (.ipn ⟨1, 0⟩) [] []).init (emptyNode, ⟨[], []⟩) := ⟨start_emptyNode, rfl⟩
  obtain ⟨q, hreaches, hrequests, hstorings⟩ := (System.Reaches.init hinit).foldlM_any
    (f := Node.loggedNext .plain (fun q _ => q.1.Distinct (IsRemote (.ipn ⟨1, 0⟩))) fun q e n' =>
      ⟨q.2.sent ++ q.1.sends e n', q.2.stored ++ q.1.adds .plain e⟩) (fun _ _ _ => Node.loggedNext_eq_some)
    (hoppingEvents (some 280) ++ [.storage, .protocol [] ⟨0⟩, .storage, .protocol [] ⟨0⟩])
    (fun q => q.2.requests hopping.primaryBlock 280 = 1 ∧ q.2.storings hopping.primaryBlock 280 = 1)
    (by decide +kernel)
  exact ⟨q, hreaches, hrequests, hstorings,
    (requests_le_storings (fun ⟨_, hf, _⟩ => by cases hf) hreaches).1 hopping.primaryBlock 280⟩

end Dtn.Dtrd
