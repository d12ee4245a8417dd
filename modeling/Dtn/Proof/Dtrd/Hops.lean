import Dtn.Proof.Dtrd.Forwarding

/-!
# Counting hops

`Arrivals` remembers, for each stored bundle that was received, what was
received. A received bundle with one hop count is given to a peer with this
count and one hop more, and it is not deleted because of its limit, as long as
it is not fragmented and no two stored bundles for other nodes have the same
primary block (`hops_counted`). A fragment becomes valid like a bundle that was
just received, and so its hop is counted once more (`hops_counted_twice`).
-/

namespace Dtn.Dtrd

open List Option Multiset Dtn.Bp7 Protocol Storage Bundle

variable {S : Serde} {endpoint : Endpoint} {found files : List (String × List UInt8)} {b : Bundle} {x : HopCountBlock}
variable {r : StoredBundleRef} {n : Node} {y : StoredBundle}

/-! ## Forwarding a bundle -/

/-- The bundle is encoded in `bytes` with one hop more. -/
def CountedIn (b : Bundle) (x : HopCountBlock) (bytes : List UInt8) : Prop :=
  ∃ b' : Bundle, b'.toVec = .ok bytes ∧ b'.primaryBlock = b.primaryBlock ∧ b'.hopCounts =
    [{ x with count := x.count + 1 }]

lemma forwardBundle_hops {c : Context} (hb : tryFrom S r.bundleData.bytes = .ok b)
    (hx : b.hopCounts = [x]) : (∀ bytes, c.forwardBundle S w r = .ok bytes → CountedIn b x bytes) ∧
      ∀ e, c.forwardBundle S w r = .err e → x.limit < x.count + 1 := by
  suffices h : c.forwardBundle S w r = .panic ∨ ∃ b' : Bundle, b'.primaryBlock = b.primaryBlock ∧
      b'.hopCounts = [{ x with count := x.count + 1 }] ∧
      c.forwardBundle S w r = if x.count + 1 ≤ x.limit then b'.toVec.unwrap else .err .hopLimitExceeded by
    rcases h with h | ⟨b', hpb, hhops, h⟩
    · rw [h]
      exact ⟨fun _ => nofun, fun _ => nofun⟩
    · rw [h]
      split
      · refine ⟨fun bytes hbytes => ⟨b', Outcome.unwrap_eq_ok.mp hbytes, hpb, hhops⟩, fun e he => ?_⟩
        cases hv : b'.toVec <;> rw [hv] at he <;> cases he
      · grind
  by_cases hpanic : c.forwardBundle S w r = .panic
  · exact .inl hpanic
  obtain ⟨_, _, hlive, hb0, hown⟩ := forwardBundle_cases hpanic
  cases hb.symm.trans hb0
  obtain ⟨b1, hb1, heq⟩ := forwardBundle_eq hlive hb hown
  obtain ⟨hpb1, hx1⟩ : b1.primaryBlock = b.primaryBlock ∧ b1.hopCounts = [x] := by
    rcases hb1 with rfl | rfl
    · exact ⟨rfl, hx⟩
    · exact ⟨(b.setPreviousNode_adjusts _).primaryBlock, (b.hopCounts_setPreviousNode _).trans hx⟩
  obtain ⟨hcounts, hflag⟩ := incHopCount_cons hx1 hopLimitDefault
  refine .inr ⟨_, (b1.incHopCount_adjusts hopLimitDefault).primaryBlock.trans hpb1, hcounts, ?_⟩
  rw [heq, hflag]
  simp only [decide_eq_true_eq]

/-! ## What was received -/

/-- The bundle that was received as the stored bundle with a primary block. -/
abbrev Arrivals := PrimaryBlock → Option Bundle

/-- While a bundle is stored, its arrival stays; another one with its primary block is not followed. -/
def Node.arrivals (S : Serde) (n : Node) (e : NodeEvent) (arrival : Arrivals) : Arrivals := fun pb =>
  if n.store.bundles.any (·.primaryBlock = pb) then arrival pb
  else
    match e, n.persisted, n.storeBox with
    | .storage, none, .storeReceivedBundle data :: _ =>
      match tryFrom S data with
      | .ok b => if b.primaryBlock = pb then some b else none
      | _ => none
    | _, _, _ => none

/-- The node with the arrivals of its stored bundles. -/
def tracedNode (S : Serde) (endpoint : Endpoint) (found files : List (String × List UInt8)) :
    System (Node × Arrivals) NodeEvent where
  init s := (node S endpoint found files).init s.1 ∧ s.2 = fun _ => none
  step s e s' := (node S endpoint found files).step s.1 e s'.1 ∧ s'.2 = s.1.arrivals S e s.2

/-- The next message to the storage agent is not to fragment a bundle that was received. -/
def whole (s : Node × Arrivals) : Bool :=
  match s.1.storeBox with
  | .fragmentBundle r _ :: _ => (s.2 r.primaryBlock).isNone
  | _ => true

/-- The condition on a state and the next event. -/
def KeepsHops (endpoint : Endpoint) (s : Node × Arrivals) (e : NodeEvent) : Prop :=
  s.1.Distinct (IsRemote endpoint) ∧ (e = .storage → whole s = true)

instance (endpoint : Endpoint) (s : Node × Arrivals) (e : NodeEvent) : Decidable (KeepsHops endpoint s e) :=
  inferInstanceAs (Decidable (_ ∧ (_ → _)))

variable {arrival : Arrivals}

lemma arrivals_stored (hy : y ∈ n.store.bundles) :
    n.arrivals S e arrival y.primaryBlock = arrival y.primaryBlock := by
  exact if_pos (List.any_eq_true.mpr ⟨y, hy, decide_eq_true rfl⟩)

/-- A bundle that was not stored has an arrival only if it is received now. -/
lemma arrivals_new (h : n.arrivals S e arrival pb = some b) (hnew : ∀ y ∈ n.store.bundles, y.primaryBlock ≠ pb) :
    b.primaryBlock = pb ∧ e = .storage ∧ n.persisted = none ∧
      ∃ data box, n.storeBox = .storeReceivedBundle data :: box ∧ tryFrom S data = .ok b := by
  unfold Node.arrivals at h
  rw [if_neg (by simpa using hnew)] at h
  split at h <;> [skip; cases h]
  split at h <;> [skip; cases h]
  split at h <;> cases h
  exact ⟨‹_›, rfl, ‹_›, _, _, ‹_›, ‹_›⟩

/-! ## Invariant -/

/-- What is so of a reference to the bundle, before and after its hop is counted. -/
structure Traced (S : Serde) (b : Bundle) (x : HopCountBlock) (r : StoredBundleRef) : Prop where
  before : r.state = .received ∨ r.state = .valid → tryFrom S r.bundleData.bytes = .ok b
  after : r.state = .forwardingQueued → CountedIn b x r.bundleData.bytes

/-- It is not in a message to the protocol agent. -/
def Place.Left : Place → Prop
  | .protocolBox _ => False
  | _ => True

/-- What holds in every state of a run, about one received bundle. -/
structure Counting (S : Serde) (endpoint : Endpoint) (files : List (String × List UInt8)) (b : Bundle)
    (x : HopCountBlock)
    (s : Node × Arrivals) : Prop where
  kept : s.1.Kept S endpoint files
  covered : s.1.Covered (IsRemote endpoint)
  entries : s.1.Distinct (IsRemote endpoint) → ∀ y ∈ s.1.store.bundles, IsRemote endpoint y.primaryBlock →
    s.2 y.primaryBlock = some b → Traced S b x y.getRef
  refs : ∀ i ∈ s.1.items, i.1.Left → IsRemote endpoint i.2.primaryBlock → s.2 i.2.primaryBlock = some b →
    Traced S b x i.2

namespace Node

variable {n n' : Node} {e : NodeEvent}

lemma Step.left (h : Step S n e n') (hn : n.Sound S endpoint) (hi : i ∈ n'.items) (hleft : i.1.Left) :
    i.2 ∈ n.items.map Prod.snd := by
  by_cases he : e = .storage
  · cases h with
    | idle => exact Multiset.mem_map_of_mem _ hi
    | @start _ _ _ _ h =>
      rw [items_started, (started_eq_ok h).2] at hi
      rcases mem_add.mp hi with hi | hi
      · obtain ⟨y, -, rfl⟩ := mem_items_announced hi
        exact hleft.elim
      · exact Multiset.mem_map_of_mem _ hi
    | @storage _ _ d es _ hbox h =>
      obtain ⟨_, _, _, hex⟩ := exchange_of_change (Storage.Daemon.handle_change h)
        (fun r hr => (hn.message hbox hr).2) hn.entries
      obtain ⟨_, hbefore, hafter⟩ := items_handled hbox d (es.filterMap Storage.Effect.message)
      rw [hafter, hex.told] at hi
      rcases mem_add.mp hi with hi | hi
      · obtain ⟨_, -, rfl⟩ := mem_items_announced hi
        exact hleft.elim
      · exact Multiset.mem_map_of_mem _ (by rw [hbefore]; exact mem_add.mpr (.inr hi))
    | _ => cases he
  · obtain ⟨_, hshifts⟩ := h.shifts he hn
    exact hshifts.refs (Multiset.mem_map_of_mem _ hi)

end Node

variable {s s' : Node × Arrivals} {e : NodeEvent}

/-- Every reference to the bundle is to a stored one, and so it is traced. -/
lemma Counting.traced (hs : Counting S endpoint files b x s) (hd : s.1.Distinct (IsRemote endpoint))
    (hr : r ∈ s.1.items.map Prod.snd) (hremote : IsRemote endpoint r.primaryBlock)
    (h : s.1.arrivals S e s.2 r.primaryBlock = some b) : Traced S b x r := by
  obtain ⟨y, hy, rfl⟩ := hs.covered.stored hr hremote
  exact hs.entries hd y hy hremote ((arrivals_stored hy).symm.trans h)

lemma traced_changed {address : Nat} (hx : b.hopCounts = [x])
    (hr : Traced S b x r) (hm : (Storage.Message.updateBundle r st data).Ok S endpoint r) (hst : st.Queued)
    (hremote : IsRemote endpoint r.primaryBlock) (hy : y.bundleData = r.bundleData) :
    Traced S b x (StoredBundle.getRef { y with state := st, bundleData := data.elim y.bundleData (⟨address, ·⟩) }) := by
  obtain ⟨-, hm⟩ := hm
  rcases hst with rfl | rfl | rfl
  · obtain ⟨hst, rfl⟩ := hm
    refine ⟨fun _ => ?_, nofun⟩
    rw [StoredBundle.getRef, elim_none, hy]
    exact hr.before (.inl hst)
  · cases hm.2.1.symm.trans hremote
  · obtain ⟨hst, -, bs, rfl, _, _, -, hforward⟩ := hm
    refine ⟨fun h => absurd h (by simp [StoredBundle.getRef]), fun _ => ?_⟩
    exact (forwardBundle_hops (hr.before (.inr hst)) hx).1 bs hforward

lemma Counting.entries_storage (hx : b.hopCounts = [x]) (hs : Counting S endpoint files b x s)
    (ha : KeepsHops endpoint s .storage) (hbox : s.1.storeBox = m :: box) (h : s.1.store.handle S m = .ok (d, es))
    (hd : d.bundles.Pairwise fun x y => x.primaryBlock = y.primaryBlock → ¬ IsRemote endpoint x.primaryBlock)
    (hy : y ∈ d.bundles) (hremote : IsRemote endpoint y.primaryBlock)
    (harrival : s.1.arrivals S .storage s.2 y.primaryBlock = some b) : Traced S b x y.getRef := by
  obtain ⟨hdistinct, _⟩ := ha
  have hold (z : StoredBundle) (hz : z ∈ s.1.store.bundles) (hpb : z.primaryBlock = y.primaryBlock) :
      Traced S b x z.getRef ∧ s.2 y.primaryBlock = some b := by grind [hs.entries, arrivals_stored]
  have hnew (hnone : ∀ z ∈ s.1.store.bundles, z.primaryBlock ≠ y.primaryBlock) :
      ∃ data box, m :: box = .storeReceivedBundle data :: box ∧ tryFrom S data = .ok b := by
    obtain ⟨-, -, -, data, _, hbox', hb⟩ := arrivals_new harrival hnone
    rw [hbox] at hbox'
    cases hbox'
    exact ⟨data, box, rfl, hb⟩
  have hapart {old new} (hbundles : d.bundles = old ++ new) (hy : y ∈ new) (z : StoredBundle)
      (hz : z ∈ old) : z.primaryBlock ≠ y.primaryBlock := fun hpb => by
    rw [hbundles] at hd
    exact (pairwise_append.mp hd).2.2 z hz y hy hpb (by rw [hpb]; exact hremote)
  have hrest {pb z rest} (hz : removeFirst pb s.1.store.bundles = some (z, rest))
      (hy : y ∈ rest) : Traced S b x y.getRef :=
    (hold y ((removeFirst_perm hz).mem_iff.mpr (List.mem_cons_of_mem _ hy)) rfl).1
  -- a bundle that is to be fragmented was not received
  have hcut {r k z rest} (hz : removeFirst r.primaryBlock s.1.store.bundles = some (z, rest))
      (hm : m = .fragmentBundle r k)
      (hpb : z.primaryBlock = y.primaryBlock) : False := by grind [removeFirst_primaryBlock, whole]
  have hchange := Storage.Daemon.handle_change h
  generalize hbundles : d.bundles = sbs at hchange
  rw [hbundles] at hy
  have hm (r : StoredBundleRef) (hr : m.bundleref = some r) := hs.kept.sound.message hbox hr
  cases hchange with
  | received _ hdata hstate =>
    rcases mem_append.mp hy with hy | hy
    · exact (hold y hy rfl).1
    · obtain ⟨data, box, heq, hb⟩ := hnew (hapart hbundles hy)
      cases heq
      obtain rfl := List.mem_singleton.mp hy
      refine ⟨fun _ => by rw [StoredBundle.getRef, hdata]; exact hb, fun h => ?_⟩
      cases hstate.symm.trans h
  | created =>
    rcases mem_append.mp hy with hy | hy
    · exact (hold y hy rfl).1
    · obtain ⟨data, box, heq, -⟩ := hnew (hapart hbundles hy)
      cases heq
  | missing => exact (hold y hy rfl).1
  | @changed _ r _ _ z _ _ hz hst hy' =>
    rcases mem_append.mp hy with hy | hy
    · exact hrest hz hy
    · obtain rfl := List.mem_singleton.mp hy
      subst hy'
      obtain ⟨-, hok⟩ := hm r rfl
      have hpb := removeFirst_primaryBlock hz
      have hzmem : z ∈ s.1.store.bundles := (removeFirst_perm hz).mem_iff.mpr List.mem_cons_self
      -- the reference of the message is to the entry that is changed
      obtain ⟨_, hitems, -⟩ := Node.items_handled hbox d []
      have hremote : IsRemote endpoint z.primaryBlock := hremote
      obtain ⟨y', hy', hr⟩ := hs.covered.stored (r := r) (by rw [hitems, Node.mem_message_items rfl]; simp)
        (by rw [← hpb]; exact hremote)
      obtain rfl : z = y' := hdistinct.eq hzmem hy' (hpb.trans (congrArg (·.primaryBlock) hr).symm) hremote
      subst hr
      exact traced_changed hx (hold z hzmem rfl).1 hok hst hremote rfl
  | finished hz => exact hrest hz hy
  | @waiting rest _ _ z _ _ hz =>
    have hmem : y ∈ rest ++ [z] := by grind
    exact (hold y ((removeFirst_perm_append hz).mem_iff.mpr hmem) rfl).1
  | @reassembled _ r data z _ _ _ hz _ hbundles' hcan =>
    have hperm := removeFirst_perm_append hz
    rcases mem_append.mp hy with hy | hy
    · grind
    · obtain ⟨data, box, heq, -⟩ := hnew fun z' hz' hpb => by
        have hlocal := (hm r rfl).2.2.2.1
        have hfragments := localFragment_of_reassembled hbundles' hcan
          (fun y hy => hs.kept.sound.entries y (hperm.mem_iff.mpr hy))
          (by rw [removeFirst_primaryBlock hz]; exact hlocal)
        by_cases hfragment : isFragmentOf S z.primaryBlock z' = true
        · have hlocal' := (hfragments z' (List.mem_filter.mpr ⟨hperm.mem_iff.mp hz', hfragment⟩)).1
          rw [hpb] at hlocal'
          cases hlocal'.symm.trans hremote
        · exact hapart hbundles hy z' (List.mem_filter.mpr ⟨hperm.mem_iff.mp hz', by simpa using hfragment⟩) hpb
      cases heq
  | tooSmall => grind
  | @fragmented _ _ _ _ _ _ _ _ hz =>
    rcases mem_append.mp hy with hy | hy
    · exact hrest hz hy
    · obtain ⟨_, _, heq, -⟩ := hnew fun z' hz' hpb => by
        rcases List.mem_cons.mp ((removeFirst_perm hz).mem_iff.mp hz') with rfl | hz'
        · exact hcut hz rfl hpb
        · exact hapart hbundles hy z' hz' hpb
      cases heq

lemma Counting.step (hx : b.hopCounts = [x]) (hs : Counting S endpoint files b x s) (ha : KeepsHops endpoint s e)
    (h : (tracedNode S endpoint found files).step s e s') : Counting S endpoint files b x s' := by
  obtain ⟨n', _⟩ := s'
  obtain ⟨⟨hfit, hnext⟩, harrivals⟩ := h
  subst harrivals
  have hstep : Node.Step S s.1 e n' := Node.next_step hnext
  have hkept := hs.kept
  refine ⟨hstep.kept hfit hkept, hstep.covered hkept (fun _ => IsRemote.not_localFragment) ha.1 hs.covered,
    fun hd y hy hQ harrival => ?_, fun i hi hleft hQ harrival => ?_⟩
  · by_cases he : e = .storage
    · subst he
      cases hstep with
      | idle => exact hs.entries ha.1 y hy hQ ((arrivals_stored hy).symm.trans harrival)
      | start hfiles =>
        -- nothing was stored before
        have hempty := (hkept.unstarted _ hfiles).2
        obtain ⟨-, -, hpersisted, -⟩ := arrivals_new harrival (by rw [hempty]; exact forall_mem_nil _)
        cases hfiles.symm.trans hpersisted
      | storage _ hbox h => exact hs.entries_storage hx ha hbox h hd hy hQ harrival
    · rw [(hstep.frame he).1] at hy
      exact hs.entries ha.1 y hy hQ ((arrivals_stored hy).symm.trans harrival)
  · exact hs.traced ha.1 (hstep.left hkept.sound hi hleft) hQ harrival

lemma reaches_counting (hx : b.hopCounts = [x]) (hfound : ¬ Node.Persists S (IsRemote endpoint) found)
    (h : (tracedNode S endpoint found files).Reaches (KeepsHops endpoint) s) : Counting S endpoint files b x s := by
  refine h.invariant (Counting S endpoint files b x) (fun s hs => ?_) fun s e s' hs ha h => hs.step hx ha h
  obtain ⟨hstart, hnone⟩ := hs
  refine ⟨Node.start_kept hstart, (Node.start_owned hstart hfound).covered, fun _ y _ _ h => ?_, fun i _ _ _ h => ?_⟩
  all_goals
    rw [hnone] at h
    cases h

lemma mem_items_session (h : (a, session) ∈ n.sessions.entries) (hr : r ∈ session.refs) :
    ∃ p, (p, r) ∈ n.items ∧ (p = .agentMailbox a ∨ p = .transfer a) := by
  have hitems {p} (hp : (p, r) ∈ session.items a) : (p, r) ∈ n.items := by
    refine mem_add.mpr (.inl (mem_add.mpr (.inr ?_)))
    exact Table.mem_gather.mpr ⟨_, h, hp⟩
  rcases mem_append.mp hr with hr | hr
  · exact ⟨.agentMailbox a, hitems (mem_add.mpr (.inl (mem_placed.mpr ⟨rfl, hr⟩))), .inl rfl⟩
  · exact ⟨.transfer a, hitems (mem_add.mpr (.inr (mem_placed.mpr ⟨rfl, hr⟩))), .inr rfl⟩

/-- If the storage agent that `main` starts found no bundle for another node,
no two stored ones have the same primary block, and no received bundle is
fragmented, then what a session was given is stored, and if it was received
with one hop count within its limit, it is given on with one hop more, and
the storage agent is not told that it is invalid. -/
theorem hops_counted (h : (tracedNode S endpoint found files).Reaches (KeepsHops endpoint) s)
    (hfound : ¬ Node.Persists S (IsRemote endpoint) found) (hx : b.hopCounts = [x]) (hlimit : x.count < x.limit) :
    (∀ a session r, (a, session) ∈ s.1.sessions.entries → r ∈ session.refs →
      (∃ y ∈ s.1.store.bundles, y.getRef = r) ∧
        (s.2 r.primaryBlock = some b → CountedIn b x r.bundleData.bytes)) ∧
    ∀ r data, .updateBundle r .invalid data ∈ s.1.storeBox → s.2 r.primaryBlock ≠ some b := by
  have hs := reaches_counting hx hfound h
  refine ⟨fun a session r hsession hr => ?_, fun r data hm harrival => ?_⟩
  · obtain ⟨p, hitem, hp⟩ := mem_items_session hsession hr
    obtain ⟨hok, hplace⟩ := hs.kept.sound.items _ hitem
    have hstate : r.state = .forwardingQueued := by rcases hp with rfl | rfl <;> exact hplace.1
    have hleft : p.Left := by rcases hp with rfl | rfl <;> exact trivial
    have hremote := hok.forwardingQueued hstate
    exact ⟨hs.covered.stored (Multiset.mem_map_of_mem _ hitem) hremote, fun harrival =>
      (hs.refs _ hitem hleft hremote harrival).after hstate⟩
  · have hitem : ((.storeBox (.updateBundle r .invalid data), r) : Item) ∈ s.1.items := by
      refine mem_add.mpr (.inl (mem_add.mpr (.inl (mem_add.mpr (.inr ?_)))))
      exact mem_sum_map.mpr ⟨_, hm, Multiset.mem_singleton_self _⟩
    obtain ⟨-, -, hstate, hremote, e, w, c, -, herr⟩ := hs.kept.sound.items _ hitem
    have hb := (hs.refs _ hitem trivial hremote harrival).before (.inr hstate)
    have hexceeded := (forwardBundle_hops hb hx).2 e herr
    rw [UInt8.lt_iff_toNat_lt] at hlimit hexceeded
    rw [UInt8.toNat_add] at hexceeded
    have hone : (1 : UInt8).toNat = 1 := rfl
    omega

/-- 200 bytes from `ipn:3.0` to `ipn:2.0`, one hop away from their source. -/
def hopping : Bundle where
  primaryBlock := ⟨7, ⟨0⟩, .noCRC, .ipn ⟨2, 0⟩, .ipn ⟨3, 0⟩, .ipn ⟨3, 0⟩, ⟨⟨1000⟩, 1⟩, 3600, none, none⟩
  blocks := [⟨.hopCount ⟨5, 1⟩, 2, .empty, .noCRC⟩, ⟨.payload ⟨List.replicate 200 0⟩, 1, .empty, .noCRC⟩]

/-- What `ipn:1.0` does when `ipn:2.0`, which takes bundles of this size, is connected and `hopping` is received. -/
def hoppingEvents (maxSize : Option UInt64) : List NodeEvent :=
  [.storage, .connect 7, .notify (.eventPeerConnected (.ipn ⟨2, 0⟩) 7), .protocol [] ⟨0⟩,
    .notify (.eventRoutingTableUpdate ⟨[(.ipn ⟨2, 0⟩, ⟨.ipn ⟨2, 0⟩, maxSize⟩)]⟩), .protocol [] ⟨0⟩,
    .submit (.storeReceivedBundle (encoded hopping)), .storage, .protocol [] ⟨0⟩, .storage, .protocol [] ⟨0⟩,
    .storage, .protocol [true] ⟨0⟩]

/-- The session has the bundle, which was received with one hop and has two now. -/
theorem hops_counted_hopping :
    ∃ s, (tracedNode .plain (.ipn ⟨1, 0⟩) [] []).Reaches (KeepsHops (.ipn ⟨1, 0⟩)) s ∧
      ∃ a session r, (a, session) ∈ s.1.sessions.entries ∧ r ∈ session.refs ∧ s.2 r.primaryBlock = some hopping ∧
        CountedIn hopping ⟨5, 1⟩ r.bundleData.bytes := by
  have hinit : (tracedNode .plain (.ipn ⟨1, 0⟩) [] []).init (emptyNode, fun _ => none) := ⟨start_emptyNode, rfl⟩
  obtain ⟨s, hreaches, ⟨a, session⟩, hsession, r, hr, harrival⟩ := (System.Reaches.init hinit).foldlM_any
    (f := Node.loggedNext .plain (KeepsHops (.ipn ⟨1, 0⟩)) fun s e _ => s.1.arrivals .plain e s.2)
    (fun _ _ _ => Node.loggedNext_eq_some) (hoppingEvents none)
    (fun s => ∃ x ∈ s.1.sessions.entries, ∃ r ∈ x.2.refs, s.2 r.primaryBlock = some hopping) (by decide +kernel)
  have hcounted := hops_counted hreaches (fun ⟨_, hf, _⟩ => by cases hf) (x := ⟨5, 1⟩) (b := hopping) rfl (by decide)
  exact ⟨s, hreaches, a, session, r, hsession, hr, harrival, (hcounted.1 a session r hsession hr).2 harrival⟩

/-- If `ipn:2.0` takes 280 bytes only, the bundle is fragmented, and a fragment with three hops is given to the
session. -/
theorem hops_counted_twice :
    ∃ n, emptyNode.run .plain (fun _ _ => True) (hoppingEvents (some 280) ++
        [.storage, .protocol [] ⟨0⟩, .storage, .protocol [] ⟨0⟩, .protocol [] ⟨0⟩, .protocol [true] ⟨0⟩]) = some n ∧
      ∃ a session r f, (a, session) ∈ n.sessions.entries ∧ r ∈ session.refs ∧
        tryFrom .plain r.bundleData.bytes = .ok f ∧ f.primaryBlock.fragmentOffset = some 0 ∧
        f.primaryBlock.sourceNode = hopping.primaryBlock.sourceNode ∧
        f.primaryBlock.creationTimestamp = hopping.primaryBlock.creationTimestamp ∧
        hopping.hopCounts = [⟨5, 1⟩] ∧ f.hopCounts = [⟨5, 3⟩] := by
  have hrun : (emptyNode.run .plain (fun _ _ => True) (hoppingEvents (some 280) ++
        [.storage, .protocol [] ⟨0⟩, .storage, .protocol [] ⟨0⟩, .protocol [] ⟨0⟩, .protocol [true] ⟨0⟩])).any (fun n =>
      n.sessions.entries.any fun x => x.2.refs.any fun r =>
        (tryFrom .plain r.bundleData.bytes).toOption.any fun f =>
          f.primaryBlock.fragmentOffset = some 0 ∧ f.primaryBlock.sourceNode = hopping.primaryBlock.sourceNode ∧
          f.primaryBlock.creationTimestamp = hopping.primaryBlock.creationTimestamp ∧
          f.hopCounts = [⟨5, 3⟩]) = true := by
    decide +kernel
  obtain ⟨n, hn, h⟩ := (Option.any_eq_true _ _).mp hrun
  obtain ⟨⟨a, session⟩, hsession, h⟩ := List.any_eq_true.mp h
  obtain ⟨r, hr, h⟩ := List.any_eq_true.mp h
  obtain ⟨f, hf, h⟩ := (Option.any_eq_true _ _).mp h
  obtain ⟨hoffset, hsource, htime, hhops⟩ := of_decide_eq_true h
  exact ⟨n, hn, a, session, r, f, hsession, hr, Outcome.toOption_eq_some.mp hf, hoffset, hsource, htime, rfl, hhops⟩

end Dtn.Dtrd
