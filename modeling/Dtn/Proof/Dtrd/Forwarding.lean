import Dtn.Proof.Dtrd.Runs

/-!
# No bundle to be forwarded is lost

A bundle that is stored to be forwarded is queued, or in a message, or with a
session that will tell what became of it (`forwarding_kept`), as long as no
session ends while it holds bundles and no two stored bundles for other nodes
have the same primary block. A session that ends with a bundle drops it without
a word (`forwarding_lost`).
-/

namespace Dtn.Dtrd

open List Dtn.Bp7 Protocol

variable {S : Serde} {endpoint : Endpoint} {found files : List (String × List UInt8)}

def Session.refs (s : Session) : List StoredBundleRef := s.mailbox ++ s.transfers

instance (endpoint : Endpoint) : DecidablePred (IsRemote endpoint) := fun _ => inferInstanceAs (Decidable (_ = _))

namespace Node

variable {n n' : Node} {e : NodeEvent}
variable {r : StoredBundleRef}

/-! ## Pending bundles -/

/-- Some session agent or session has the reference. -/
def HeldBy (n : Node) (r : StoredBundleRef) : Prop := ∃ a s, (a, s) ∈ n.sessions.entries ∧ r ∈ s.refs

/-- What the sessions have is pending. -/
def Held (n : Node) : Prop := ∀ r, n.HeldBy r → ∃ k, r ∈ n.protocol.bundlesPendingForwarding.list k

lemma HeldBy.of_withSession (hs : n.sessions.get a = some s) (hrefs : s'.refs ⊆ s.refs)
    (h : (n.withSession a s').HeldBy r) : n.HeldBy r := by
  obtain ⟨a1, s1, hmem, hr⟩ := h
  rcases Table.mem_insert hmem with heq | hmem
  · cases heq
    exact ⟨a, s, Table.mem_of_get hs, hrefs hr⟩
  · exact ⟨a1, s1, hmem, hr⟩

lemma HeldBy.of_deliver (h : (n.deliver command).HeldBy r) : n.HeldBy r ∨ ∃ a, command = .agentForwardBundle a r := by
  cases command with
  | storage => exact .inl h
  | clientDeliverBundle =>
    rw [deliver] at h
    split at h <;> exact .inl h
  | agentForwardBundle a =>
    rw [deliver] at h
    split at h
    · rename_i s hs
      obtain ⟨a1, s1, hmem, hr⟩ := h
      rcases Table.mem_insert hmem with heq | hmem
      · cases heq
        rcases mem_append.mp hr with hr | hr
        · rcases mem_append.mp hr with hr | hr
          · exact .inl ⟨a, s, Table.mem_of_get hs, mem_append_left _ hr⟩
          · simp_all
        · exact .inl ⟨a, s, Table.mem_of_get hs, mem_append_right _ hr⟩
      · exact .inl ⟨a1, s1, hmem, hr⟩
    · exact .inl h

lemma HeldBy.of_foldl_deliver {commands : List Protocol.Command}
    (h : (commands.foldl deliver n).HeldBy r) : n.HeldBy r ∨ ∃ a, .agentForwardBundle a r ∈ commands := by
  induction commands generalizing n with
  | nil => exact .inl h
  | cons _ _ ih =>
    rcases ih h with h | ⟨a, ha⟩
    · rcases h.of_deliver with h | ⟨a, rfl⟩
      · exact .inl h
      · exact .inr ⟨a, mem_cons_self⟩
    · exact .inr ⟨a, mem_cons_of_mem _ ha⟩

/-- A message that settles a transfer is not about a bundle that a session has. -/
lemma settled_ne (hn : n.Sound S endpoint) (ho : n.Owned (IsRemote endpoint)) (hd : n.Distinct (IsRemote endpoint))
    (hbox : n.protocolBox = m :: box) (hheld : n.HeldBy r)
    (hsettled : m.settled = some r') : r.primaryBlock ≠ r'.primaryBlock := by
  have hm : m.items = {(.protocolBox m, r')} := by cases m <;> cases hsettled <;> rfl
  have hok : ItemOk S endpoint n.parties (.protocolBox m, r') :=
    hn.items _ (mem_items_front hbox (by rw [hm]; exact Multiset.mem_singleton_self _))
  have hremote : IsRemote endpoint r'.primaryBlock := by
    cases m <;> cases hsettled <;> exact hok.1.forwardingQueued hok.2.2.1
  obtain ⟨a, s, hmem, hr⟩ := hheld
  have hitems : n.items = {(.protocolBox m, r')} + ((box.map Message.items).sum + n.protocol.items +
      (n.storeBox.map Storage.Message.items).sum + n.sessions.gather Session.items +
      n.listeners.gather Listener.items) := by
    rw [items, hbox, map_cons, sum_cons, hm]
    abel
  obtain ⟨p, hp⟩ : ∃ p, (p, r) ∈ n.sessions.gather Session.items := by
    rcases mem_append.mp hr with hr | hr
    · exact ⟨.agentMailbox a, Table.mem_gather.mpr
        ⟨(a, s), hmem, Multiset.mem_add.mpr (.inl (mem_placed.mpr ⟨rfl, hr⟩))⟩⟩
    · exact ⟨.transfer a, Table.mem_gather.mpr ⟨(a, s), hmem, Multiset.mem_add.mpr (.inr (mem_placed.mpr ⟨rfl, hr⟩))⟩⟩
  exact (ho.ne hd hitems (j := (p, r)) (by simp [hp]) hremote).symm

lemma Step.held (h : Step S n e n') (hn : n.Sound S endpoint) (ho : n.Owned (IsRemote endpoint))
    (hd : n.Distinct (IsRemote endpoint)) (hh : n.Held) : n'.Held := by
  intro r hr
  cases h with
  | @protocol _ box _ _ d commands hbox h =>
    obtain ⟨hpending, hkept⟩ := handle_pending h
    obtain ⟨_, _, _, hn'⟩ := foldl_deliver_eq { n with protocol := d, protocolBox := box }
      commands
    have hprotocol : (commands.foldl deliver { n with protocol := d, protocolBox := box }).protocol = d := by rw [hn']
    rw [hprotocol]
    rcases hr.of_foldl_deliver with hr | ⟨a, ha⟩
    · obtain ⟨k, hk⟩ := hh r hr
      exact ⟨k, hkept k r hk fun r' hsettled => settled_ne hn ho hd hbox hr hsettled⟩
    · exact (hpending.forward a r ha).2
  | connect =>
    obtain ⟨a1, s1, hmem, hr⟩ := hr
    rcases Table.mem_insert hmem with heq | hmem
    · cases heq
      cases hr
    · exact hh r ⟨a1, s1, hmem, hr⟩
  | @take _ _ _ _ hs hbox =>
    refine hh r (hr.of_withSession hs fun r1 hr1 => ?_)
    simp only [Session.refs, hbox, mem_append, mem_cons, not_mem_nil, or_false] at hr1 ⊢
    grind
  | takeDead hs hbox =>
    refine hh r (hr.of_withSession hs fun r1 hr1 => ?_)
    rw [Session.refs, hbox]
    exact mem_cons_of_mem _ hr1
  | takeClosed hs | stopAgent hs =>
    refine hh r (hr.of_withSession hs fun r1 hr1 => ?_)
    exact mem_append_right _ hr1
  | sent hs | failed hs =>
    refine hh r (HeldBy.of_withSession hs (fun r1 hr1 => ?_) hr)
    exact (mem_append.mp hr1).elim (mem_append_left _) fun h => mem_append_right _
      (mem_of_mem_erase h)
  | disconnect hs =>
    refine hh r (hr.of_withSession hs fun r1 hr1 => ?_)
    exact mem_append_left _ (by simpa [Session.refs] using hr1)
  | _ => exact hh r hr

/-! ## Runs -/

/-- What the sessions must do: an agent takes a bundle only while its session
is there, and neither ends while it has one. -/
def sessionsKeep (n : Node) : NodeEvent → Bool
  | .take a => (n.sessions.get a).all (·.connected)
  | .disconnect a => (n.sessions.get a).all (·.transfers.isEmpty)
  | .stopAgent a => (n.sessions.get a).all (·.mailbox.isEmpty)
  | _ => true

/-- The condition on a state and the next event. -/
def KeepsForwarding (endpoint : Endpoint) (n : Node) (e : NodeEvent) : Prop :=
  n.sessionsKeep e = true ∧ n.Distinct (IsRemote endpoint)

instance (endpoint : Endpoint) (n : Node) (e : NodeEvent) : Decidable (KeepsForwarding endpoint n e) :=
  inferInstanceAs (Decidable (_ ∧ _))

/-- A bundle to be forwarded is queued for the node it goes to, or in a message
between the agents, or pending with a session that is connected. -/
inductive Forwarding (n : Node) (r : StoredBundleRef) : Prop
  | queued (hk : (k, queue) ∈ n.protocol.remoteBundles.entries)
    (hr : r ∈ queue) (hnode : r.primaryBlock.destinationEndpoint.getNodeEndpoint = (.ok k : Outcome Empty Endpoint))
  | toStorage (hm : m ∈ n.storeBox) (hr : m.bundleref = some r)
  | toProtocol (hm : m ∈ n.protocolBox) (hr : m.settled = some r)
  | toAgent (hs : (a, s) ∈ n.sessions.entries) (hrunning : s.running = true) (hr : r ∈ s.mailbox)
  | pending (hs : (a, s) ∈ n.sessions.entries) (hconnected : s.connected = true)
    (hr : r ∈ s.transfers) (hpending : r ∈ n.protocol.bundlesPendingForwarding.list k)

lemma not_lost (hn : n.Owned (IsRemote endpoint)) (ha : KeepsForwarding endpoint n e) (h : Loses n e i)
    (hi : ItemOk S endpoint n.parties i) (hmem : i.2 ∈ n.items.map Prod.snd) : ¬ IsRemote endpoint
    i.2.primaryBlock := by
  have hlocal (hst : i.2.state = .deliveryQueued) : ¬ IsRemote endpoint i.2.primaryBlock := fun hremote => by
    cases (hi.1.deliveryQueued hst).1.symm.trans hremote
  obtain ⟨_, -⟩ := ha
  cases h with
  | takeDead _ _ hdead =>
    intro hremote
    rw [hn.live hmem hremote] at hdead
    cases hdead
  | takeClosed | disconnect | stopAgent => grind [sessionsKeep]
  | passClosed | readDead | hangUp | stopListener => exact hlocal hi.2.1

lemma reaches_held (h : (node S endpoint found files).Reaches (KeepsForwarding endpoint) n)
    (hfound : ¬ Persists S (IsRemote endpoint) found) : n.Owned (IsRemote endpoint) ∧ n.Held := by
  have howned {n} (h : (node S endpoint found files).Reaches (KeepsForwarding endpoint) n) :
      n.Owned (IsRemote endpoint) :=
    reaches_owned h (fun _ => IsRemote.not_localFragment) hfound (fun _ _ ha => ha.2)
      fun _ _ _ ho ha hl hi hmem => not_lost ho ha hl hi hmem
  refine ⟨howned h, ?_⟩
  induction h with
  | init h =>
    obtain ⟨_, -, rfl⟩ := start_eq_ok h
    exact fun r ⟨a, s, hmem, _⟩ => by cases hmem
  | step hs ha h ih => exact (next_step h.2).held (reaches_kept hs).sound (howned hs) ha.2 ih

end Node

open Node

/-- If the storage agent that `main` starts found nothing for another node, no two stored bundles for other
nodes have the same primary block, and no session ends with bundles, then every
bundle that is stored to be forwarded, and whose announcement was handled, is on
its way. -/
theorem forwarding_kept {n : Node} (h : (node S endpoint found files).Reaches (KeepsForwarding endpoint) n)
    (hfound : ¬ Persists S (IsRemote endpoint) found) {y : StoredBundle} (hy : y ∈ n.store.bundles)
    (hst : y.state = .forwardingQueued) (hhandled : .eventBundleUpdated y.getRef ∉ n.protocolBox) :
    n.Forwarding y.getRef := by
  obtain ⟨ho, hh⟩ := reaches_held h hfound
  have hkept := reaches_kept h
  obtain ⟨p, hp⟩ := ho.item hy ((hkept.sound.entries y hy).forwardingQueued hst)
  have hlocated := located hp
  have hok : p.Ok S endpoint n.parties y.getRef := (hkept.sound.items _ hp).2
  have hqueued (h : y.getRef.state = .deliveryQueued) : False := by cases hst.symm.trans h
  cases p with
  | storeBox => exact .toStorage hlocated.1 hlocated.2
  | protocolBox m =>
    obtain ⟨hm, -⟩ := hlocated
    cases m with
    | eventBundleUpdated r =>
      have hr : r = y.getRef := hok
      exact absurd (hr ▸ hm) hhandled
    | eventBundleForwarded e r | eventBundleForwardingFailed e r =>
      exact .toProtocol hm (by rw [Message.settled, hok.1])
    | eventBundleDelivered e r | eventBundleDeliveryFailed e r => exact (hqueued hok.2.1).elim
    | _ => exact hok.elim
  | localQueue => exact (hqueued hok.1).elim
  | remoteQueue =>
    obtain ⟨queue, hk, hr⟩ := hlocated
    exact .queued hk hr hok.2
  | agentMailbox a =>
    obtain ⟨s, hs, hr⟩ := hlocated
    refine .toAgent hs (Bool.eq_true_of_not_eq_false fun hstopped => ?_) hr
    rw [(hkept.tidy.sessions a s hs).mailbox hstopped] at hr
    cases hr
  | transfer a =>
    obtain ⟨s, hs, hr⟩ := hlocated
    obtain ⟨k, hk⟩ := hh y.getRef ⟨a, s, hs, mem_append_right _ hr⟩
    refine .pending hs (Bool.eq_true_of_not_eq_false fun hclosed => ?_) hr hk
    rw [(hkept.tidy.sessions a s hs).transfers hclosed] at hr
    cases hr
  | clientMailbox a | channel a => exact (hqueued hok.1).elim

/-- Three bytes from `ipn:3.0` to `ipn:2.0`. -/
def transit : Bundle where
  primaryBlock := ⟨7, ⟨0⟩, .noCRC, .ipn ⟨2, 0⟩, .ipn ⟨3, 0⟩, .ipn ⟨3, 0⟩, ⟨⟨1000⟩, 1⟩, 3600, none, none⟩
  blocks := [⟨.payload ⟨[1, 2, 3]⟩, 1, .empty, .noCRC⟩]

/-- What `ipn:1.0` does when `ipn:2.0` connects and `transit` is received. -/
def transitEvents : List NodeEvent :=
  [.connect 7, .notify (.eventPeerConnected (.ipn ⟨2, 0⟩) 7), .protocol [] ⟨0⟩,
    .notify (.eventRoutingTableUpdate ⟨[(.ipn ⟨2, 0⟩, ⟨.ipn ⟨2, 0⟩, none⟩)]⟩), .protocol [] ⟨0⟩, .storage,
    .submit (.storeReceivedBundle (Storage.encoded transit)), .storage, .protocol [] ⟨0⟩, .storage, .protocol [] ⟨0⟩,
    .storage, .protocol [true] ⟨0⟩, .take 7]

/-- The session has the bundle. -/
theorem forwarding_kept_transit :
    ∃ n, (node .plain (.ipn ⟨1, 0⟩) [] []).Reaches (KeepsForwarding (.ipn ⟨1, 0⟩)) n ∧
      ∃ y ∈ n.store.bundles, y.state = .forwardingQueued ∧ n.Forwarding y.getRef := by
  obtain ⟨n, hreaches, y, hy, hst, hhandled⟩ := reaches_any (KeepsForwarding (.ipn ⟨1, 0⟩)) transitEvents
    (fun n => ∃ y ∈ n.store.bundles, y.state = .forwardingQueued ∧ .eventBundleUpdated y.getRef ∉ n.protocolBox)
    (by decide +kernel)
  exact ⟨n, hreaches, y, hy, hst, forwarding_kept hreaches (fun ⟨_, hf, _⟩ => by cases hf) hy hst hhandled⟩

/-- The session ends while it has the bundle: the bundle is stored to be forwarded, but nobody has a reference to it. -/
theorem forwarding_lost :
    ∃ n, (node .plain (.ipn ⟨1, 0⟩) [] []).Reaches (fun _ _ => True) n ∧ ∃ y ∈ n.store.bundles,
      y.state = .forwardingQueued ∧ .eventBundleUpdated y.getRef ∉ n.protocolBox ∧ ¬ n.Forwarding y.getRef := by
  obtain ⟨n, hreaches, hstore, hprotocol, hqueues, hsessions, y, hy, hst⟩ := reaches_any (fun _ _ => True)
    (transitEvents ++ [.disconnect 7]) (fun n => n.storeBox = [] ∧ n.protocolBox = [] ∧
      (∀ x ∈ n.protocol.remoteBundles.entries, x.2 = []) ∧ (∀ x ∈ n.sessions.entries, x.2.refs = []) ∧
      ∃ y ∈ n.store.bundles, y.state = .forwardingQueued) (by decide +kernel)
  refine ⟨n, hreaches, y, hy, hst, by rw [hprotocol]; exact nofun, fun hforwarding => ?_⟩
  have hnone {s : Session} {a : Nat} (hs : (a, s) ∈ n.sessions.entries) (hr : y.getRef ∈ s.refs) : False := by grind
  cases hforwarding with
  | queued => grind
  | toStorage hm =>
    rw [hstore] at hm
    cases hm
  | toProtocol hm =>
    rw [hprotocol] at hm
    cases hm
  | toAgent hs _ hr => exact hnone hs (mem_append_left _ hr)
  | pending hs _ hr => exact hnone hs (mem_append_right _ hr)

end Dtn.Dtrd
