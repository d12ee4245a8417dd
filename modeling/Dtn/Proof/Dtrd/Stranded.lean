import Dtn.Proof.Dtrd.Process
import Dtn.Proof.Dtrd.Queues
import Dtn.Proof.Dtrd.Retries

/-!
# Bundles that wait while their next hop has nothing to do

The protocol agent tries the queue of a node again when a message about this
node comes. A mailbox belongs to a next hop, though, and that may be the next
hop of many nodes. As long as every queue from which something could be sent is
`Attended`, because a message about its node or a bundle for it is on its way,
no bundle is left behind (`never_stranded`). The handlers keep it that way where
`Attentive` says so; a peer that connects after the routes over it are known does
not (`stranded_behind_peer`).
-/

namespace Dtn.Dtrd

open List Option Dtn.Bp7 Protocol Table

variable {S : Serde} {endpoint : Endpoint} {found files : List (String × List UInt8)}

namespace Node

/-- The agent runs, and its session takes bundles. -/
def Usable (n : Node) (a : Nat) : Prop := n.sessionStatus a = some (true, true)

instance (n : Node) (a : Nat) : Decidable (n.Usable a) := inferInstanceAs (Decidable (_ = _))

/-- The agent or its session has a bundle for the node. -/
def Holds (n : Node) (node : Endpoint) (a : Nat) : Prop :=
  ∃ s ∈ n.sessions.get a, ∃ r ∈ s.mailbox ++ s.transfers,
    r.primaryBlock.destinationEndpoint.getNodeEndpoint = (.ok node : Outcome Empty Endpoint)

instance (n : Node) (node : Endpoint) (a : Nat) : Decidable (n.Holds node a) :=
  inferInstanceAs (Decidable (∃ s ∈ n.sessions.get a, ∃ r ∈ s.mailbox ++ s.transfers,
    r.primaryBlock.destinationEndpoint.getNodeEndpoint = (.ok node : Outcome Empty Endpoint)))

/-- One of these messages is about the node, or there will be one when the agent is done with a bundle for it. -/
def Attended (n : Node) (box : List Message) (node : Endpoint) (a : Nat) : Prop :=
  (∃ m ∈ box, Concerns m.affects node) ∨ n.Holds node a

instance (n : Node) (box : List Message) (node : Endpoint) (a : Nat) : Decidable (n.Attended box node a) :=
  inferInstanceAs (Decidable (_ ∨ _))

/-- What waits for an agent when the message is taken has waited before and the message is not about it, or it is
attended to by others, or it is tried now: no two bundles in the queue have the same id, and the mailboxes have room. -/
def Heeds (n : Node) (accepts : List Bool) (m : Message) (box : List Message) : Prop :=
  ∀ node ∈ (m.taken n.protocol).remoteBundles.keys, ∀ next ∈ Context.nextHop (m.taken n.protocol) node,
    (m.taken n.protocol).Waits node next.1 → n.Usable next.1 →
      (n.protocol.Waits node next.1 ∧ ¬ Concerns m.affects node) ∨ n.Attended box node next.1 ∨
        Concerns m.retries node ∧ (((m.taken n.protocol).remoteBundles.list node).map StoredBundleRef.getId).Nodup ∧
          m.Answered accepts (m.taken n.protocol)

instance (n : Node) (accepts : List Bool) (m : Message) (box : List Message) : Decidable (n.Heeds accepts m box) :=
  inferInstanceAs (Decidable (∀ node ∈ (m.taken n.protocol).remoteBundles.keys,
    ∀ next ∈ Context.nextHop (m.taken n.protocol) node, _ → _ → _))

/-- The protocol agent handles a message that leaves no queue unattended, and the data of what a session agent takes is
there. -/
def Attentive (n : Node) : NodeEvent → Prop
  | .take a => ∀ s ∈ n.sessions.get a, ∀ r ∈ s.mailbox.head?, n.live r.bundleData.address = true
  | .protocol accepts _ => ∀ m ∈ n.protocolBox.head?, n.Heeds accepts m n.protocolBox.tail
  | _ => True

instance (n : Node) (e : NodeEvent) : Decidable (n.Attentive e) := by
  unfold Attentive
  split <;> infer_instance

/-- No message is on its way, and a bundle waits for a node although the agent of the next hop has nothing to do. -/
def Stranded (n : Node) : Prop :=
  n.storeBox = [] ∧ n.protocolBox = [] ∧ ∃ node a s, n.protocol.Waits node a ∧ n.sessions.get a = some s ∧
    s.running = true ∧ s.connected = true ∧ s.mailbox = [] ∧ s.transfers = []

/-- Where something could be sent, someone attends to it. -/
def Minded (n : Node) : Prop :=
  ∀ node a, n.protocol.Waits node a → n.Usable a → n.Attended n.protocolBox node a

variable {n n' : Node} {e : NodeEvent} {box : List Message} {node : Endpoint} {a : Nat} {s s' : Session}

lemma Minded.not_stranded (h : n.Minded) : ¬ n.Stranded := by
  rintro ⟨-, hbox, node, a, _, hwaits, hs, hrunning, hconnected, _, _⟩
  have husable : n.Usable a := by rw [Usable, sessionStatus, hs, map_some, hconnected, hrunning]
  rcases h node a hwaits husable with ⟨_, hm, -⟩ | ⟨_, _, _, _, -⟩
  · rw [hbox] at hm
    cases hm
  · grind

/-! ## Steps of the others -/

lemma Minded.of_sessions (h : n.Minded) (hprotocol : n'.protocol = n.protocol) (hbox : n.protocolBox ⊆ n'.protocolBox)
    (hsessions : n'.sessions = n.sessions) : n'.Minded := by
  intro node a hwaits husable
  rw [hprotocol] at hwaits
  rw [Usable, sessionStatus, hsessions] at husable
  rcases h node a hwaits husable with ⟨m, hm, hnode⟩ | hholds
  · exact .inl ⟨m, hbox hm, hnode⟩
  · exact .inr (by rw [Holds, hsessions]; exact hholds)

/-- One session changes. While it can be used its bundles stay, or a message about them is on its way. -/
lemma Minded.session (h : n.Minded) (hs : n.sessions.get a = some s) (hprotocol : n'.protocol = n.protocol)
    (hbox : n.protocolBox ⊆ n'.protocolBox) (hsessions : n'.sessions = n.sessions.insert a s')
    (hkeeps : s'.connected = true → s'.running = true → (s.connected = true ∧ s.running = true) ∧
      ∀ r ∈ s.mailbox ++ s.transfers, r ∈ s'.mailbox ++ s'.transfers ∨
        ∃ m ∈ n'.protocolBox, m.affects = [r.primaryBlock.destinationEndpoint]) : n'.Minded := by
  intro node b hwaits husable
  rw [hprotocol] at hwaits
  rw [Usable, sessionStatus, hsessions, get_insert] at husable
  by_cases hab : a = b
  · subst hab
    rw [if_pos rfl, map_some, some_inj, Prod.mk.injEq] at husable
    obtain ⟨⟨hconnected, hrunning⟩, hrefs⟩ := hkeeps husable.1 husable.2
    rcases h node a hwaits (by rw [Usable, sessionStatus, hs, map_some, hconnected, hrunning]) with
      ⟨m, hm, hnode⟩ | ⟨s1, hs1, r, hr, hnode⟩
    · exact .inl ⟨m, hbox hm, hnode⟩
    · cases hs.symm.trans hs1
      rcases hrefs r hr with hr' | ⟨m, hm, haffects⟩
      · exact .inr ⟨s', by rw [hsessions]; exact get_insert_self .., r, hr', hnode⟩
      · exact .inl ⟨m, hm, _, by rw [haffects]; exact mem_singleton_self _, hnode⟩
  · rw [if_neg hab] at husable
    rcases h node b hwaits husable with ⟨m, hm, hnode⟩ | ⟨s1, hs1, hholds⟩
    · exact .inl ⟨m, hbox hm, hnode⟩
    · exact .inr ⟨s1, by rw [hsessions]; exact (get_insert ..).trans ((if_neg hab).trans hs1), hholds⟩

/-- The protocol agent does not know a session before it is there. -/
lemma Minded.connect (h : n.Minded) (hn : n.Knows endpoint) (hs : n.sessions.get a = none) :
    (n.withSession a ⟨true, [], true, []⟩).Minded := by
  intro node b hwaits husable
  by_cases hab : a = b
  · subst hab
    obtain ⟨⟨_, _⟩, hnext, rfl, -⟩ := hwaits
    obtain ⟨_, -, hsender⟩ := nextHop_eq_some hnext
    have hknown : (n.sessions.get _).isSome = true := hn.context.agents _ _ hsender
    rw [hs] at hknown
    cases hknown
  · rw [Usable, sessionStatus_withSession, if_neg hab] at husable
    rcases h node b hwaits husable with hm | ⟨s1, hs1, hholds⟩
    · exact .inl hm
    · exact .inr ⟨s1, (get_insert ..).trans ((if_neg hab).trans hs1), hholds⟩

/-! ## Steps of the protocol agent -/

lemma foldl_deliver_session (commands : List Protocol.Command) (hs : n.sessions.get a = some s) :
    ∃ rs, (commands.foldl deliver n).sessions.get a = some { s with mailbox := s.mailbox ++ rs } ∧
      ∀ r, .agentForwardBundle a r ∈ commands → r ∈ rs := by
  induction commands generalizing n s with
  | nil => exact ⟨[], by rw [append_nil]; exact hs, fun r hr => by cases hr⟩
  | cons command commands ih =>
    have hsame (hs' : (n.deliver command).sessions.get a = some s) (hne : ∀ r, command ≠ .agentForwardBundle a r) :
        ∃ rs, ((command :: commands).foldl deliver n).sessions.get a = some { s with mailbox := s.mailbox ++ rs } ∧
          ∀ r, .agentForwardBundle a r ∈ command :: commands → r ∈ rs := by grind
    cases command with
    | storage => exact hsame hs fun _ => nofun
    | clientDeliverBundle =>
      refine hsame ?_ fun _ => nofun
      rw [deliver]
      split <;> exact hs
    | agentForwardBundle b r =>
      by_cases hab : b = a
      · subst hab
        have hget : (n.deliver (.agentForwardBundle b r)).sessions.get b =
            some { s with mailbox := s.mailbox ++ [r] } := by
          rw [deliver, hs]
          exact get_insert_self ..
        obtain ⟨rs, hget', hrs⟩ := ih hget
        refine ⟨r :: rs, by rw [append_assoc] at hget'; exact hget', fun r' hr' => ?_⟩
        rcases mem_cons.mp hr' with hr' | hr'
        · cases hr'
          exact mem_cons_self
        · exact mem_cons_of_mem _ (hrs r' hr')
      · refine hsame ?_ fun r' h => hab (by cases h; rfl)
        rw [deliver]
        split
        · exact (get_insert ..).trans ((if_neg hab).trans hs)
        · exact hs

lemma Usable.session (h : n.Usable a) : ∃ s, n.sessions.get a = some s ∧ n.running a = true := by
  obtain ⟨s, hs, -⟩ := map_eq_some_iff.mp h
  refine ⟨s, hs, ?_⟩
  rw [running_eq, h]
  rfl

lemma Holds.foldl_deliver (h : n.Holds node a) (commands : List Protocol.Command) :
    (commands.foldl deliver n).Holds node a := by
  obtain ⟨_, hs, r, hr, hnode⟩ := h
  obtain ⟨_, hget, -⟩ := foldl_deliver_session commands hs
  refine ⟨_, hget, r, ?_, hnode⟩
  rcases mem_append.mp hr with hr | hr
  · exact mem_append_left _ (mem_append_left _ hr)
  · exact mem_append_right _ hr

lemma holds_of_gives (h : Gives commands node a) (husable : n.Usable a) :
    (commands.foldl deliver n).Holds node a := by
  obtain ⟨r, hr, hnode⟩ := h
  obtain ⟨_, hs, -⟩ := husable.session
  obtain ⟨_, hget, hrs⟩ := foldl_deliver_session commands hs
  exact ⟨_, hget, r, mem_append_left _ (mem_append_right _ (hrs r hr)), hnode⟩

lemma Sound.sorted (hn : n.Sound S endpoint) : n.protocol.Sorted := by
  intro k r hr
  obtain ⟨_, hqueue, hr⟩ := exists_of_mem_list hr
  exact (hn.items _ (mem_items_queued (mem_items_remote hqueue hr))).forNode.destination

/-- A message is handled that leaves nothing unattended. -/
lemma Minded.protocol (h : n.Minded) (hn : n.Sound S endpoint) (hbox : n.protocolBox = m :: box)
    (hhandle : n.protocol.handle S (n.world now) accepts m = .ok (d, commands)) (ha : n.Heeds accepts m box) :
    (commands.foldl deliver { n with protocol := d, protocolBox := box }).Minded := by
  obtain ⟨c, hc, hcd⟩ := Outcome.bind_eq_ok.mp hhandle
  cases hcd
  intro node a hwaits husable
  obtain ⟨_, _, _, heq⟩ := foldl_deliver_eq { n with protocol := c.daemon, protocolBox := box }
    c.sent
  have hprotocol : (c.sent.foldl deliver { n with protocol := c.daemon, protocolBox := box }).protocol = c.daemon := by
    rw [heq]
  have hbox' : (c.sent.foldl deliver { n with protocol := c.daemon, protocolBox := box }).protocolBox = box := by
    rw [heq]
  rw [Usable, (status_foldl_deliver ..).1] at husable
  replace husable : n.Usable a := husable
  rw [hprotocol] at hwaits
  rw [Attended, hbox']
  have hattended (h : n.Attended box node a) : (∃ m ∈ box, Concerns m.affects node) ∨
      (c.sent.foldl deliver { n with protocol := c.daemon, protocolBox := box }).Holds node a :=
    h.imp_right fun hholds => Holds.foldl_deliver hholds _
  have htaken := handle_waits hc hwaits
  obtain ⟨next, hnext, hagent, _, hr, -⟩ := id htaken
  obtain ⟨queue, hqueue, -⟩ := exists_of_mem_list hr
  have hkey : node ∈ (m.taken n.protocol).remoteBundles.keys := List.mem_map_of_mem (mem_of_get hqueue)
  subst hagent
  rcases ha node hkey next hnext htaken husable with ⟨hbefore, _⟩ | hothers | ⟨hretries, hids, hroom⟩
  · -- the queue is attended to as before, and not by this message
    rcases h node next.1 hbefore husable with ⟨_, _, _⟩ | hholds
    · grind
    · exact hattended (.inr hholds)
  · exact hattended hothers
  · obtain ⟨-, -, hrunning⟩ := husable.session
    exact .inr (holds_of_gives (handle_gives hc hn.sorted hretries hids hroom hrunning hwaits) husable)

lemma Minded.step (h : n.Minded) (hn : n.Sound S endpoint) (hstep : Step S n e n') (ha : n.Attentive e) :
    n'.Minded := by
  cases hstep with
  | idle => exact h
  | submit | release | pass | readDead | hangUp | stopListener => exact h.of_sessions rfl (List.Subset.refl _) rfl
  | notify | listen | passClosed | read | start | storage =>
    exact h.of_sessions rfl (subset_append_left ..) rfl
  | connect hs => exact h.connect hn.knows hs
  | @protocol m _ _ _ _ _ hbox hhandle =>
    refine h.protocol hn hbox hhandle ?_
    rw [Attentive, hbox] at ha
    exact ha m rfl
  | take hs hbox hconnected =>
    refine h.session hs rfl (List.Subset.refl _) rfl fun _ hrunning => ⟨⟨hconnected, hrunning⟩, fun r hr => .inl ?_⟩
    rw [hbox] at hr
    simp only [mem_append, mem_cons, not_mem_nil, or_false] at hr ⊢
    tauto
  | @takeDead _ s r _ hs hbox hdead =>
    have hlive := ha s hs r (by rw [hbox]; rfl)
    rw [hdead] at hlive
    cases hlive
  | takeClosed hs | stopAgent hs => exact h.session hs rfl (List.Subset.refl _) rfl fun _ => nofun
  | disconnect hs => exact h.session hs rfl (List.Subset.refl _) rfl nofun
  | @sent a s r hs hr | @failed a s r hs hr =>
    refine h.session hs rfl (subset_append_left ..) rfl fun hconnected hrunning =>
      ⟨⟨hconnected, hrunning⟩, fun r' hr' => ?_⟩
    by_cases hne : r' = r
    · subst hne
      exact .inr ⟨_, mem_append_right _ mem_cons_self, rfl⟩
    · grind

lemma start_minded (h : Node.start S endpoint found files = .ok n) : n.Minded := by
  obtain ⟨_, -, rfl⟩ := start_eq_ok h
  rintro node a ⟨next, hnext, -⟩
  cases hnext

end Node

open Node

/-- In a run all of whose steps are attentive no bundle is left behind. -/
theorem never_stranded {n : Node} (h : (node S endpoint found files).Reaches Attentive n) : ¬ n.Stranded := by
  refine Minded.not_stranded (h.invariant (fun n => n.Kept S endpoint files ∧ n.Minded)
    (fun n h => ⟨start_kept h, start_minded h⟩) fun n e n' hn ha h => ?_).2
  obtain ⟨hkept, hminded⟩ := hn
  have hstep := next_step h.2
  exact ⟨hstep.kept h.1 hkept, hminded.step hkept.sound hstep ha⟩

/-- A bundle from `ipn:4.0` to this node. -/
def errand (destination : UInt64) (sequenceNumber : UInt64) : Bundle where
  primaryBlock := ⟨7, ⟨0⟩, .noCRC, .ipn ⟨destination, 5⟩, .ipn ⟨4, 0⟩, .ipn ⟨4, 0⟩, ⟨⟨1000⟩, sequenceNumber⟩,
    3600, none, none⟩
  blocks := [⟨.payload ⟨[1, 2, 3]⟩, 1, .empty, .noCRC⟩]

/-- The bundle arrives at `ipn:1.0` and is queued, with these answers of the mailboxes. -/
def errandEvents (b : Bundle) (accepts : List Bool) : List NodeEvent :=
  [.submit (.storeReceivedBundle (Storage.encoded b)), .storage, .protocol [] ⟨0⟩, .storage, .protocol [] ⟨0⟩,
    .storage, .protocol accepts ⟨0⟩]

/-- `ipn:1.0` reaches `ipn:2.0` directly, and `ipn:3.0` over it. -/
def overTwo : Protocol.Message :=
  .eventRoutingTableUpdate ⟨[(.ipn ⟨2, 0⟩, ⟨.ipn ⟨2, 0⟩, none⟩), (.ipn ⟨3, 0⟩, ⟨.ipn ⟨2, 0⟩, none⟩)]⟩

/-- The mailbox takes only one of two bundles for `ipn:3.0`. -/
def errandsEvents : List NodeEvent :=
  [NodeEvent.storage, .connect 7, .notify (.eventPeerConnected (.ipn ⟨2, 0⟩) 7), .protocol [] ⟨0⟩, .notify overTwo,
    .protocol [] ⟨0⟩] ++ errandEvents (errand 3 1) [true] ++ errandEvents (errand 3 2) [false] ++ [.take 7]

/-- The second bundle waits until the session is done with the first. -/
theorem never_stranded_errands : ∃ n, (node .plain (.ipn ⟨1, 0⟩) [] []).Reaches Attentive n ∧
    n.storeBox = [] ∧ n.protocolBox = [] ∧ n.protocol.Waits (.ipn ⟨3, 0⟩) 7 ∧ n.Usable 7 ∧ ¬ n.Stranded := by
  obtain ⟨n, hreaches, hstore, hbox, hwaits, husable⟩ := reaches_any Attentive errandsEvents
    (fun n => n.storeBox = [] ∧ n.protocolBox = [] ∧ n.protocol.Waits (.ipn ⟨3, 0⟩) 7 ∧ n.Usable 7)
    (by decide +kernel)
  exact ⟨n, hreaches, hstore, hbox, hwaits, husable, never_stranded hreaches⟩

/-- The routes are known when the peer connects. Then only the queue of the peer itself is tried. -/
def strandedEvents : List NodeEvent :=
  [NodeEvent.storage, .connect 7, .notify overTwo, .protocol [] ⟨0⟩] ++ errandEvents (errand 3 1) [] ++
    [.notify (.eventPeerConnected (.ipn ⟨2, 0⟩) 7), .protocol [true] ⟨0⟩]

theorem stranded_behind_peer : ∃ n, (node .plain (.ipn ⟨1, 0⟩) [] []).Reaches (fun _ _ => True) n ∧
    n.protocol.bundlesPendingForwarding = .empty ∧ n.Stranded := by
  obtain ⟨n, hreaches, hpending, hstore, hbox, hwaits, hs⟩ := reaches_any (fun _ _ => True) strandedEvents
    (fun n => n.protocol.bundlesPendingForwarding = .empty ∧ n.storeBox = [] ∧ n.protocolBox = [] ∧
      n.protocol.Waits (.ipn ⟨3, 0⟩) 7 ∧ n.sessions.get 7 = some ⟨true, [], true, []⟩) (by decide +kernel)
  exact ⟨n, hreaches, hpending, hstore, hbox, _, _, _, hwaits, hs, rfl, rfl, rfl, rfl⟩

end Dtn.Dtrd
