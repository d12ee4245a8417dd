import Dtn.Impl.Dtrd.Node
import Dtn.Proof.Dtrd.Entries
import Dtn.Proof.Dtrd.Ledger

/-!
# The references of a node

`Step` says what each event does. `Node.items` has every reference of a node in
its place, and `Step.shifts` says what an event outside the storage agent does
to the references: they are passed on, or lost in one of the ways of `Loses`.
-/

namespace Dtn.Dtrd

open List Outcome Option Multiset Dtn.Bp7 Protocol

def Session.items (agent : Nat) (s : Session) : Multiset Item :=
  placed (.agentMailbox agent) s.mailbox + placed (.transfer agent) s.transfers

def Listener.items (client : Nat) (l : Listener) : Multiset Item :=
  placed (.clientMailbox client) l.mailbox + placed (.channel client) l.channel

namespace Node

/-! ## Events -/

/-- What an event does. -/
inductive Step (S : Serde) (n : Node) : NodeEvent → Node → Prop
  | idle : Step S n e n
  | submit (h : maySubmit m = true) : Step S n (.submit m) { n with storeBox := n.storeBox ++ [m] }
  | notify (h : n.mayNotify m = true) : Step S n (.notify m) (n.tell m)
  | connect (hs : n.sessions.get a = none) (hl : n.listeners.get a = none) :
    Step S n (.connect a) (n.withSession a ⟨true, [], true, []⟩)
  | listen (hs : n.sessions.get a = none) (hl : n.listeners.get a = none) :
    Step S n (.listen a k) ((n.withListener a ⟨k, true, [], true, []⟩).tell (.eventClientConnected k a))
  | start (hfiles : n.persisted = some files) (h : Storage.Daemon.started S n.store.endpoint files = .ok (d, es)) :
    Step S n .storage { n with
      store := { d with nextAddress := d.nextAddress + n.store.nextAddress }
      protocolBox := n.protocolBox ++ es.filterMap Storage.Effect.message
      persisted := none }
  | storage (hstarted : n.persisted = none) (hbox : n.storeBox = m :: box) (h : n.store.handle S m = .ok (d, es)) :
    Step S n .storage { n with
      store := d, storeBox := box, protocolBox := n.protocolBox ++ es.filterMap Storage.Effect.message }
  | release : Step S n .release { n with unregistered := [] }
  | protocol (hbox : n.protocolBox = m :: box)
    (h : n.protocol.handle S (n.world now) accepts m = .ok (d, commands)) :
    Step S n (.protocol accepts now) (commands.foldl deliver { n with protocol := d, protocolBox := box })
  | take (hs : n.sessions.get a = some s) (hbox : s.mailbox = r :: rest) (hconnected : s.connected = true) :
    Step S n (.take a) (n.withSession a { s with mailbox := rest, transfers := s.transfers ++ [r] })
  | takeDead (hs : n.sessions.get a = some s) (hbox : s.mailbox = r :: rest)
    (hdead : n.live r.bundleData.address = false) : Step S n (.take a) (n.withSession a { s with mailbox := rest })
  | takeClosed (hs : n.sessions.get a = some s) (hne : s.mailbox ≠ []) (hclosed : s.connected = false) :
    Step S n (.take a) (n.withSession a { s with running := false, mailbox := [] })
  | sent (hs : n.sessions.get a = some s) (hr : r ∈ s.transfers) :
    Step S n (.sent a r) (n.result a s r (.eventBundleForwarded r.primaryBlock.destinationEndpoint r))
  | failed (hs : n.sessions.get a = some s) (hr : r ∈ s.transfers) :
    Step S n (.failed a r) (n.result a s r (.eventBundleForwardingFailed r.primaryBlock.destinationEndpoint r))
  | disconnect (hs : n.sessions.get a = some s) :
    Step S n (.disconnect a) (n.withSession a { s with connected := false, transfers := [] })
  | stopAgent (hs : n.sessions.get a = some s) :
    Step S n (.stopAgent a) (n.withSession a { s with running := false, mailbox := [] })
  | pass (hl : n.listeners.get a = some l) (hbox : l.mailbox = r :: rest) (hlistening : l.listening = true) :
    Step S n (.pass a) (n.withListener a { l with mailbox := rest, channel := l.channel ++ [r] })
  | passClosed (hl : n.listeners.get a = some l) (hbox : l.mailbox = r :: rest) (hclosed : l.listening = false) :
    Step S n (.pass a) ((n.withListener a { l with running := false, mailbox := [] }).tell
      (.eventBundleDeliveryFailed l.endpoint r))
  | read (hl : n.listeners.get a = some l) (hchannel : l.channel = r :: rest) :
    Step S n (.read a) ((n.withListener a { l with channel := rest }).tell
      (.eventBundleDelivered r.primaryBlock.destinationEndpoint r))
  | readDead (hl : n.listeners.get a = some l) (hchannel : l.channel = r :: rest)
    (hdead : n.live r.bundleData.address = false) : Step S n (.read a) (n.withListener a { l with channel := rest })
  | hangUp (hl : n.listeners.get a = some l) :
    Step S n (.hangUp a) (n.withListener a { l with listening := false, channel := [] })
  | stopListener (hl : n.listeners.get a = some l) :
    Step S n (.stopListener a) (n.withListener a { l with running := false, mailbox := [] })

/-- The references that an event loses. -/
inductive Loses (n : Node) : NodeEvent → Item → Prop
  | takeDead (hs : n.sessions.get a = some s) (hbox : s.mailbox = r :: rest)
    (hdead : n.live r.bundleData.address = false) : Loses n (.take a) (.agentMailbox a, r)
  | takeClosed (hs : n.sessions.get a = some s) (hr : r ∈ s.mailbox) (hclosed : s.connected = false) :
    Loses n (.take a) (.agentMailbox a, r)
  | disconnect (hs : n.sessions.get a = some s) (hr : r ∈ s.transfers) : Loses n (.disconnect a) (.transfer a, r)
  | stopAgent (hs : n.sessions.get a = some s) (hr : r ∈ s.mailbox) : Loses n (.stopAgent a) (.agentMailbox a, r)
  | passClosed (hl : n.listeners.get a = some l) (hbox : l.mailbox = r0 :: rest) (hclosed : l.listening = false)
    (hr : r ∈ rest) : Loses n (.pass a) (.clientMailbox a, r)
  | readDead (hl : n.listeners.get a = some l) (hchannel : l.channel = r :: rest)
    (hdead : n.live r.bundleData.address = false) : Loses n (.read a) (.channel a, r)
  | hangUp (hl : n.listeners.get a = some l) (hr : r ∈ l.channel) : Loses n (.hangUp a) (.channel a, r)
  | stopListener (hl : n.listeners.get a = some l) (hr : r ∈ l.mailbox) :
    Loses n (.stopListener a) (.clientMailbox a, r)

variable {S : Serde} {n n' : Node} {r : StoredBundleRef}

lemma getBundleData_eq_none {live : Nat → Bool} (h : (r.getBundleData live).isNone = true) :
    live r.bundleData.address = false := by grind [StoredBundleRef.getBundleData]

lemma take_step (hs : n.sessions.get a = some s) : Step S n (.take a) (n.take a s) := by
  unfold take
  split
  · exact .idle
  · rename_i r rest hbox
    split
    · exact .takeDead hs hbox (getBundleData_eq_none ‹_›)
    · split
      · exact .take hs hbox ‹_›
      · exact .takeClosed hs (by rw [hbox]; exact nofun) (Bool.eq_false_of_not_eq_true ‹_›)

lemma pass_step (hl : n.listeners.get a = some l) : Step S n (.pass a) (n.pass a l) := by
  unfold pass
  split
  · exact .idle
  · split
    · split
      · exact .pass hl ‹_› ‹_›
      · exact .idle
    · exact .passClosed hl ‹_› (Bool.eq_false_of_not_eq_true ‹_›)

lemma read_step (hl : n.listeners.get a = some l) (h : n.read S a l = .ok n') : Step S n (.read a) n' := by
  unfold read at h
  split at h
  · cases h
    exact .idle
  · rename_i r rest hchannel
    split at h
    · rename_i hdata
      cases h
      exact .readDead hl hchannel (getBundleData_eq_none (by rw [hdata]; rfl))
    · obtain ⟨_, -, h⟩ := bind_eq_ok.mp h
      obtain ⟨_, -, h⟩ := bind_eq_ok.mp h
      cases h
      exact .read hl hchannel

lemma next_step (h : n.next S e = some n') : Step S n e n' := by
  cases e with
  | submit =>
    rw [next] at h
    split at h <;> cases h
    exact .submit ‹_›
  | notify =>
    rw [next] at h
    split at h <;> cases h
    exact .notify ‹_›
  | connect =>
    rw [next] at h
    split at h <;> cases h
    rename_i hnone
    simp only [Bool.and_eq_true, isNone_iff_eq_none] at hnone
    exact .connect hnone.1 hnone.2
  | listen =>
    rw [next] at h
    split at h <;> cases h
    rename_i hnone
    simp only [Bool.and_eq_true, isNone_iff_eq_none] at hnone
    exact .listen hnone.1.1 hnone.1.2
  | storage =>
    have h := toOption_eq_some.mp h
    unfold handleStorage at h
    split at h
    · obtain ⟨⟨d, es⟩, hd, h⟩ := bind_eq_ok.mp h
      cases h
      exact .start ‹_› hd
    · cases h
      exact .idle
    · obtain ⟨⟨d, _⟩, hd, h⟩ := bind_eq_ok.mp h
      cases h
      exact .storage ‹_› ‹_› hd
  | release => cases h; exact .release
  | protocol =>
    have h := toOption_eq_some.mp h
    unfold handleProtocol at h
    split at h
    · cases h
      exact .idle
    · obtain ⟨⟨_, _⟩, hd, h⟩ := bind_eq_ok.mp h
      cases h
      exact .protocol ‹_› hd
  | take =>
    obtain ⟨s, hs, h⟩ := bind_eq_some_iff.mp h
    split at h <;> cases h
    exact take_step hs
  | sent =>
    obtain ⟨s, hs, h⟩ := bind_eq_some_iff.mp h
    split at h <;> cases h
    rename_i hmem
    exact .sent hs (contains_iff_mem.mp (Bool.and_eq_true_iff.mp hmem).2)
  | failed =>
    obtain ⟨s, hs, h⟩ := bind_eq_some_iff.mp h
    split at h <;> cases h
    rename_i hmem
    exact .failed hs (contains_iff_mem.mp (Bool.and_eq_true_iff.mp hmem).2)
  | disconnect =>
    obtain ⟨s, hs, rfl⟩ := map_eq_some_iff.mp h
    exact .disconnect hs
  | stopAgent =>
    obtain ⟨_, hs, rfl⟩ := map_eq_some_iff.mp h
    exact .stopAgent hs
  | pass =>
    obtain ⟨l, hl, h⟩ := bind_eq_some_iff.mp h
    split at h <;> cases h
    exact pass_step hl
  | read =>
    obtain ⟨l, hl, h⟩ := bind_eq_some_iff.mp h
    split at h <;> [skip; cases h]
    exact read_step hl (toOption_eq_some.mp h)
  | hangUp =>
    obtain ⟨l, hl, rfl⟩ := map_eq_some_iff.mp h
    exact .hangUp hl
  | stopListener =>
    obtain ⟨_, hl, rfl⟩ := map_eq_some_iff.mp h
    exact .stopListener hl

/-! ## The references -/

variable {m : Message} {a : Nat} {s : Session} {l : Listener} {P' : Parties}
  {lost : Multiset Item}

/-- Every reference of the node. -/
def items (n : Node) : Multiset Item :=
  (n.protocolBox.map Message.items).sum + n.protocol.items + (n.storeBox.map Storage.Message.items).sum +
    n.sessions.gather Session.items + n.listeners.gather Listener.items

def parties (n : Node) : Parties := ⟨fun a => (n.listeners.get a).map (·.endpoint), fun a => (n.sessions.get a).isSome⟩

variable {endpoint : Endpoint} {P : Parties}

/-- The reference is in this place. -/
def Located (n : Node) (r : StoredBundleRef) : Place → Prop
  | .storeBox m => m ∈ n.storeBox ∧ m.bundleref = some r
  | .protocolBox m => m ∈ n.protocolBox ∧ m.items = {(.protocolBox m, r)}
  | .localQueue k => ∃ queue, (k, queue) ∈ n.protocol.localBundles.entries ∧ r ∈ queue
  | .remoteQueue k => ∃ queue, (k, queue) ∈ n.protocol.remoteBundles.entries ∧ r ∈ queue
  | .agentMailbox a => ∃ s, (a, s) ∈ n.sessions.entries ∧ r ∈ s.mailbox
  | .transfer a => ∃ s, (a, s) ∈ n.sessions.entries ∧ r ∈ s.transfers
  | .clientMailbox a => ∃ l, (a, l) ∈ n.listeners.entries ∧ r ∈ l.mailbox
  | .channel a => ∃ l, (a, l) ∈ n.listeners.entries ∧ r ∈ l.channel

lemma located (h : (p, r) ∈ n.items) : n.Located r p := by
  simp only [items, Daemon.items, queueItems, mem_add, mem_sum_map, Table.mem_gather] at h
  rcases h with (((⟨m, hm, h⟩ | ⟨⟨k, queue⟩, hmem, h⟩ | ⟨⟨k, queue⟩, hmem, h⟩) | ⟨m, hm, h⟩) | ⟨⟨a, s⟩, hmem, h⟩) |
    ⟨⟨a, l⟩, hmem, h⟩
  · cases m <;> first | cases Multiset.mem_singleton.mp h | cases h
    all_goals exact ⟨hm, rfl⟩
  · obtain ⟨rfl, hr⟩ := mem_placed.mp h
    exact ⟨queue, hmem, hr⟩
  · obtain ⟨rfl, hr⟩ := mem_placed.mp h
    exact ⟨queue, hmem, hr⟩
  · cases m <;> first | cases Multiset.mem_singleton.mp h | cases h
    all_goals exact ⟨hm, rfl⟩
  · rcases mem_add.mp h with h | h
    all_goals
      obtain ⟨rfl, hr⟩ := mem_placed.mp h
      exact ⟨s, hmem, hr⟩
  · rcases mem_add.mp h with h | h
    all_goals
      obtain ⟨rfl, hr⟩ := mem_placed.mp h
      exact ⟨l, hmem, hr⟩

/-! ## Changes of one part -/

lemma items_tell (n : Node) (m : Message) : (n.tell m).items = m.items + n.items := by grind [items, tell]

lemma mem_items_front (hbox : n.protocolBox = m :: box) (hi : i ∈ m.items) : i ∈ n.items := by
  rw [items, hbox, List.map_cons, List.sum_cons]
  simp [hi]

lemma items_withSession (hs : n.sessions.get a = some s) :
    ∃ rest, n.items = s.items a + rest ∧ ∀ s', (n.withSession a s').items = s'.items a + rest := by
  obtain ⟨rest, hget, hinsert⟩ := Table.gather_insert (f := Session.items) hs
  refine ⟨(n.protocolBox.map Message.items).sum + n.protocol.items + (n.storeBox.map Storage.Message.items).sum +
    rest + n.listeners.gather Listener.items, ?_, fun s' => ?_⟩
  · rw [items, hget]
    abel
  · simp only [items, withSession, hinsert]
    abel

lemma items_withListener (hl : n.listeners.get a = some l) :
    ∃ rest, n.items = l.items a + rest ∧ ∀ l', (n.withListener a l').items = l'.items a + rest := by
  obtain ⟨rest, hget, hinsert⟩ := Table.gather_insert (f := Listener.items) hl
  refine ⟨(n.protocolBox.map Message.items).sum + n.protocol.items + (n.storeBox.map Storage.Message.items).sum +
    n.sessions.gather Session.items + rest, ?_, fun l' => ?_⟩
  · rw [items, hget]
    abel
  · simp only [items, withListener, hinsert]
    abel

lemma items_newSession (ha : n.sessions.get a = none) (s : Session) :
    (n.withSession a s).items = s.items a + n.items := by
  obtain ⟨_, hget, hinsert⟩ := Table.gather_focus Session.items n.sessions a
  rw [ha, elim_none, zero_add] at hget
  simp only [items, withSession, hinsert, hget]
  abel

lemma items_newListener (ha : n.listeners.get a = none) (l : Listener) :
    (n.withListener a l).items = l.items a + n.items := by
  obtain ⟨_, hget, hinsert⟩ := Table.gather_focus Listener.items n.listeners a
  rw [ha, elim_none, zero_add] at hget
  simp only [items, withListener, hinsert, hget]
  abel

/-! ## Parties -/

/-- No actor is forgotten. -/
structure Extends (P P' : Parties) : Prop where
  ends : ∀ a k, P.ends a = some k → P'.ends a = some k
  agents : ∀ a, P.agents a = true → P'.agents a = true

lemma Extends.refl (P : Parties) : Extends P P := ⟨fun _ _ h => h, fun _ h => h⟩

lemma Extends.trans (h : Extends P P') (h' : Extends P' P'') : Extends P P'' :=
  ⟨fun a k hk => h'.ends a k (h.ends a k hk), fun a ha => h'.agents a (h.agents a ha)⟩

lemma Extends.item (h : Extends P P') (hi : ItemOk S endpoint P i) : ItemOk S endpoint P' i := by
  obtain ⟨p, _⟩ := i
  obtain ⟨hr, hp⟩ := hi
  refine ⟨hr, ?_⟩
  cases p with
  | agentMailbox a | transfer a => exact ⟨hp.1, h.agents a hp.2⟩
  | clientMailbox a | channel a => exact ⟨hp.1, h.ends a _ hp.2⟩
  | storeBox | protocolBox | localQueue | remoteQueue => exact hp

lemma Extends.context (h : Extends P P') {c : Context} (hc : c.Ok endpoint P) : c.Ok endpoint P' :=
  ⟨hc.endpoint, fun k a hget => h.ends a k (hc.listeners k a hget), fun k a hget => h.agents a (hc.agents k a hget)⟩

lemma Extends.connects (h : Extends P P') (hm : m.Connects P) : m.Connects P' := by
  cases m with
  | eventClientConnected k a => exact h.ends a k hm
  | eventPeerConnected _ a => exact h.agents a hm
  | _ => trivial

lemma extends_withSession (n : Node) (a : Nat) (s : Session) : Extends n.parties (n.withSession a s).parties := by
  refine ⟨fun _ _ h => h, fun a' h => ?_⟩
  simp only [parties, withSession, Table.get_insert]
  split
  · rfl
  · exact h

lemma extends_withListener (h : ∀ l', n.listeners.get a = some l' → l'.endpoint = l.endpoint) :
    Extends n.parties (n.withListener a l).parties := by
  refine ⟨fun a' k h' => ?_, fun _ h => h⟩
  simp only [parties, withListener, Table.get_insert] at h' ⊢
  split
  · grind [map_eq_some_iff]
  · exact h'

lemma extends_changeListener (hl : n.listeners.get a = some l)
    (hend : l'.endpoint = l.endpoint) : Extends n.parties (n.withListener a l').parties :=
  extends_withListener fun l1 hl1 => by cases hl.symm.trans hl1; exact hend.symm

/-! ## What is sent -/

lemma deliver_extends (n : Node) (command : Protocol.Command) : Extends n.parties (n.deliver command).parties := by
  cases command with
  | storage => exact .refl _
  | clientDeliverBundle =>
    rw [deliver]
    split
    · rename_i l hl
      exact extends_changeListener hl rfl
    · exact .refl _
  | agentForwardBundle =>
    rw [deliver]
    split
    · exact extends_withSession ..
    · exact .refl _

lemma items_deliver (h : ∀ i ∈ command.items, ItemOk S endpoint n.parties i) :
    (n.deliver command).items = command.items + n.items := by
  cases command with
  | storage => grind [items, deliver, Protocol.Command.items]
  | clientDeliverBundle =>
    obtain ⟨_, hl, -⟩ := map_eq_some_iff.mp (h _ (Multiset.mem_singleton_self _)).2.2
    obtain ⟨rest, hbefore, hafter⟩ := items_withListener hl
    rw [deliver, hl]
    rw [hafter, hbefore, Listener.items, Listener.items, placed_append, placed_cons, placed_nil, Protocol.Command.items]
    abel
  | agentForwardBundle =>
    obtain ⟨_, hs⟩ := isSome_iff_exists.mp (h _ (Multiset.mem_singleton_self _)).2.2
    obtain ⟨_, hbefore, hafter⟩ := items_withSession hs
    rw [deliver, hs]
    rw [hafter, hbefore, Session.items, Session.items, placed_append, placed_cons, placed_nil, Protocol.Command.items]
    abel

/-- Commands go to the mailboxes of the other actors. -/
lemma foldl_deliver_eq (n : Node) (commands : List Protocol.Command) :
    ∃ storeBox sessions listeners, commands.foldl deliver n = { n with storeBox, sessions, listeners } := by
  induction commands generalizing n with
  | nil => exact ⟨_, _, _, rfl⟩
  | cons command _ ih =>
    obtain ⟨_, _, _, h⟩ := ih (n.deliver command)
    rw [List.foldl_cons, h]
    cases command <;> rw [deliver] <;> [exact ⟨_, _, _, rfl⟩; skip; skip] <;> split <;> exact ⟨_, _, _, rfl⟩

lemma foldl_deliver_extends (n : Node) (commands : List Protocol.Command) :
    Extends n.parties (commands.foldl deliver n).parties := by
  induction commands generalizing n with
  | nil => exact .refl _
  | cons command _ ih => exact (deliver_extends n command).trans (ih _)

lemma items_foldl_deliver {commands : List Protocol.Command}
    (h : ∀ i ∈ (commands.map Protocol.Command.items).sum, ItemOk S endpoint n.parties i) :
    (commands.foldl deliver n).items = (commands.map Protocol.Command.items).sum + n.items := by
  induction commands generalizing n with
  | nil => exact (zero_add _).symm
  | cons command _ ih =>
    rw [List.map_cons, List.sum_cons] at h ⊢
    rw [List.foldl_cons, ih fun i hi => (deliver_extends n command).item (h i (mem_add.mpr (.inr hi))),
      items_deliver fun i hi => h i (mem_add.mpr (.inl hi))]
    abel

/-! ## Passing references on -/

/-- The protocol agent knows the other actors. -/
structure Knows (endpoint : Endpoint) (n : Node) : Prop where
  context : Context.Ok endpoint n.parties ⟨n.protocol, [], []⟩
  connects : ∀ m ∈ n.protocolBox, m.Connects n.parties

/-- All references are in order. -/
structure Sound (S : Serde) (endpoint : Endpoint) (n : Node) : Prop where
  knows : n.Knows endpoint
  items : ∀ i ∈ n.items, ItemOk S endpoint n.parties i
  entries : ∀ y ∈ n.store.bundles, RefOk S endpoint y.getRef

/-- The references of `n` are those of `n'` in other places, and those that are lost. -/
structure Shifts (S : Serde) (endpoint : Endpoint) (n : Node) (e : NodeEvent) (n' : Node)
    (lost : Multiset Item) : Prop where
  passes : Passes (ItemOk S endpoint n.parties) n.items (lost + n'.items)
  lost : ∀ i ∈ lost, Loses n e i
  parties : Extends n.parties n'.parties

variable {e : NodeEvent}

lemma Shifts.refs (h : Shifts S endpoint n e n' lost)
    (hr : r ∈ n'.items.map Prod.snd) : r ∈ n.items.map Prod.snd := by
  rw [← h.passes.things, Multiset.map_add]
  exact mem_add.mpr (.inr hr)

lemma shifts_of_eq (hitems : n'.items = n.items) (hparties : Extends n.parties n'.parties) :
    Shifts S endpoint n e n' 0 := ⟨.of_eq (by rw [hitems, zero_add]), by simp, hparties⟩

lemma shifts_session (told : Multiset Item) (hs : n.sessions.get a = some s)
    (hpasses : Passes (ItemOk S endpoint n.parties) (s.items a) (lost + told + s'.items a))
    (hlost : ∀ i ∈ lost, Loses n e i) (hitems : n'.items = told + (n.withSession a s').items)
    (hparties : n'.parties = (n.withSession a s').parties) : Shifts S endpoint n e n' lost := by
  obtain ⟨_, hbefore, hafter⟩ := items_withSession hs
  refine ⟨hpasses.focus hbefore ?_, hlost, by rw [hparties]; exact extends_withSession ..⟩
  rw [hitems, hafter]
  abel

lemma shifts_listener (told : Multiset Item) (hl : n.listeners.get a = some l)
    (hpasses : Passes (ItemOk S endpoint n.parties) (l.items a) (lost + told + l'.items a))
    (hlost : ∀ i ∈ lost, Loses n e i) (hitems : n'.items = told + (n.withListener a l').items)
    (hparties : n'.parties = (n.withListener a l').parties) (hend : l'.endpoint = l.endpoint) :
    Shifts S endpoint n e n' lost := by
  obtain ⟨_, hbefore, hafter⟩ := items_withListener hl
  refine ⟨hpasses.focus hbefore ?_, hlost, ?_⟩
  · rw [hitems, hafter]
    abel
  · rw [hparties]
    exact extends_changeListener hl hend

lemma mem_placed_loses (h : ∀ r ∈ rs, Loses n e (p, r)) :
    ∀ i ∈ placed p rs, Loses n e i := by simp_all

lemma shifts_result (hs : n.sessions.get a = some s) (hr : r ∈ s.transfers) (hm : m.items = {(.protocolBox m, r)})
    (hok : r.state = .forwardingQueued → m.Ok r) : Shifts S endpoint n e (n.result a s r m) 0 := by
  refine shifts_session _ hs ?_ (by simp) (items_tell _ _) rfl
  have hperm : placed (Place.transfer a) s.transfers =
      {(Place.transfer a, r)} + placed (Place.transfer a) (s.transfers.erase r) :=
    placed_perm _ (perm_cons_erase hr)
  have hto : ItemOk S endpoint n.parties (.transfer a, r) → ItemOk S endpoint n.parties (.protocolBox m, r) :=
    fun ⟨h, hst, _⟩ => ⟨h, hok hst⟩
  refine (Passes.single hto).focus (R := placed (.agentMailbox a) s.mailbox + placed (.transfer a)
    (s.transfers.erase r)) ?_ ?_
  · rw [Session.items, hperm]
    abel
  · rw [hm, zero_add]
    rfl

/-- No event but those of the storage agent adds a reference, and those that are lost are lost in one of the ways
above. -/
lemma Step.shifts (h : Step S n e n') (he : e ≠ .storage) (hn : n.Sound S endpoint) :
    ∃ lost, Shifts S endpoint n e n' lost := by
  cases h with
  | idle | release => exact ⟨0, shifts_of_eq rfl (.refl _)⟩
  | @submit m h =>
    refine ⟨0, shifts_of_eq ?_ (.refl _)⟩
    have hm : m.items = 0 := by cases m <;> first | rfl | cases h
    simp [Node.items, hm]
  | @notify m h =>
    refine ⟨0, shifts_of_eq ?_ (.refl _)⟩
    have hm : m.items = 0 := by cases m <;> first | rfl | cases h
    rw [items_tell, hm, zero_add]
  | connect hs => exact ⟨0, shifts_of_eq (by rw [items_newSession hs]; exact zero_add _) (extends_withSession ..)⟩
  | listen _ hl =>
    refine ⟨0, shifts_of_eq ?_ (extends_withListener fun l' hl' => by cases hl.symm.trans hl')⟩
    rw [items_tell, items_newListener hl]
    exact (zero_add _).trans (zero_add _)
  | start | storage => exact absurd rfl he
  | @protocol m box _ _ d commands hbox h =>
    have hm : ∀ i ∈ m.items, ItemOk S endpoint n.parties i := fun i hi => hn.items i (mem_items_front hbox hi)
    obtain ⟨-, hpasses⟩ := Protocol.handle_passes h hn.knows.context
      (hn.knows.connects m (by rw [hbox]; exact List.mem_cons_self)) hm
    have hbefore : n.items = (m.items + n.protocol.items) + ((box.map Message.items).sum +
        (n.storeBox.map Storage.Message.items).sum + n.sessions.gather Session.items +
        n.listeners.gather Listener.items) := by grind [Node.items]
    have hafter : ({ n with protocol := d, protocolBox := box } : Node).items = d.items + ((box.map Message.items).sum +
        (n.storeBox.map Storage.Message.items).sum + n.sessions.gather Session.items +
        n.listeners.gather Listener.items) := by
      simp only [Node.items]
      abel
    have hcommands : ∀ i ∈ (commands.map Protocol.Command.items).sum, ItemOk S endpoint n.parties i := fun i hi =>
      hpasses.ok (fun j hj => hn.items j (by rw [hbefore]; exact mem_add.mpr (.inl hj))) i
        (mem_add.mpr (.inl hi))
    have hitems := items_foldl_deliver (n := { n with protocol := d, protocolBox := box }) hcommands
    refine ⟨0, hpasses.focus hbefore ?_, by simp, foldl_deliver_extends { n with protocol := d, protocolBox := box } _⟩
    rw [hitems, hafter, zero_add]
    abel
  | @take a s r rest hs hbox =>
    refine ⟨0, shifts_session 0 hs ?_ (by simp) (zero_add _).symm rfl⟩
    refine (Passes.single (p := .agentMailbox a) (q := .transfer a) (a := r) id).focus
      (R := placed (.agentMailbox a) rest + placed (.transfer a) s.transfers) ?_ ?_
    · rw [Session.items, hbox, placed_cons, add_assoc]
    · simp only [Session.items, placed_append, placed_cons, placed_nil]
      abel
  | @takeDead a _ r _ hs hbox hdead =>
    refine ⟨placed (.agentMailbox a) [r], shifts_session 0 hs (.of_eq ?_) (mem_placed_loses fun r' hr' => ?_)
      (zero_add _).symm rfl⟩
    · grind [placed_cons, placed_nil, Session.items]
    · rw [List.mem_singleton.mp hr']
      exact .takeDead hs hbox hdead
  | @takeClosed a s hs _ hclosed =>
    refine ⟨placed (.agentMailbox a) s.mailbox, shifts_session 0 hs (.of_eq ?_)
      (mem_placed_loses fun r hr => .takeClosed hs hr hclosed) (zero_add _).symm rfl⟩
    simp [Session.items]
  | sent hs hr | failed hs hr => exact ⟨0, shifts_result hs hr rfl fun hst => ⟨rfl, hst, rfl⟩⟩
  | @disconnect a s hs =>
    refine ⟨placed (.transfer a) s.transfers, shifts_session 0 hs (.of_eq ?_)
      (mem_placed_loses fun r hr => .disconnect hs hr) (zero_add _).symm rfl⟩
    simp [Session.items, add_comm]
  | @stopAgent a s hs =>
    refine ⟨placed (.agentMailbox a) s.mailbox, shifts_session 0 hs (.of_eq ?_)
      (mem_placed_loses fun r hr => .stopAgent hs hr) (zero_add _).symm rfl⟩
    simp [Session.items]
  | @pass a l r rest hl hbox =>
    refine ⟨0, shifts_listener 0 hl ?_ (by simp) (zero_add _).symm rfl rfl⟩
    refine (Passes.single (p := .clientMailbox a) (q := .channel a) (a := r) id).focus
      (R := placed (.clientMailbox a) rest + placed (.channel a) l.channel) ?_ ?_
    · rw [Listener.items, hbox, placed_cons, add_assoc]
    · simp only [Listener.items, placed_append, placed_cons, placed_nil]
      abel
  | @passClosed a l r rest hl hbox hclosed =>
    refine ⟨placed (.clientMailbox a) rest, shifts_listener _ hl ?_ (mem_placed_loses fun r hr =>
      .passClosed hl hbox hclosed hr) (items_tell _ _) rfl rfl⟩
    have hto : ItemOk S endpoint n.parties (.clientMailbox a, r) → ItemOk S endpoint n.parties
        (.protocolBox (.eventBundleDeliveryFailed l.endpoint r), r) := fun ⟨h, hst, hend⟩ => by
      refine ⟨h, rfl, hst, ?_⟩
      simp only [Node.parties, hl, map_some] at hend
      exact Option.some.inj hend
    refine (Passes.single hto).focus (R := placed (.clientMailbox a) rest + placed (.channel a) l.channel) ?_ ?_
    · rw [Listener.items, hbox, placed_cons, add_assoc]
    · simp only [Listener.items, placed_nil, Message.items]
      abel
  | @read a l r rest hl hchannel =>
    refine ⟨0, shifts_listener _ hl ?_ (by simp) (items_tell _ _) rfl rfl⟩
    have hto : ItemOk S endpoint n.parties (.channel a, r) → ItemOk S endpoint n.parties
        (.protocolBox (.eventBundleDelivered r.primaryBlock.destinationEndpoint r), r) :=
      fun ⟨h, hst, _⟩ => ⟨h, rfl, hst, rfl⟩
    refine (Passes.single hto).focus (R := placed (.clientMailbox a) l.mailbox + placed (.channel a) rest) ?_ ?_
    · rw [Listener.items, hchannel, placed_cons]
      abel
    · simp only [Listener.items, Message.items]
      abel
  | @readDead a _ r _ hl hchannel hdead =>
    refine ⟨placed (.channel a) [r], shifts_listener 0 hl (.of_eq ?_) (mem_placed_loses fun r' hr' => ?_)
      (zero_add _).symm rfl rfl⟩
    · grind [placed_cons, placed_nil, Listener.items]
    · rw [List.mem_singleton.mp hr']
      exact .readDead hl hchannel hdead
  | @hangUp a l hl =>
    refine ⟨placed (.channel a) l.channel, shifts_listener 0 hl (.of_eq ?_)
      (mem_placed_loses fun r hr => .hangUp hl hr) (zero_add _).symm rfl rfl⟩
    simp [Listener.items, add_comm]
  | @stopListener a l hl =>
    refine ⟨placed (.clientMailbox a) l.mailbox, shifts_listener 0 hl (.of_eq ?_)
      (mem_placed_loses fun r hr => .stopListener hl hr) (zero_add _).symm rfl rfl⟩
    simp [Listener.items]

end Node

end Dtn.Dtrd
