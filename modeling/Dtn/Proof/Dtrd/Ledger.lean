import Mathlib.Tactic.Abel
import Dtn.Framework.Ledger
import Dtn.Proof.Dtrd.Protocol

/-!
# References on their way

Every reference to a stored bundle is in one place: in the mailbox of an agent
with the message that carries it, in a queue of the protocol agent, or with a
session or a listener. What a place says about the references in it is
`Place.Ok`. The protocol agent passes references on: its moves and the messages
it takes neither lose nor invent one and keep the places in order
(`handle_passes`).
-/

namespace Dtn.Dtrd

open List Dtn.Bp7 Relation Table

/-- Where a reference can be. -/
inductive Place where
  | storeBox (message : Storage.Message)
  | protocolBox (message : Protocol.Message)
  | localQueue (destination : Endpoint)
  | remoteQueue (node : Endpoint)
  | agentMailbox (agent : Nat)
  | transfer (agent : Nat)
  | clientMailbox (client : Nat)
  | channel (client : Nat)

/-- A reference in its place. -/
abbrev Item := Place × StoredBundleRef

/-- The bundle is for this node. -/
def IsLocal (endpoint : Endpoint) (pb : PrimaryBlock) : Prop :=
  endpoint.matchesNode pb.destinationEndpoint = (.ok true : Outcome Empty Bool)

def IsRemote (endpoint : Endpoint) (pb : PrimaryBlock) : Prop :=
  endpoint.matchesNode pb.destinationEndpoint = (.ok false : Outcome Empty Bool)

/-- What is so of every reference that is not finished, wherever it is. -/
structure RefOk (S : Serde) (endpoint : Endpoint) (r : StoredBundleRef) : Prop where
  state : r.state = .received ∨ r.state.Queued
  deliveryQueued : r.state = .deliveryQueued → IsLocal endpoint r.primaryBlock ∧ r.primaryBlock.fragmentOffset = none
  forwardingQueued : r.state = .forwardingQueued → IsRemote endpoint r.primaryBlock
  decoded : ∀ b, Bundle.tryFrom S r.bundleData.bytes = .ok b → b.primaryBlock = r.primaryBlock

/-- What a node with this endpoint makes of the bundle. -/
def ForwardsTo (S : Serde) (endpoint : Endpoint) (r : StoredBundleRef)
    (result : Outcome BundleStatusReason (List UInt8)) : Prop :=
  ∃ w c, Protocol.Daemon.endpoint (Protocol.Context.daemon c) = endpoint ∧
    Protocol.Context.forwardBundle S w c r = result

/-- What a message to the storage agent says about the reference it carries. -/
def Storage.Message.Ok (S : Serde) (endpoint : Endpoint) (r : StoredBundleRef) : Storage.Message → Prop
  | .updateBundle r' st data => r' = r ∧
    match st with
    | .valid => r.state = .received ∧ data = none
    | .defragmentationPending =>
      r.state = .valid ∧ IsLocal endpoint r.primaryBlock ∧ r.primaryBlock.fragmentOffset.isSome
    | .deliveryQueued =>
      r.state = .valid ∧ IsLocal endpoint r.primaryBlock ∧ r.primaryBlock.fragmentOffset = none ∧ data = none
    | .forwardingQueued => r.state = .valid ∧ IsRemote endpoint r.primaryBlock ∧
      ∃ bs, data = some bs ∧ ForwardsTo S endpoint r (.ok bs)
    | .invalid => r.state = .valid ∧ IsRemote endpoint r.primaryBlock ∧ ∃ e, ForwardsTo S endpoint r (.err e)
    | .delivered => r.state = .deliveryQueued
    | .forwarded => r.state = .forwardingQueued
    | .received => False
  | .fragmentBundle r' n => r' = r ∧ r.state = .forwardingQueued ∧ n < r.size ∧
    r.primaryBlock.bundleProcessingFlags.contains .mustNotFragment = false ∧ ∀ m, r.minSize = some m → m ≤ n
  | _ => False

def Protocol.Message.Ok (r : StoredBundleRef) : Protocol.Message → Prop
  | .eventBundleUpdated r' => r' = r
  | .eventBundleDelivered endpoint r' | .eventBundleDeliveryFailed endpoint r' =>
    r' = r ∧ r.state = .deliveryQueued ∧ endpoint = r.primaryBlock.destinationEndpoint
  | .eventBundleForwarded endpoint r' | .eventBundleForwardingFailed endpoint r' =>
    r' = r ∧ r.state = .forwardingQueued ∧ endpoint = r.primaryBlock.destinationEndpoint
  | _ => False

/-- The actors outside: the listeners with their endpoints, and the session agents. -/
structure Parties where
  ends : Nat → Option Endpoint
  agents : Nat → Bool

/-- What is so of a reference in this place. -/
def Place.Ok (S : Serde) (endpoint : Endpoint) (P : Parties) (r : StoredBundleRef) : Place → Prop
  | .storeBox m => m.Ok S endpoint r
  | .protocolBox m => m.Ok r
  | .localQueue k => r.state = .deliveryQueued ∧ r.primaryBlock.destinationEndpoint = k
  | .remoteQueue k => r.state = .forwardingQueued ∧
    r.primaryBlock.destinationEndpoint.getNodeEndpoint = (.ok k : Outcome Empty Endpoint)
  | .agentMailbox a | .transfer a => r.state = .forwardingQueued ∧ P.agents a = true
  | .clientMailbox a | .channel a => r.state = .deliveryQueued ∧ P.ends a = some r.primaryBlock.destinationEndpoint

/-- A reference is in order in its place. -/
def ItemOk (S : Serde) (endpoint : Endpoint) (P : Parties) (i : Item) : Prop :=
  RefOk S endpoint i.2 ∧ i.1.Ok S endpoint P i.2

/-- The references that a message carries, in this message. -/
def Storage.Message.items : Storage.Message → Multiset Item
  | .updateBundle r st data => {(.storeBox (.updateBundle r st data), r)}
  | .fragmentBundle r n => {(.storeBox (.fragmentBundle r n), r)}
  | _ => 0

def Protocol.Message.items : Protocol.Message → Multiset Item
  | .eventBundleUpdated r => {(.protocolBox (.eventBundleUpdated r), r)}
  | .eventBundleDelivered e r => {(.protocolBox (.eventBundleDelivered e r), r)}
  | .eventBundleDeliveryFailed e r => {(.protocolBox (.eventBundleDeliveryFailed e r), r)}
  | .eventBundleForwarded e r => {(.protocolBox (.eventBundleForwarded e r), r)}
  | .eventBundleForwardingFailed e r => {(.protocolBox (.eventBundleForwardingFailed e r), r)}
  | _ => 0

namespace Protocol

variable {t : Table Endpoint (List StoredBundleRef)} {r : StoredBundleRef} {queue : List StoredBundleRef}
  {m : Message}

def Command.items : Command → Multiset Item
  | .storage m => m.items
  | .clientDeliverBundle client r => {(.clientMailbox client, r)}
  | .agentForwardBundle agent r => {(.agentMailbox agent, r)}

/-- The references in the queues of a table. -/
def queueItems (place : Endpoint → Place) (t : Table Endpoint (List StoredBundleRef)) : Multiset Item :=
  t.gather fun k => placed (place k)

/-- The references in the queues. -/
def Daemon.items (d : Daemon) : Multiset Item :=
  queueItems .localQueue d.localBundles + queueItems .remoteQueue d.remoteBundles

/-- The references in the queues and in what was sent. -/
def Context.items (c : Context) : Multiset Item := (c.sent.map Command.items).sum + c.daemon.items

variable {S : Serde} {w : World} {c c' : Context} {endpoint : Endpoint} {P : Parties}

/-- The protocol agent knows its own endpoint and the other actors. -/
structure Context.Ok (endpoint : Endpoint) (P : Parties) (c : Context) : Prop where
  endpoint : c.daemon.endpoint = endpoint
  listeners : ∀ k a, c.daemon.localConnections.get k = some a → P.ends a = some k
  agents : ∀ k a, c.daemon.remoteConnections.get k = some a → P.agents a = true

/-! ## Moves -/

lemma queueItems_front (place : Endpoint → Place) (hq : t.get k = some (r :: queue)) :
    ∃ rest, queueItems place t = {(place k, r)} + rest ∧ queueItems place (t.insert k queue) = rest := by
  obtain ⟨rest, hget, hinsert⟩ := gather_insert (f := fun k => placed (place k)) hq
  exact ⟨placed (place k) queue + rest, by rw [queueItems, hget, placed_cons, add_assoc], hinsert queue⟩

lemma queueItems_rotate (place : Endpoint → Place) (hq : t.get k = some queue) (hperm : queue'.Perm queue) :
    queueItems place (t.insert k queue') = queueItems place t := by
  obtain ⟨_, hget, hinsert⟩ := gather_insert (f := fun k => placed (place k)) hq
  rw [queueItems, queueItems, hinsert, hget, placed_perm _ hperm]

lemma queueItems_push (t : Table Endpoint (List StoredBundleRef)) (place : Endpoint → Place) (k : Endpoint)
    (hperm : queue.Perm (r :: t.list k)) :
    queueItems place (t.insert k queue) = {(place k, r)} + queueItems place t := by
  obtain ⟨_, hget, hinsert⟩ := gather_focus (fun k => placed (place k)) t k
  rw [queueItems, queueItems, hinsert, placed_perm _ hperm, placed_cons, hget, list, add_assoc]
  cases t.get k <;> rfl

lemma sum_items_append (sent : List Command) (command : Command) :
    ((sent ++ [command]).map Command.items).sum = command.items + (sent.map Command.items).sum := by grind

lemma Move.ok (h : Move w c c') (hc : c.Ok endpoint P) : c'.Ok endpoint P := by
  cases h with
  | report hd | deliver _ _ _ hd | forward _ _ _ hd | fragment _ _ _ _ hd | rotateLocal _ _ hd | rotateRemote _ _ hd =>
    exact ⟨by rw [hd]; exact hc.endpoint, by rw [hd]; exact hc.listeners, by rw [hd]; exact hc.agents⟩
  | closeLocal _ _ hd =>
    refine ⟨by rw [hd]; exact hc.endpoint, fun k a hget => hc.listeners k a ?_, by rw [hd]; exact hc.agents⟩
    rw [hd] at hget
    exact get_of_get_remove hget
  | closeRemote _ _ _ hd =>
    refine ⟨by rw [hd]; exact hc.endpoint, by rw [hd]; exact hc.listeners, fun k a hget => hc.agents k a ?_⟩
    rw [hd] at hget
    exact get_of_get_remove hget

lemma Move.passes (h : Move w c c') (hc : c.Ok endpoint P) : Passes (ItemOk S endpoint P) c.items c'.items := by
  unfold Context.items Daemon.items
  cases h with
  | report hd hs =>
    rw [hd, hs, sum_items_append]
    exact .of_eq (congrArg (· + _) (zero_add _).symm)
  | @deliver k r _ a hq hsender _ hd hs =>
    obtain ⟨rest, hbefore, hafter⟩ := queueItems_front .localQueue hq
    rw [hd, hs, sum_items_append, hbefore, hafter]
    have hok : ItemOk S endpoint P (.localQueue k, r) → ItemOk S endpoint P (.clientMailbox a, r) :=
      fun ⟨hr, hst, hk⟩ => ⟨hr, hst, by rw [hk]; exact hc.listeners k a hsender⟩
    refine (Passes.single hok).focus
      (R := (c.sent.map Command.items).sum + (rest + queueItems .remoteQueue c.daemon.remoteBundles)) ?_ ?_
    · rw [add_assoc, add_left_comm]
    · rw [Command.items, add_assoc]
  | @forward k r _ hop a hq hsender _ hd hs =>
    obtain ⟨rest, hbefore, hafter⟩ := queueItems_front .remoteQueue hq
    rw [hd, hs, sum_items_append, hbefore, hafter]
    have hok : ItemOk S endpoint P (.remoteQueue k, r) → ItemOk S endpoint P (.agentMailbox a, r) :=
      fun ⟨hr, hst, _⟩ => ⟨hr, hst, hc.agents hop a hsender⟩
    refine (Passes.single hok).focus
      (R := (c.sent.map Command.items).sum + (queueItems .localQueue c.daemon.localBundles + rest)) ?_ ?_
    · abel
    · rw [Command.items, add_assoc]
  | @fragment k r _ n hq hsize hflags hmin hd hs =>
    obtain ⟨rest, hbefore, hafter⟩ := queueItems_front .remoteQueue hq
    rw [hd, hs, sum_items_append, hbefore, hafter]
    have hok : ItemOk S endpoint P (.remoteQueue k, r) → ItemOk S endpoint P (.storeBox (.fragmentBundle r n), r) :=
      fun ⟨hr, hst, _⟩ => ⟨hr, rfl, hst, hsize, hflags, hmin⟩
    refine (Passes.single hok).focus
      (R := (c.sent.map Command.items).sum + (queueItems .localQueue c.daemon.localBundles + rest)) ?_ ?_
    · abel
    · rw [Command.items, Storage.Message.items, add_assoc]
  | rotateLocal hq hperm hd hs =>
    rw [hd, hs, queueItems_rotate .localQueue hq hperm]
    exact .refl _
  | rotateRemote hq hperm hd hs =>
    rw [hd, hs, queueItems_rotate .remoteQueue hq hperm]
    exact .refl _
  | closeLocal _ _ hd hs | closeRemote _ _ _ hd hs =>
    rw [hd, hs]
    exact .refl _

lemma Moves.passes (h : Moves w c c') (hc : c.Ok endpoint P) :
    c'.Ok endpoint P ∧ Passes (ItemOk S endpoint P) c.items c'.items := by
  induction h with
  | refl => exact ⟨hc, .refl _⟩
  | tail _ hmove ih => exact ⟨hmove.ok ih.1, ih.2.trans (hmove.passes ih.1)⟩

/-! ## Messages -/

lemma items_update (c : Context) (r : StoredBundleRef) (st : State) (data : Option (List UInt8)) :
    (c.update r st data).items = {(.storeBox (.updateBundle r st data), r)} + c.items := by
  rw [Context.items, Context.update, Context.send, sum_items_append, add_assoc]
  rfl

lemma items_withLocal (c : Context) (k : Endpoint) (hperm : queue.Perm (r :: c.daemon.localBundles.list k)) :
    (c.withLocal k queue).items = {(.localQueue k, r)} + c.items := by
  rw [Context.items, Context.items, Daemon.items, Daemon.items, Context.withLocal, queueItems_push _ _ _ hperm]
  abel

lemma items_withRemote (c : Context) (k : Endpoint) (hperm : queue.Perm (r :: c.daemon.remoteBundles.list k)) :
    (c.withRemote k queue).items = {(.remoteQueue k, r)} + c.items := by
  rw [Context.items, Context.items, Daemon.items, Daemon.items, Context.withRemote, queueItems_push _ _ _ hperm]
  abel

/-- The actors are where the message says. -/
def Message.Connects (P : Parties) : Message → Prop
  | .eventClientConnected destination sender => P.ends sender = some destination
  | .eventPeerConnected _ sender => P.agents sender = true
  | _ => True

lemma Takes.ok (h : Takes S w c m c') (hc : c.Ok endpoint P) (hm : m.Connects P) : c'.Ok endpoint P := by
  cases h with
  | clientConnected =>
    refine ⟨hc.endpoint, fun k a hget => ?_, hc.agents⟩
    rw [get_insert] at hget
    split at hget
    · cases hget
      rename_i hk
      rw [← hk]
      exact hm
    · exact hc.listeners k a hget
  | peerConnected =>
    refine ⟨hc.endpoint, hc.listeners, fun k a hget => ?_⟩
    rw [get_insert] at hget
    split at hget
    · cases hget
      exact hm
    · exact hc.agents k a hget
  | clientDisconnected =>
    exact ⟨hc.endpoint, fun k a hget => hc.listeners k a (get_of_get_remove hget), hc.agents⟩
  | peerDisconnected => exact ⟨hc.endpoint, hc.listeners, fun k a hget => hc.agents k a (get_of_get_remove hget)⟩
  | _ => exact ⟨hc.endpoint, hc.listeners, hc.agents⟩

/-- The reference of the message is passed on. -/
lemma Takes.passes (h : Takes S w c m c') (hc : c.Ok endpoint P)
    (hm : ∀ i ∈ m.items, ItemOk S endpoint P i) : Passes (ItemOk S endpoint P) (m.items + c.items) c'.items := by
  have hto {p q r} (h : ItemOk S endpoint P (p, r) → ItemOk S endpoint P (q, r)) :
      Passes (ItemOk S endpoint P) ({(p, r)} + c.items) ({(q, r)} + c.items) := (Passes.single h).frame _
  cases h with
  | @received r hst =>
    rw [items_update]
    exact hto fun ⟨hr, _⟩ => ⟨hr, rfl, hst, rfl⟩
  | defragment hst hlocal hfragment =>
    rw [items_update]
    rw [hc.endpoint] at hlocal
    exact hto fun ⟨hr, _⟩ => ⟨hr, rfl, hst, hlocal, hfragment⟩
  | deliver hst hlocal hwhole =>
    rw [items_update]
    rw [hc.endpoint] at hlocal
    exact hto fun ⟨hr, _⟩ => ⟨hr, rfl, hst, hlocal, hwhole, rfl⟩
  | forward hst hremote hdata =>
    rw [items_update]
    rw [hc.endpoint] at hremote
    exact hto fun ⟨hr, _⟩ => ⟨hr, rfl, hst, hremote, _, rfl, w, c, hc.endpoint, hdata⟩
  | expire hst hremote herr =>
    rw [items_update]
    rw [hc.endpoint] at hremote
    exact hto fun ⟨hr, _⟩ => ⟨hr, rfl, hst, hremote, _, w, c, hc.endpoint, herr⟩
  | queueLocal hst =>
    rw [items_withLocal _ _ (perm_append_singleton _ _)]
    exact hto fun ⟨hr, _⟩ => ⟨hr, hst, rfl⟩
  | queueRemote hst hnode =>
    rw [items_withRemote _ _ (perm_append_singleton _ _)]
    exact hto fun ⟨hr, _⟩ => ⟨hr, hst, hnode⟩
  | ignored hst =>
    -- such references do not exist
    have hstate := (hm _ (Multiset.mem_singleton_self _)).1.state
    rcases hst with hst | hst | hst | hst <;> rw [hst] at hstate <;> simp [State.Queued] at hstate
  | @delivered e r | @forwarded e node r hnode =>
    rw [items_update]
    exact hto fun ⟨hr, _, hst, _⟩ => ⟨hr, rfl, hst⟩
  | @deliveryFailed e r =>
    have hitems : (c.eventBundleDeliveryFailed e r).items = {(.localQueue e, r)} + c.items :=
      items_withLocal (c.retainLocal e r) e (.refl _)
    rw [hitems]
    exact hto fun ⟨hr, _, hst, he⟩ => ⟨hr, hst, he.symm⟩
  | @forwardingFailed e node r hnode =>
    have hitems : ((c.retainRemote node r).withRemote node (r :: c.daemon.remoteBundles.list node)).items =
        {(.remoteQueue node, r)} + c.items := items_withRemote (c.retainRemote node r) node (.refl _)
    rw [hitems]
    exact hto fun ⟨hr, _, hst, he⟩ => ⟨hr, hst, by rw [← he]; exact hnode⟩
  | clientConnected | clientDisconnected | peerConnected | peerDisconnected | routes => exact .of_eq (zero_add _)

/-- What the protocol agent does with its references when it handles a message. -/
lemma handle_passes (h : d.handle S w accepts m = .ok (d', commands)) (hd : Context.Ok endpoint P ⟨d, [], []⟩)
    (hconnects : m.Connects P) (hm : ∀ i ∈ m.items, ItemOk S endpoint P i) :
    Context.Ok endpoint P ⟨d', [], []⟩ ∧
      Passes (ItemOk S endpoint P) (m.items + d.items) ((commands.map Command.items).sum + d'.items) := by
  obtain ⟨_, hc', h⟩ := Outcome.bind_eq_ok.mp h
  cases h
  obtain ⟨c1, _, hreport, htakes, hmoves2⟩ := handle_takes hc'
  obtain ⟨hok1, hpasses1⟩ := Moves.passes (S := S) (hreport.moves (w := w)) ⟨hd.endpoint, hd.listeners, hd.agents⟩
  obtain ⟨hok2, hpasses2⟩ := Moves.passes (S := S) hmoves2 (htakes.ok hok1 hconnects)
  have hstart : Passes (ItemOk S endpoint P) (m.items + d.items) (m.items + c1.items) := by
    have := hpasses1.frame m.items
    rwa [add_comm c1.items, Context.items, map_nil, sum_nil, zero_add, add_comm] at this
  exact ⟨⟨hok2.endpoint, hok2.listeners, hok2.agents⟩, hstart.trans ((htakes.passes hok1 hm).trans hpasses2)⟩

end Protocol

end Dtn.Dtrd
