import Dtn.Proof.Dtrd.Runs

/-!
# No bundle for a client is lost

A bundle that is stored to be delivered is queued for its endpoint, or on its
way to or from a listener, or was handed to a client (`delivery_kept`), as long
as no listener goes away while it holds bundles and no two stored whole bundles
for this node have the same primary block. A stream that is dropped with a
bundle in its channel drops the bundle too (`delivery_lost`).
-/

namespace Dtn.Dtrd

open Dtn.Bp7 Protocol

variable {S : Serde} {endpoint : Endpoint} {found files : List (String × List UInt8)}

/-- A bundle for this node that is no fragment. -/
def LocalWhole (endpoint : Endpoint) (pb : PrimaryBlock) : Prop := IsLocal endpoint pb ∧ pb.fragmentOffset = none

instance (endpoint : Endpoint) : DecidablePred (LocalWhole endpoint) := fun _ =>
    inferInstanceAs (Decidable (_ = _ ∧ _ = _))

namespace Node

variable {n n' : Node} {e : NodeEvent}

/-- What the listeners must do: an actor that finds its stream gone has no
further bundle in its mailbox, and no actor or stream ends with bundles. -/
def listenersKeep (n : Node) : NodeEvent → Bool
  | .pass a => (n.listeners.get a).all fun l => l.listening || l.mailbox.length ≤ 1
  | .hangUp a => (n.listeners.get a).all (·.channel.isEmpty)
  | .stopListener a => (n.listeners.get a).all (·.mailbox.isEmpty)
  | _ => true

/-- The condition on a state and the next event. -/
def KeepsDelivery (endpoint : Endpoint) (n : Node) (e : NodeEvent) : Prop :=
  n.listenersKeep e = true ∧ n.Distinct (LocalWhole endpoint)

instance (endpoint : Endpoint) (n : Node) (e : NodeEvent) : Decidable (KeepsDelivery endpoint n e) :=
  inferInstanceAs (Decidable (_ ∧ _))

/-- A bundle to be delivered is queued for its endpoint, or with a listener that
is there, or on its way back, or handed to a client. -/
inductive Delivering (n : Node) (r : StoredBundleRef) : Prop
  | queued (hk : (r.primaryBlock.destinationEndpoint, queue) ∈ n.protocol.localBundles.entries) (hr : r ∈ queue)
  | toListener (hl : (a, l) ∈ n.listeners.entries) (hrunning : l.running = true) (hr : r ∈ l.mailbox)
  | inChannel (hl : (a, l) ∈ n.listeners.entries) (hlistening : l.listening = true) (hr : r ∈ l.channel)
  | returned (h : .eventBundleDeliveryFailed r.primaryBlock.destinationEndpoint r ∈ n.protocolBox)
  | handed (h : .eventBundleDelivered r.primaryBlock.destinationEndpoint r ∈ n.protocolBox ∨
      ∃ data, .updateBundle r .delivered data ∈ n.storeBox)

lemma not_lost_local (hn : n.Owned (LocalWhole endpoint)) (ha : KeepsDelivery endpoint n e) (h : Loses n e i)
    (hi : ItemOk S endpoint n.parties i) (hmem : i.2 ∈ n.items.map Prod.snd) : ¬ LocalWhole endpoint
    i.2.primaryBlock := by
  have hremote (hst : i.2.state = .forwardingQueued) : ¬ LocalWhole endpoint i.2.primaryBlock := fun hlocal => by
    cases hlocal.1.symm.trans (hi.1.forwardingQueued hst)
  obtain ⟨_, -⟩ := ha
  cases h with
  | takeDead | takeClosed | disconnect | stopAgent => exact hremote hi.2.1
  | passClosed | hangUp | stopListener => grind [listenersKeep]
  | readDead _ _ hdead =>
    intro hlocal
    rw [hn.live hmem hlocal] at hdead
    cases hdead

end Node

open Node

/-- If the storage agent that `main` starts found no whole bundle for this node, no two stored ones have the
same primary block, and no listener goes away with bundles, then every bundle
that is stored to be delivered, and whose announcement was handled, is on its
way. -/
theorem delivery_kept {n : Node} (h : (node S endpoint found files).Reaches (KeepsDelivery endpoint) n)
    (hfound : ¬ Persists S (LocalWhole endpoint) found) {y : StoredBundle} (hy : y ∈ n.store.bundles)
    (hst : y.state = .deliveryQueued) (hhandled : .eventBundleUpdated y.getRef ∉ n.protocolBox) :
    n.Delivering y.getRef := by
  have hkept := reaches_kept h
  have ho : n.Owned (LocalWhole endpoint) :=
    reaches_owned h (fun pb hwhole hfragment => by have := hfragment.2; simp [hwhole.2] at this) hfound
      (fun _ _ ha => ha.2)
      fun _ _ _ ho ha hl hi hmem => not_lost_local ho ha hl hi hmem
  obtain ⟨p, hp⟩ := ho.item hy ((hkept.sound.entries y hy).deliveryQueued hst)
  have hlocated := located hp
  have hok : p.Ok S endpoint n.parties y.getRef := (hkept.sound.items _ hp).2
  have hqueued {st : State} (h : y.getRef.state = st) (hne : st ≠ .deliveryQueued) : False := hne (h.symm.trans hst)
  cases p with
  | storeBox m =>
    obtain ⟨hm, -⟩ := hlocated
    cases m with
    | updateBundle r st data =>
      obtain ⟨rfl, hok⟩ := hok
      cases st with
      | delivered => exact .handed (.inr ⟨data, hm⟩)
      | received => exact hok.elim
      | valid | defragmentationPending | deliveryQueued | forwardingQueued | invalid => exact (hqueued hok.1 nofun).elim
      | forwarded => exact (hqueued hok nofun).elim
    | fragmentBundle => exact (hqueued hok.2.1 nofun).elim
    | _ => exact hok.elim
  | protocolBox m =>
    obtain ⟨hm, -⟩ := hlocated
    cases m with
    | eventBundleUpdated r =>
      have hr : r = y.getRef := hok
      exact absurd (hr ▸ hm) hhandled
    | eventBundleDelivered =>
      obtain ⟨rfl, -, rfl⟩ := hok
      exact .handed (.inl hm)
    | eventBundleDeliveryFailed =>
      obtain ⟨rfl, -, rfl⟩ := hok
      exact .returned hm
    | eventBundleForwarded k r | eventBundleForwardingFailed k r => exact (hqueued hok.2.1 nofun).elim
    | _ => exact hok.elim
  | localQueue =>
    obtain ⟨queue, hk, hr⟩ := hlocated
    obtain ⟨-, rfl⟩ := hok
    exact .queued hk hr
  | remoteQueue k | agentMailbox a | transfer a => exact (hqueued hok.1 nofun).elim
  | clientMailbox a =>
    obtain ⟨l, hl, hr⟩ := hlocated
    refine .toListener hl (Bool.eq_true_of_not_eq_false fun hstopped => ?_) hr
    rw [(hkept.tidy.listeners a l hl).mailbox hstopped] at hr
    cases hr
  | channel a =>
    obtain ⟨l, hl, hr⟩ := hlocated
    refine .inChannel hl (Bool.eq_true_of_not_eq_false fun hgone => ?_) hr
    rw [(hkept.tidy.listeners a l hl).channel hgone] at hr
    cases hr

/-- Three bytes from `ipn:3.0` to `ipn:1.5`. -/
def parcel : Bundle where
  primaryBlock := ⟨7, ⟨0⟩, .noCRC, .ipn ⟨1, 5⟩, .ipn ⟨3, 0⟩, .ipn ⟨3, 0⟩, ⟨⟨1000⟩, 1⟩, 3600, none, none⟩
  blocks := [⟨.payload ⟨[1, 2, 3]⟩, 1, .empty, .noCRC⟩]

/-- What `ipn:1.0` does when a client listens on `ipn:1.5` and `parcel` is received. -/
def parcelEvents : List NodeEvent :=
  [.storage, .listen 9 (.ipn ⟨1, 5⟩), .protocol [] ⟨0⟩,
    .submit (.storeReceivedBundle (Storage.encoded parcel)), .storage,
    .protocol [] ⟨0⟩, .storage, .protocol [] ⟨0⟩, .storage, .protocol [true] ⟨0⟩, .pass 9]

/-- The bundle is in the channel. -/
theorem delivery_kept_parcel :
    ∃ n, (node .plain (.ipn ⟨1, 0⟩) [] []).Reaches (KeepsDelivery (.ipn ⟨1, 0⟩)) n ∧
      ∃ y ∈ n.store.bundles, y.state = .deliveryQueued ∧ n.Delivering y.getRef := by
  obtain ⟨n, hreaches, y, hy, hst, hhandled⟩ := reaches_any (KeepsDelivery (.ipn ⟨1, 0⟩)) parcelEvents
    (fun n => ∃ y ∈ n.store.bundles, y.state = .deliveryQueued ∧ .eventBundleUpdated y.getRef ∉ n.protocolBox)
    (by decide +kernel)
  exact ⟨n, hreaches, y, hy, hst, delivery_kept hreaches (fun ⟨_, hf, _⟩ => by cases hf) hy hst hhandled⟩

/-- The client hangs up before it reads the bundle: it is stored to be delivered, but nobody has a reference to it. -/
theorem delivery_lost :
    ∃ n, (node .plain (.ipn ⟨1, 0⟩) [] []).Reaches (fun _ _ => True) n ∧ ∃ y ∈ n.store.bundles,
      y.state = .deliveryQueued ∧ .eventBundleUpdated y.getRef ∉ n.protocolBox ∧ ¬ n.Delivering y.getRef := by
  obtain ⟨n, hreaches, hstore, hprotocol, hqueues, hlisteners, y, hy, hst⟩ := reaches_any (fun _ _ => True)
    (parcelEvents ++ [.hangUp 9]) (fun n => n.storeBox = [] ∧ n.protocolBox = [] ∧
      (∀ x ∈ n.protocol.localBundles.entries, x.2 = []) ∧
      (∀ x ∈ n.listeners.entries, x.2.mailbox = [] ∧ x.2.channel = []) ∧
      ∃ y ∈ n.store.bundles, y.state = .deliveryQueued) (by decide +kernel)
  refine ⟨n, hreaches, y, hy, hst, by rw [hprotocol]; exact nofun, fun hdelivering => ?_⟩
  cases hdelivering with
  | queued => grind
  | toListener => grind
  | inChannel => grind
  | returned h =>
    rw [hprotocol] at h
    cases h
  | handed => grind

end Dtn.Dtrd
