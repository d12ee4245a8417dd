import Dtn.Proof.Dtrd.Owned

/-!
# Runs of a node

`node` is a node from its start on, with any events in any order. In every
state of it the references are in order, and actors that have ended hold none
(`reaches_kept`). The references to a class of bundles are those to the stored
ones if the storage agent that `main` starts has found none, they are distinct,
and none is lost (`reaches_owned`).
-/

namespace Dtn.Dtrd

open Dtn.Bp7 Protocol

/-- The node with this endpoint, from its start on the files that its two
storage agents find (they find the same, if nobody else changes the directory),
and then with any events in any order as long as nothing panics. -/
def node (S : Serde) (endpoint : Endpoint) (found files : List (String × List UInt8)) : System Node NodeEvent where
  init n := Node.start S endpoint found files = .ok n
  step n e n' := n'.store.Fits ∧ n.next S e = some n'

variable {S : Serde} {endpoint : Endpoint} {found files : List (String × List UInt8)}

/-! ## Actors that have ended -/

/-- An agent that has ended has no mailbox, and a session that has ended no transfers. -/
structure Session.Tidy (s : Session) : Prop where
  mailbox : s.running = false → s.mailbox = []
  transfers : s.connected = false → s.transfers = []

structure Listener.Tidy (l : Listener) : Prop where
  mailbox : l.running = false → l.mailbox = []
  channel : l.listening = false → l.channel = []

namespace Node

variable {n n' : Node} {e : NodeEvent}
variable {a : Nat} {s : Session} {l : Listener} {commands : List Protocol.Command} {allowed : Node → NodeEvent → Prop}
  {Q : PrimaryBlock → Prop}

structure Tidy (n : Node) : Prop where
  sessions : ∀ a s, (a, s) ∈ n.sessions.entries → s.Tidy
  listeners : ∀ a l, (a, l) ∈ n.listeners.entries → l.Tidy
  apart : ∀ a, n.sessions.get a = none ∨ n.listeners.get a = none

lemma Tidy.withSession (hn : n.Tidy) (hs : s.Tidy) (hl : n.listeners.get a = none) : (n.withSession a s).Tidy := by
  refine ⟨fun a' s' hmem => ?_, hn.listeners, fun a' => ?_⟩
  · rcases Table.mem_insert hmem with h | h
    · cases h
      exact hs
    · exact hn.sessions a' s' h
  · grind [hn.apart, Node.withSession]

lemma Tidy.withListener (hn : n.Tidy) (hl : l.Tidy) (hs : n.sessions.get a = none) : (n.withListener a l).Tidy := by
  refine ⟨hn.sessions, fun a' l' hmem => ?_, fun a' => ?_⟩
  · rcases Table.mem_insert hmem with h | h
    · cases h
      exact hl
    · exact hn.listeners a' l' h
  · grind [hn.apart, Node.withListener]

lemma Tidy.tell (hn : n.Tidy) (m : Message) : (n.tell m).Tidy := ⟨hn.sessions, hn.listeners, hn.apart⟩

lemma Tidy.session (hn : n.Tidy) (hs : n.sessions.get a = some s) : s.Tidy ∧ n.listeners.get a = none :=
  ⟨hn.sessions a s (Table.mem_of_get hs), (hn.apart a).resolve_left (by rw [hs]; exact nofun)⟩

lemma Tidy.listener (hn : n.Tidy) (hl : n.listeners.get a = some l) : l.Tidy ∧ n.sessions.get a = none :=
  ⟨hn.listeners a l (Table.mem_of_get hl), (hn.apart a).resolve_right (by rw [hl]; exact nofun)⟩

lemma Tidy.running_session (hn : n.Tidy) (hs : n.sessions.get a = some s)
    (h : n.running a = true) : s.running = true := by
  rw [running, hs, (hn.session hs).2] at h
  simpa using h

lemma Tidy.running_listener (hn : n.Tidy) (hl : n.listeners.get a = some l)
    (h : n.running a = true) : l.running = true := by
  rw [running, hl, (hn.listener hl).2] at h
  simpa using h

/-- The actor that a command goes to runs. -/
def Arrives (n : Node) : Protocol.Command → Prop
  | .storage _ => True
  | .clientDeliverBundle a _ | .agentForwardBundle a _ => n.running a = true

lemma Tidy.deliver (hn : n.Tidy) (hc : n.Arrives command) : (n.deliver command).Tidy := by
  cases command with
  | storage => exact ⟨hn.sessions, hn.listeners, hn.apart⟩
  | clientDeliverBundle =>
    rw [Node.deliver]
    split
    · rename_i l hl
      obtain ⟨htidy, hs⟩ := hn.listener hl
      have hrunning := hn.running_listener hl hc
      exact hn.withListener ⟨fun h => (Bool.false_ne_true (h.symm.trans hrunning)).elim, htidy.channel⟩ hs
    · exact hn
  | agentForwardBundle =>
    rw [Node.deliver]
    split
    · rename_i s hs
      obtain ⟨htidy, hl⟩ := hn.session hs
      have hrunning := hn.running_session hs hc
      exact hn.withSession ⟨fun h => (Bool.false_ne_true (h.symm.trans hrunning)).elim, htidy.transfers⟩ hl
    · exact hn

lemma running_deliver (n : Node) (command : Protocol.Command) (a : Nat) :
    (n.deliver command).running a = n.running a := by
  cases command with
  | storage => rfl
  | clientDeliverBundle => grind [deliver, running, withListener]
  | agentForwardBundle => grind [deliver, running, withSession]

lemma Tidy.foldl_deliver (hn : n.Tidy) (hc : ∀ c ∈ commands, n.Arrives c) : (commands.foldl Node.deliver n).Tidy := by
  induction commands generalizing n with
  | nil => exact hn
  | cons _ _ ih =>
    obtain ⟨hcommand, hcommands⟩ := List.forall_mem_cons.mp hc
    refine ih (hn.deliver hcommand) fun c h => ?_
    have hc := hcommands c h
    cases c with
    | storage => trivial
    | clientDeliverBundle | agentForwardBundle => exact (running_deliver ..).trans hc

lemma arrives_of_handle (h : n.protocol.handle S (n.world now) accepts m = .ok (d, commands)) :
    ∀ c ∈ commands, n.Arrives c := by
  intro c hc
  obtain ⟨hpending, -⟩ := handle_pending h
  cases c with
  | storage => trivial
  | clientDeliverBundle a r => exact hpending.deliver a r hc
  | agentForwardBundle a r => exact (hpending.forward a r hc).1

lemma Step.tidy (h : Step S n e n') (hn : n.Tidy) : n'.Tidy := by
  cases h with
  | idle => exact hn
  | submit | notify | start | storage | release => exact ⟨hn.sessions, hn.listeners, hn.apart⟩
  | connect _ hl => exact hn.withSession ⟨nofun, nofun⟩ hl
  | listen hs =>
    refine Tidy.tell (hn.withListener ?_ hs) _
    exact ⟨nofun, nofun⟩
  | @protocol _ _ _ _ _ _ _ h =>
    refine Tidy.foldl_deliver ⟨hn.sessions, hn.listeners, hn.apart⟩ fun c hc => ?_
    have harrives := arrives_of_handle h c hc
    cases c with
    | storage => trivial
    | clientDeliverBundle | agentForwardBundle => exact harrives
  | take hs hbox hconnected =>
    obtain ⟨htidy, hl⟩ := hn.session hs
    refine hn.withSession ⟨fun h => ?_, fun h => (Bool.false_ne_true (h.symm.trans hconnected)).elim⟩ hl
    cases hbox.symm.trans (htidy.mailbox h)
  | takeDead hs hbox =>
    obtain ⟨htidy, hl⟩ := hn.session hs
    refine hn.withSession ⟨fun h => ?_, htidy.transfers⟩ hl
    cases hbox.symm.trans (htidy.mailbox h)
  | takeClosed hs | stopAgent hs =>
    obtain ⟨htidy, hl⟩ := hn.session hs
    exact hn.withSession ⟨fun _ => rfl, htidy.transfers⟩ hl
  | sent hs hr | failed hs hr =>
    obtain ⟨htidy, hl⟩ := hn.session hs
    refine Tidy.tell (hn.withSession ?_ hl) _
    exact ⟨htidy.mailbox, fun h => by rw [htidy.transfers h] at hr; cases hr⟩
  | disconnect hs =>
    obtain ⟨htidy, hl⟩ := hn.session hs
    exact hn.withSession ⟨htidy.mailbox, fun _ => rfl⟩ hl
  | pass hl hbox hlistening =>
    obtain ⟨htidy, hs⟩ := hn.listener hl
    refine hn.withListener ⟨fun h => ?_, fun h => (Bool.false_ne_true (h.symm.trans hlistening)).elim⟩ hs
    cases hbox.symm.trans (htidy.mailbox h)
  | passClosed hl =>
    obtain ⟨htidy, hs⟩ := hn.listener hl
    refine Tidy.tell (hn.withListener ?_ hs) _
    exact ⟨fun _ => rfl, htidy.channel⟩
  | read hl hchannel =>
    obtain ⟨htidy, hs⟩ := hn.listener hl
    refine Tidy.tell (hn.withListener ?_ hs) _
    exact ⟨htidy.mailbox, fun h => by cases hchannel.symm.trans (htidy.channel h)⟩
  | readDead hl hchannel =>
    obtain ⟨htidy, hs⟩ := hn.listener hl
    exact hn.withListener ⟨htidy.mailbox, fun h => by cases hchannel.symm.trans (htidy.channel h)⟩ hs
  | hangUp hl =>
    obtain ⟨htidy, hs⟩ := hn.listener hl
    exact hn.withListener ⟨htidy.mailbox, fun _ => rfl⟩ hs
  | stopListener hl =>
    obtain ⟨htidy, hs⟩ := hn.listener hl
    exact hn.withListener ⟨fun _ => rfl, htidy.channel⟩ hs

/-! ## Runs -/

/-- What holds in every state of a run. -/
structure Kept (S : Serde) (endpoint : Endpoint) (files : List (String × List UInt8)) (n : Node) : Prop where
  sound : n.Sound S endpoint
  tidy : n.Tidy
  unstarted : n.Unstarted files

lemma start_eq_ok (h : Node.start S endpoint found files = .ok n) :
    ∃ sbs, Storage.Daemon.load S files.length found = .ok sbs ∧
    n = ⟨⟨[], endpoint, none, 0, found.length⟩, [], .new endpoint,
      sbs.map fun sb => .eventBundleUpdated sb.getRef, .empty, .empty,
      sbs, some files⟩ := by
  obtain ⟨sbs, hsbs, h⟩ := Outcome.bind_eq_ok.mp h
  cases h
  exact ⟨sbs, hsbs, rfl⟩

lemma items_start (sbs : List StoredBundle) :
    Node.items ⟨⟨[], endpoint, none, 0, found.length⟩, [], .new endpoint, sbs.map fun sb =>
      .eventBundleUpdated sb.getRef, .empty,
      .empty, sbs, some files⟩ = ((sbs.map fun y => Message.eventBundleUpdated y.getRef).map Message.items).sum := by
  simp [items, Daemon.items, Daemon.new, queueItems]

lemma start_kept (h : Node.start S endpoint found files = .ok n) : n.Kept S endpoint files := by
  obtain ⟨_, hsbs, rfl⟩ := start_eq_ok h
  refine ⟨⟨⟨⟨rfl, fun _ _ => nofun, fun _ _ => nofun⟩, fun m hm => ?_⟩, fun i hi => ?_, List.forall_mem_nil _⟩,
    ⟨fun _ _ => nofun, fun _ _ => nofun, fun _ => .inl rfl⟩, fun files' h => ⟨Option.some.inj h.symm, rfl⟩⟩
  · obtain ⟨_, -, rfl⟩ := List.mem_map.mp hm
    trivial
  · rw [items_start] at hi
    obtain ⟨y, hy, rfl⟩ := mem_items_announced hi
    exact ⟨refOk_loaded hsbs y hy, rfl⟩

lemma Step.unstarted (h : Step S n e n') (hn : n.Unstarted files) : n'.Unstarted files := by
  by_cases he : e = .storage
  · cases h with
    | idle => exact hn
    | start => exact fun _ => nofun
    | storage hstarted => exact fun files' h => by cases hstarted.symm.trans h
    | _ => cases he
  · obtain ⟨hstore, hpersisted, -⟩ := h.frame he
    unfold Unstarted
    rw [hstore, hpersisted]
    exact hn

lemma Step.kept (h : Step S n e n') (hfit : n'.store.Fits) (hn : n.Kept S endpoint files) :
    n'.Kept S endpoint files :=
  ⟨h.sound hfit hn.sound, h.tidy hn.tidy, h.unstarted hn.unstarted⟩

lemma reaches_kept (h : (node S endpoint found files).Reaches allowed n) : n.Kept S endpoint files := by
  refine h.invariant (·.Kept S endpoint files) (fun n h => start_kept h) fun n e n' hn _ h => ?_
  exact (next_step h.2).kept h.1 hn

/-- No event adds a second reference to a bundle of the class, if those that are stored are distinct. -/
lemma Step.covered (h : Step S n e n') (hn : n.Kept S endpoint files)
    (hfragments : ∀ pb, Q pb → ¬ LocalFragment endpoint pb) (hd : n.Distinct Q) (hc : n.Covered Q) : n'.Covered Q := by
  by_cases he : e = .storage
  · subst he
    exact h.covered_storage hn.sound hfragments hd hn.unstarted hc
  · exact h.covered_outside he hn.sound hc

/-- Some file has a bundle of this class. -/
def Persists (S : Serde) (Q : PrimaryBlock → Prop) (files : List (String × List UInt8)) : Prop :=
  ∃ f ∈ files, ∃ b, Bundle.tryFrom S f.2 = .ok b ∧ Q b.primaryBlock

/-- At the start there are no references to bundles of a class of which none was found. -/
lemma start_owned (h : Node.start S endpoint found files = .ok n) (hfound : ¬ Persists S Q found) : n.Owned Q := by
  obtain ⟨_, hsbs, rfl⟩ := start_eq_ok h
  intro r hQ
  rw [items_start, items_announced]
  refine (Multiset.coe_count _ _).trans (List.count_eq_zero.mpr fun hmem => ?_)
  obtain ⟨_, hy, rfl⟩ := List.mem_map.mp hmem
  obtain ⟨⟨b, hb⟩, -, f, hf, hdata⟩ := Storage.loaded hsbs hy
  exact hfound ⟨f, hf, b, by rw [← hdata]; exact hb.decoded, by rw [← hb.primaryBlock]; exact hQ⟩

lemma reaches_owned (h : (node S endpoint found files).Reaches allowed n)
    (hfragments : ∀ pb, Q pb → ¬ LocalFragment endpoint pb) (hfound : ¬ Persists S Q found)
    (hdistinct : ∀ n e, allowed n e → n.Distinct Q)
    (hlost : ∀ n e i, n.Owned Q → allowed n e → Loses n e i → ItemOk S endpoint n.parties i →
      i.2 ∈ n.items.map Prod.snd → ¬ Q i.2.primaryBlock) : n.Owned Q := by
  refine (h.invariant (fun n => n.Kept S endpoint files ∧ n.Owned Q) (fun n h => ⟨start_kept h, start_owned h hfound⟩)
    fun n e n' hn ha h => ?_).2
  obtain ⟨hkept, ho⟩ := hn
  have hstep := next_step h.2
  refine ⟨hstep.kept h.1 hkept, ?_⟩
  by_cases he : e = .storage
  · subst he
    exact hstep.owned_storage hkept.sound hfragments (hdistinct n _ ha) hkept.unstarted ho
  · exact hstep.owned_outside he hkept.sound ho fun i => hlost n e i ho ha

/-- The node after some events, if all of them are allowed. -/
def run (S : Serde) (allowed : Node → NodeEvent → Prop) [∀ n e, Decidable (allowed n e)] (n : Node)
    (events : List NodeEvent) : Option Node :=
  events.foldlM (fun n e => if allowed n e then (n.next S e).filter (·.store.Fits) else none) n

lemma reaches_run [∀ n e, Decidable (allowed n e)] {P : Node → Prop} [DecidablePred P]
    (hn : (node S endpoint found files).Reaches allowed n) (h : (n.run S allowed events).any (P ·) = true) :
    ∃ n', (node S endpoint found files).Reaches allowed n' ∧ P n' := by
  refine hn.foldlM_any (fun n e n' h => ?_) _ _ h
  split at h <;> [rename_i ha; cases h]
  obtain ⟨h, hfits⟩ := Option.filter_eq_some_iff.mp h
  exact ⟨ha, of_decide_eq_true hfits, h⟩

/-- The event and what it adds to a log, if it is allowed. -/
def loggedNext {L : Type} (S : Serde) (allowed : Node × L → NodeEvent → Prop) [∀ q e, Decidable (allowed q e)]
    (log : Node × L → NodeEvent → Node → L) (q : Node × L) (e : NodeEvent) : Option (Node × L) :=
  if allowed q e then ((q.1.next S e).filter (·.store.Fits)).map fun n' => (n', log q e n') else none

lemma loggedNext_eq_some {L : Type} {allowed : Node × L → NodeEvent → Prop} [∀ q e, Decidable (allowed q e)]
    {log : Node × L → NodeEvent → Node → L} {q q' : Node × L} (h : loggedNext S allowed log q e = some q') :
    allowed q e ∧ (q'.1.store.Fits ∧ q.1.next S e = some q'.1) ∧ q'.2 = log q e q'.1 := by
  rw [loggedNext] at h
  split at h <;> [rename_i ha; cases h]
  obtain ⟨n', hn', rfl⟩ := Option.map_eq_some_iff.mp h
  obtain ⟨hnext, hfits⟩ := Option.filter_eq_some_iff.mp hn'
  exact ⟨ha, ⟨of_decide_eq_true hfits, hnext⟩, rfl⟩

end Node

/-- The node `ipn:1.0` with nothing persisted. -/
def emptyNode : Node := ⟨⟨[], .ipn ⟨1, 0⟩, none, 0, 0⟩, [], .new (.ipn ⟨1, 0⟩), [], .empty, .empty, [], some []⟩

lemma start_emptyNode : Node.start .plain (.ipn ⟨1, 0⟩) [] [] = .ok emptyNode := rfl

lemma reaches_any (allowed : Node → NodeEvent → Prop) [∀ n e, Decidable (allowed n e)] (events : List NodeEvent)
    (P : Node → Prop) [DecidablePred P] (h : (emptyNode.run .plain allowed events).any (P ·) = true) :
    ∃ n, (node .plain (.ipn ⟨1, 0⟩) [] []).Reaches allowed n ∧ P n :=
  Node.reaches_run (.init start_emptyNode) h

end Dtn.Dtrd
