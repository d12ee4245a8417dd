import Dtn.Impl.Dtrd.Remote
import Dtn.Proof.Dtrd.Protocol

/-!
# The loop over the queue of a node

`pass` says what one pass over a queue does, by recursion on the part of it that
was not looked at yet. The loop on the queue itself ends and has done just that
(`loop_pass`), and so has the loop of `Context.deliverRemoteBundles`
(`deliverRemoteBundles_attempt`). From `pass`: no reference is lost or doubled
(`deliverRemoteBundles_conserves`); all that can be sent is sent unless the loop
meets an id twice too early (`deliverRemoteBundles_complete_iff`); a peer that is
gone is disconnected if it is the destination itself
(`deliverRemoteBundles_disconnects_iff`).
-/

namespace Dtn.Dtrd.Protocol

open List Outcome Option Dtn.Bp7 Context Attempt Table

variable {w : World} {sender : Nat} {limit : Option UInt64} {destination : Endpoint}
variable {r : StoredBundleRef} {mbs : UInt64} {n : Nat} {a : Attempt} {back queue : List StoredBundleRef} {d : Daemon}
  {node : Endpoint} {results : List SendResult} {visited : List String} {route : NexthopInfo}

/-- The bundle is too large, and it must not or cannot be fragmented far enough. -/
def unsendable (limit : Option UInt64) (r : StoredBundleRef) : Bool :=
  (tooLarge limit r).any fun mbs =>
    r.primaryBlock.bundleProcessingFlags.contains .mustNotFragment || r.minSize.any (· > mbs)

/-- The bundles among the commands that go to a peer. -/
def forwarded (sent : List Command) : List StoredBundleRef := sent.filterMap fun
  | .agentForwardBundle _ r => some r
  | _ => none

/-- The bundles among the commands that are to be fragmented. -/
def fragmented (sent : List Command) : List StoredBundleRef := sent.filterMap fun
  | .storage (.fragmentBundle r _) => some r
  | _ => none

/-! ## One pass -/

/-- What the loop does: the queue that it leaves, what it sends, and its calls of `try_send`. -/
structure Pass where
  queue : List StoredBundleRef
  sent : List Command
  offered : List (StoredBundleRef × SendResult)

namespace Pass

def fragment (p : Pass) (r : StoredBundleRef) (mbs : UInt64) : Pass :=
  { p with sent := .storage (.fragmentBundle r mbs) :: p.sent }

def forward (p : Pass) (sender : Nat) (r : StoredBundleRef) : Pass :=
  { p with sent := .agentForwardBundle sender r :: p.sent, offered := (r, .ok) :: p.offered }

/-- Some call found the peer gone. -/
def closed (p : Pass) : Bool := p.offered.any (·.2 = .closed)

/-- The agent after the pass. -/
def daemon (p : Pass) (destination : Endpoint) (d : Daemon) : Daemon :=
  { d with
    remoteBundles := d.remoteBundles.insert destination p.queue
    bundlesPendingForwarding := (forwarded p.sent).foldl (fun pending r =>
      pending.insert destination (pending.list destination ++ [r])) d.bundlesPendingForwarding
    remoteConnections := if p.closed then d.remoteConnections.remove destination else d.remoteConnections }

end Pass

/-- The pass over a queue, where `back` are the bundles pushed back already and `visited` are their ids. -/
def pass (sender : Nat) (limit : Option UInt64) : (visited : List String) → (back : List StoredBundleRef) →
    (results : List SendResult) → List StoredBundleRef → Pass
  | _, back, _, [] => ⟨back, [], []⟩
  | visited, back, results, r :: queue =>
    if visited.contains r.getId then ⟨r :: queue ++ back, [], []⟩
    else if unsendable limit r then pass sender limit (r.getId :: visited) (back ++ [r]) results queue
    else
      match tooLarge limit r with
      | some mbs => (pass sender limit visited back results queue).fragment r mbs
      | none =>
        match results.headD .full with
        | .ok => (pass sender limit visited back results.tail queue).forward sender r
        | result => ⟨queue ++ back ++ [r], [], [(r, result)]⟩

/-- The attempt has made the pass. -/
structure Pass.Done (p : Pass) (destination : Endpoint) (a a' : Attempt) : Prop where
  daemon : a'.daemon = p.daemon destination a.daemon
  sent : a'.sent = a.sent ++ p.sent
  offered : a'.offered = a.offered ++ p.offered

lemma unsendable_of_tooLarge (h : tooLarge limit r = some mbs) :
    unsendable limit r =
      (r.primaryBlock.bundleProcessingFlags.contains .mustNotFragment || r.minSize.any (· > mbs)) := by
  rw [unsendable, h, any_some]

lemma unsendable_of_fits (h : tooLarge limit r = none) : unsendable limit r = false := by
  rw [unsendable, h, any_none]

/-- The attempt after the bundle was offered and the mailbox had room. -/
def Attempt.passOn (a : Attempt) (destination : Endpoint) (sender : Nat) (r : StoredBundleRef) : Attempt :=
  let pending := a.daemon.bundlesPendingForwarding
  { a with
    daemon.bundlesPendingForwarding := pending.insert destination (pending.list destination ++ [r])
    results := a.results.tail
    sent := a.sent ++ [.agentForwardBundle sender r]
    offered := a.offered ++ [(r, .ok)] }

namespace Pass.Done

variable {p : Pass} {a a' : Attempt} {r : StoredBundleRef} {queue : List StoredBundleRef}

/-- A queue that is put back is all that has changed. -/
lemma idle (destination : Endpoint) (a : Attempt) (queue : List StoredBundleRef) :
    Pass.Done ⟨queue, [], []⟩ destination a (a.withQueue destination queue) :=
  ⟨rfl, (append_nil _).symm, (append_nil _).symm⟩

lemma of_withQueue (h : p.Done destination (a.withQueue destination queue) a') : p.Done destination a a' :=
  ⟨by rw [h.daemon]; simp only [Pass.daemon, withQueue, insert_insert], h.sent, h.offered⟩

lemma fragment (h : p.Done destination (a.send (.storage (.fragmentBundle r mbs))) a') :
    (p.fragment r mbs).Done destination a a' :=
  ⟨h.daemon, by rw [h.sent, Attempt.send, append_assoc]; rfl, h.offered⟩

lemma forward (h : p.Done destination (a.passOn destination sender r) a') :
    (p.forward sender r).Done destination a a' :=
  ⟨h.daemon, by rw [h.sent, passOn, append_assoc]; rfl,
    by rw [h.offered, passOn, append_assoc]; rfl⟩

end Pass.Done

section

variable {a : Attempt} {r : StoredBundleRef} (hvisited : ¬ a.visited.contains r.getId = true)
  (queue : List StoredBundleRef)

include hvisited

lemma body_unsendable (h : unsendable limit r = true) : a.body destination sender limit r queue =
    ({ a.withQueue destination (queue ++ [r]) with visited := r.getId :: a.visited }, true) := by
  grind [unsendable_of_fits, unsendable_of_tooLarge, body]

lemma body_fragment (h : ¬ unsendable limit r = true) (hlarge : tooLarge limit r = some mbs) :
    a.body destination sender limit r queue =
      ((a.withQueue destination queue).send (.storage (.fragmentBundle r mbs)), true) := by
  grind [unsendable_of_tooLarge, body]

/-- A bundle that is not too large is offered to the peer. -/
lemma body_offer (hlarge : tooLarge limit r = none) : a.body destination sender limit r queue =
    match a.results.headD .full with
    | .ok => ((a.withQueue destination queue).passOn destination sender r, true)
    | result => ({ a.withQueue destination (queue ++ [r]) with
        daemon.remoteConnections :=
          if result = .closed then a.daemon.remoteConnections.remove destination else a.daemon.remoteConnections,
        results := a.results.tail, offered := a.offered ++ [(r, result)] }, false) := by
  rw [body, if_neg hvisited, hlarge]
  simp only [Attempt.trySend]
  cases hresult : a.results.headD .full with
  | ok => simp only [Attempt.withQueue, hresult]; rfl
  | full | closed => simp only [Attempt.withQueue, hresult, insert_insert]; rfl

end

/-- The loop ends when it has seen each bundle once. -/
lemma loop_pass (hqueue : a.daemon.remoteBundles.get destination = some (queue ++ back))
    (hback : ∀ r ∈ back, r.getId ∈ a.visited) (hn : queue.length < n) :
    ∃ a', loop destination sender limit n a = some a' ∧
      (pass sender limit a.visited back a.results queue).Done destination a a' := by
  obtain ⟨n, rfl⟩ : ∃ k, n = k + 1 := ⟨n - 1, by omega⟩
  induction queue generalizing n a back with
  | nil =>
    have hself : a.withQueue destination back = a := by
      rw [nil_append] at hqueue
      rw [withQueue, insert_self hqueue]
    rw [loop, list, hqueue, pass]
    cases back with
    | nil => grind [Pass.Done.idle]
    | cons r back =>
      -- the first bundle that was pushed back ends the loop
      refine ⟨a.withQueue destination (r :: back), ?_, .idle destination a _⟩
      simp [body, hback r mem_cons_self]
  | cons r queue ih =>
    obtain ⟨n, rfl⟩ : ∃ k, n = k + 1 := ⟨n - 1, by simp only [length_cons] at hn; omega⟩
    have hlist : a.daemon.remoteBundles.list destination = r :: (queue ++ back) := by
      rw [list, hqueue]
      rfl
    have hget : ∀ queue', (a.withQueue destination queue').daemon.remoteBundles.get destination = some queue' :=
      fun queue' => get_insert_self ..
    replace hn : queue.length < n + 1 := Nat.lt_of_succ_lt_succ hn
    rw [loop, hlist, pass]
    dsimp only
    by_cases hvisited : a.visited.contains r.getId = true
    · rw [if_pos hvisited, body, if_pos hvisited]
      exact ⟨_, rfl, .idle destination a _⟩
    rw [if_neg hvisited]
    by_cases hunsendable : unsendable limit r = true
    · have hback' : ∀ x ∈ back ++ [r], x.getId ∈ r.getId :: a.visited := by grind
      rw [if_pos hunsendable, body_unsendable hvisited _ hunsendable]
      obtain ⟨a', hloop, hdone⟩ := ih (a := { a.withQueue destination (queue ++ back ++ [r]) with
        visited := r.getId :: a.visited }) (by rw [← append_assoc]; exact hget _) hback' n hn
      exact ⟨a', hloop, .of_withQueue ⟨hdone.daemon, hdone.sent, hdone.offered⟩⟩
    rw [if_neg hunsendable]
    cases hlarge : tooLarge limit r with
    | some mbs =>
      rw [body_fragment hvisited _ hunsendable hlarge]
      obtain ⟨a', hloop, hdone⟩ := ih (a := (a.withQueue destination (queue ++ back)).send
        (.storage (.fragmentBundle r mbs))) (hget _) hback n hn
      exact ⟨a', hloop, .of_withQueue hdone.fragment⟩
    | none =>
      rw [body_offer hvisited _ hlarge]
      cases hresult : a.results.headD .full with
      | ok =>
        obtain ⟨a', hloop, hdone⟩ := ih (a := (a.withQueue destination (queue ++ back)).passOn destination sender r)
          (hget _) hback n hn
        exact ⟨a', hloop, .of_withQueue hdone.forward⟩
      | full | closed => exact ⟨_, rfl, rfl, (append_nil _).symm, rfl⟩

lemma loop_mono (h : loop destination sender limit n a = some a') (hnm : n ≤ m) :
    loop destination sender limit m a = some a' := by
  induction n generalizing m a with
  | zero => cases h
  | succ =>
    obtain ⟨m, rfl⟩ : ∃ k, m = k + 1 := ⟨m - 1, by omega⟩
    rw [loop] at h ⊢
    split at h
    · exact h
    · grind

/-- With a way to the node and a queue for it, the pass over the queue is made. -/
lemma attempt_pass (results : List SendResult)
    (hnode : destination.getNodeEndpoint = (.ok node : Outcome Empty Endpoint))
    (hnext : nextHop d node = some (sender, limit)) (hqueue : d.remoteBundles.get node = some queue) :
    ∃ a, (∀ n, queue.length < n → Attempt.deliverRemoteBundles n d results destination = .ok (some a)) ∧
      (pass sender limit [] [] results queue).Done node (.start d results) a := by
  obtain ⟨a, hloop, hdone⟩ := @loop_pass sender limit node _ (.start d results) [] queue
    (hqueue.trans (by rw [append_nil])) (forall_mem_nil _) (Nat.lt_succ_self _)
  refine ⟨a, fun n hn => ?_, hdone⟩
  rw [Attempt.deliverRemoteBundles, hnode, ok_bind, hnext, hqueue]
  exact congrArg Outcome.ok (loop_mono hloop hn)

lemma deliverRemoteBundles_mono (h : deliverRemoteBundles n d results destination = .ok (some a))
    (hnm : n ≤ m) : deliverRemoteBundles m d results destination = .ok (some a) := by
  grind [loop_mono, Attempt.deliverRemoteBundles]

lemma attempt_done (h : deliverRemoteBundles n d results destination = .ok (some a))
    (hnode : destination.getNodeEndpoint = (.ok node : Outcome Empty Endpoint))
    (hnext : nextHop d node = some (sender, limit)) (hqueue : d.remoteBundles.get node = some queue) :
    (pass sender limit [] [] results queue).Done node (.start d results) a := by
  obtain ⟨_, hdeliver, hdone⟩ := attempt_pass results hnode hnext hqueue
  have heq := (deliverRemoteBundles_mono h (Nat.le_max_left n (queue.length + 1))).symm.trans
    (hdeliver _ (Nat.le_max_right n (queue.length + 1)))
  cases heq
  exact hdone

lemma attempt_idle (results : List SendResult)
    (hnode : destination.getNodeEndpoint = (.ok node : Outcome Empty Endpoint))
    (h : nextHop d node = none ∨ d.remoteBundles.get node = none) (n : Nat) :
    deliverRemoteBundles n d results destination = .ok (some (.start d results)) := by
  grind [Attempt.deliverRemoteBundles]

/-! ## The same with agents that do not stop in between -/

/-- What `try_send` gives if the actor does not stop, or has stopped already. -/
def outcomes (w : World) (sender : Nat) (accepts : List Bool) : List SendResult :=
  if w.running sender then accepts.map fun accepted => if accepted then .ok else .full else [.closed]

lemma trySend_outcomes (w : World) (sender : Nat) (c : Context) :
    (c.trySend w sender).1 = (outcomes w sender c.accepts).headD .full ∧
      (w.running sender = true → outcomes w sender (c.trySend w sender).2.accepts =
        (outcomes w sender c.accepts).tail) := by grind [Context.trySend, outcomes]

lemma remoteLoop_pass (w : World) (destination : Endpoint) (sender : Nat) (limit : Option UInt64)
    (visited : List String) (back queue : List StoredBundleRef) (c : Context) :
    ∃ c', remoteLoop w destination sender limit visited back queue c =
        .ok (c', (pass sender limit visited back (outcomes w sender c.accepts) queue).queue) ∧
      (c'.withRemote destination (pass sender limit visited back (outcomes w sender c.accepts) queue).queue).daemon =
        (pass sender limit visited back (outcomes w sender c.accepts) queue).daemon destination c.daemon ∧
      c'.sent = c.sent ++ (pass sender limit visited back (outcomes w sender c.accepts) queue).sent := by
  induction queue generalizing visited back c with
  | nil => exact ⟨c, rfl, rfl, (append_nil _).symm⟩
  | cons r _ ih =>
    rw [remoteLoop, pass]
    by_cases hvisited : visited.contains r.getId = true
    · rw [if_pos hvisited, if_pos hvisited]
      exact ⟨c, rfl, rfl, (append_nil _).symm⟩
    rw [if_neg hvisited, if_neg hvisited]
    cases hlarge : tooLarge limit r with
    | some mbs =>
      rw [unsendable_of_tooLarge hlarge]
      dsimp only
      split
      · exact ih _ _ _
      · obtain ⟨c', hloop, hdaemon, hsent⟩ := ih visited back (c.send (.storage (.fragmentBundle r mbs)))
        refine ⟨c', hloop, hdaemon, ?_⟩
        rw [hsent, Context.send, append_assoc]
        rfl
    | none =>
      rw [unsendable_of_fits hlarge, if_neg Bool.false_ne_true]
      obtain ⟨hresult, htail⟩ := trySend_outcomes w sender c
      cases htry : c.trySend w sender with
      | mk result c1 =>
      obtain ⟨hd, hs, hrunning, -⟩ := trySend_eq htry
      rw [htry] at hresult htail
      rw [← hresult]
      cases result with
      | ok =>
        obtain ⟨c', hloop, hdaemon, hsent⟩ := ih visited back { c1.send (.agentForwardBundle sender r) with
          daemon.bundlesPendingForwarding := c1.daemon.bundlesPendingForwarding.insert destination
            (c1.daemon.bundlesPendingForwarding.list destination ++ [r]) }
        replace htail : outcomes w sender c1.accepts = (outcomes w sender c.accepts).tail := htail (hrunning rfl)
        simp only [Context.send, htail] at hloop hdaemon hsent
        refine ⟨c', hloop, ?_, ?_⟩
        · rwa [hd] at hdaemon
        · rw [hsent, hs, append_assoc]
          rfl
      | full =>
        refine ⟨c1, rfl, ?_, by rw [hs]; exact (append_nil _).symm⟩
        rw [Context.withRemote, hd]
        rfl
      | closed =>
        refine ⟨_, rfl, ?_, by rw [← hs]; exact (append_nil _).symm⟩
        rw [Context.withRemote, hd]
        rfl

/-- Where the agents do not stop in between, `Context.deliverRemoteBundles` is an attempt. -/
lemma deliverRemoteBundles_attempt {c c' : Context} (h : c.deliverRemoteBundles w destination = .ok c')
    (hnode : destination.getNodeEndpoint = (.ok node : Outcome Empty Endpoint)) :
    ∃ results a, (∀ n, (c.daemon.remoteBundles.list node).length < n →
        deliverRemoteBundles n c.daemon results destination = .ok (some a)) ∧
      c'.daemon = a.daemon ∧ c'.sent = c.sent ++ a.sent := by
  rw [Context.deliverRemoteBundles, hnode, ok_bind] at h
  cases hnext : nextHop c.daemon node with
  | none =>
    rw [hnext] at h
    cases h
    exact ⟨[], _, fun n _ => attempt_idle [] hnode (.inl hnext) n, rfl, (append_nil _).symm⟩
  | some next =>
    obtain ⟨sender, limit⟩ := next
    cases hqueue : c.daemon.remoteBundles.get node with
    | none =>
      rw [hnext, hqueue] at h
      cases h
      exact ⟨[], _, fun n _ => attempt_idle [] hnode (.inr hqueue) n, rfl, (append_nil _).symm⟩
    | some queue =>
      obtain ⟨a, hdeliver, hdone⟩ := attempt_pass (outcomes w sender c.accepts) hnode hnext hqueue
      obtain ⟨_, hloop, hdaemon, hsent⟩ := remoteLoop_pass w node sender limit [] [] queue c
      rw [hnext, hqueue] at h
      dsimp only at h
      rw [hloop] at h
      cases h
      refine ⟨_, a, fun n hn => hdeliver n (by rw [list, hqueue] at hn; exact hn), ?_, ?_⟩
      · rw [hdone.daemon]
        exact hdaemon
      · rw [hdone.sent]
        exact hsent

/-! ## Conservation -/

section

variable (visited : List String) (back : List StoredBundleRef) (results : List SendResult)
    (queue : List StoredBundleRef)

lemma pass_perm : ((pass sender limit visited back results queue).queue ++
    (forwarded (pass sender limit visited back results queue).sent ++
      fragmented (pass sender limit visited back results queue).sent)).Perm (queue ++ back) := by
  fun_induction pass with
  | case1 | case2 => simp [forwarded, fragmented]
  | case3 => grind
  | case4 _ _ _ r _ _ _ _ _ ih =>
    refine List.Perm.trans ?_ (ih.cons r)
    rw [← append_assoc, ← append_assoc]
    exact perm_middle
  | case5 _ _ _ r _ _ _ _ _ ih => exact perm_middle.trans (ih.cons r)
  | case6 => grind [forwarded, fragmented]

/-- Each bundle of the queue is offered once at most, in the order of the queue. -/
lemma pass_offered : ((pass sender limit visited back results queue).offered.map (·.1)).Sublist queue := by
  fun_induction pass with
  | case1 => exact .slnil
  | case2 => exact nil_sublist _
  | case3 _ _ _ r _ _ _ ih | case4 _ _ _ r _ _ _ _ _ ih => exact ih.cons r
  | case5 _ _ _ r _ _ _ _ _ ih => exact ih.cons_cons r
  | case6 _ _ _ r queue => exact (nil_sublist queue).cons_cons r

lemma pass_fragmented (h : .storage (.fragmentBundle r mbs) ∈ (pass sender limit visited back results queue).sent) :
    tooLarge limit r = some mbs ∧ unsendable limit r = false := by
  fun_induction pass with
  | case1 | case2 | case6 => cases h
  | case3 _ _ _ _ _ _ _ ih => exact ih h
  | case4 _ _ _ _ _ _ _ _ _ ih =>
    rcases mem_cons.mp h with heq | h
    · grind
    · exact ih h
  | case5 _ _ _ _ _ _ _ _ _ ih =>
    rcases mem_cons.mp h with heq | h
    · cases heq
    · exact ih h

/-- What cannot be sent stays in the queue. -/
lemma mem_pass_of_unsendable (hr : unsendable limit r = true) (h : r ∈ queue ++ back) :
    r ∈ (pass sender limit visited back results queue).queue := by
  fun_induction pass with
  | case1 | case2 => exact h
  | case3 => grind
  | case4 visited back results r' queue _ hsendable mbs _ ih
  | case5 _ _ _ _ _ _ hsendable _ _ ih =>
    rcases mem_cons.mp h with rfl | h
    · exact absurd hr hsendable
    · exact ih h
  | case6 => exact perm_append_comm.mem_iff.mp h

end

lemma list_push (destination : Endpoint) (rs : List StoredBundleRef)
    (pending : Table Endpoint (List StoredBundleRef)) :
    (rs.foldl (fun pending r => pending.insert destination (pending.list destination ++ [r])) pending).list
      destination = pending.list destination ++ rs := by
  induction rs generalizing pending with
  | nil => exact (append_nil _).symm
  | cons _ _ ih => rw [foldl_cons, ih, list_insert, if_pos rfl, append_assoc, singleton_append]

lemma get_push_of_ne (he : e ≠ destination) (rs : List StoredBundleRef)
    (pending : Table Endpoint (List StoredBundleRef)) :
    (rs.foldl (fun pending r => pending.insert destination (pending.list destination ++ [r])) pending).get e =
      pending.get e := by
  induction rs generalizing pending with
  | nil => rfl
  | cons _ _ ih => rw [foldl_cons, ih, get_insert, if_neg he.symm]

/-- What was queued for the node is still queued, or is pending now, or is to be fragmented. -/
structure Conserves (d : Daemon) (node : Endpoint) (a : Attempt) : Prop where
  refs : ∃ pending, a.daemon.bundlesPendingForwarding.list node = d.bundlesPendingForwarding.list node ++ pending ∧
    (a.daemon.remoteBundles.list node ++ (pending ++ fragmented a.sent)).Perm (d.remoteBundles.list node)
  offered : (a.offered.map (·.1)).Subperm (d.remoteBundles.list node)
  fragmented : ∀ r mbs, .storage (.fragmentBundle r mbs) ∈ a.sent →
    (∃ sender, nextHop d node = some (sender, some mbs)) ∧
    mbs < r.size ∧ r.primaryBlock.bundleProcessingFlags.contains .mustNotFragment = false
  others : ∀ e ≠ node, a.daemon.remoteBundles.get e = d.remoteBundles.get e ∧
    a.daemon.bundlesPendingForwarding.get e = d.bundlesPendingForwarding.get e

lemma Conserves.start (d : Daemon) (node : Endpoint) (results : List SendResult) : Conserves d node
    (.start d results) where
  refs := ⟨[], (append_nil _).symm, by simp [Attempt.start, Protocol.fragmented]⟩
  offered := nil_subperm
  fragmented r mbs h := by cases h
  others e he := ⟨rfl, rfl⟩

lemma Pass.Done.conserves (h : (pass sender limit [] [] results queue).Done node (.start d results) a)
    (hnext : nextHop d node = some (sender, limit)) (hqueue : d.remoteBundles.get node = some queue) :
    Conserves d node a := by
  have hlist : d.remoteBundles.list node = queue := by rw [list, hqueue, getD_some]
  have hsent : a.sent = _ := h.sent
  have hoffered : a.offered = _ := h.offered
  rw [start, nil_append] at hsent hoffered
  constructor
  · refine ⟨_, by rw [h.daemon]; exact list_push .., ?_⟩
    rw [h.daemon, hsent, hlist, Pass.daemon, list_insert, if_pos rfl]
    have hperm := @pass_perm sender limit [] [] results queue
    rwa [append_nil] at hperm
  · rw [hoffered, hlist]
    exact (pass_offered ..).subperm
  · intro r mbs hr
    rw [hsent] at hr
    obtain ⟨hlarge, hsendable⟩ := pass_fragmented _ _ _ _ hr
    obtain ⟨hlimit, hsize⟩ := filter_eq_some_iff.mp hlarge
    rw [unsendable_of_tooLarge hlarge, Bool.or_eq_false_iff] at hsendable
    exact ⟨⟨sender, hlimit ▸ hnext⟩, by simpa using hsize, hsendable.1⟩
  · intro e he
    rw [h.daemon]
    exact ⟨by rw [Pass.daemon, get_insert, if_neg he.symm]; rfl, get_push_of_ne he _ _⟩

/-- The loop over a queue ends, and every reference in the queue is afterwards in one place. -/
theorem deliverRemoteBundles_conserves {destination node : Endpoint}
    (hnode : destination.getNodeEndpoint = (.ok node : Outcome Empty Endpoint)) (d : Daemon)
    (results : List SendResult) :
    ∃ a, (∀ n, (d.remoteBundles.list node).length < n →
      deliverRemoteBundles n d results destination = .ok (some a)) ∧ Conserves d node a := by
  cases hnext : nextHop d node with
  | none => exact ⟨_, fun n _ => attempt_idle results hnode (.inl hnext) n, .start d node results⟩
  | some =>
    cases hqueue : d.remoteBundles.get node with
    | none => exact ⟨_, fun n _ => attempt_idle results hnode (.inr hqueue) n, .start d node results⟩
    | some =>
      obtain ⟨a, hdeliver, hdone⟩ := attempt_pass results hnode hnext hqueue
      refine ⟨a, fun n hn => hdeliver n ?_, hdone.conserves hnext hqueue⟩
      rwa [list, hqueue] at hn

lemma mem_queue_of_unsendable {c c' : Context} (h : c.deliverRemoteBundles w destination = .ok c')
    (hnode : destination.getNodeEndpoint = (.ok node : Outcome Empty Endpoint))
    (hnext : nextHop c.daemon node = some (sender, limit)) (hr : unsendable limit r = true)
    (hmem : r ∈ c.daemon.remoteBundles.list node) : r ∈ c'.daemon.remoteBundles.list node := by
  obtain ⟨_, _, hdeliver, hdaemon, -⟩ := deliverRemoteBundles_attempt h hnode
  cases hqueue : c.daemon.remoteBundles.get node with
  | none =>
    rw [list, hqueue] at hmem
    cases hmem
  | some =>
    have hdone := attempt_done (hdeliver _ (Nat.lt_succ_self _)) hnode hnext hqueue
    rw [list, hqueue, getD_some] at hmem
    rw [hdaemon, hdone.daemon, Pass.daemon, list_insert, if_pos rfl]
    exact mem_pass_of_unsendable _ _ _ _ hr (by rwa [append_nil])

/-- A bundle for the node `c`. -/
def parcel (sequenceNumber size : UInt64) (flags : BundleFlags) : StoredBundleRef where
  bundleData := ⟨0, []⟩
  state := .forwardingQueued
  size := size
  payloadSize := 1
  minSize := none
  primaryBlock := { checkedPrimaryBlock with
    crc := .noCRC
    bundleProcessingFlags := flags
    destinationEndpoint := .dtn ⟨"//c/x"⟩
    creationTimestamp := ⟨⟨0⟩, sequenceNumber⟩ }

/-- An agent that reaches the node `c` over the node `b`, with bundles of at most 100 bytes. -/
def overB (queue : List StoredBundleRef) : Daemon :=
  { Daemon.new (.dtn ⟨"//a"⟩) with
    remoteBundles := empty.insert (.dtn ⟨"//c"⟩) queue
    remoteConnections := (empty.insert (.dtn ⟨"//b"⟩) 5).insert (.dtn ⟨"//c"⟩) 6
    remoteRoutes := (empty.insert (.dtn ⟨"//b"⟩) ⟨.dtn ⟨"//b"⟩, none⟩).insert (.dtn ⟨"//c"⟩)
      ⟨.dtn ⟨"//b"⟩, some 100⟩ }

lemma getNodeEndpoint_c : (Endpoint.dtn ⟨"//c/x"⟩).getNodeEndpoint =
    (.ok (.dtn ⟨"//c"⟩) : Outcome Empty Endpoint) := by
  decide +kernel

lemma nextHop_overB (queue : List StoredBundleRef) :
    nextHop (overB queue) (.dtn ⟨"//c"⟩) = some (5, some 100) := rfl

theorem deliverRemoteBundles_conserves_overB :
    ∃ a, (∀ n, 2 < n → deliverRemoteBundles n (overB [parcel 1 200 ⟨0⟩, parcel 2 50 ⟨0⟩]) [.ok]
        (.dtn ⟨"//c/x"⟩) = .ok (some a)) ∧
      Conserves (overB [parcel 1 200 ⟨0⟩, parcel 2 50 ⟨0⟩]) (.dtn ⟨"//c"⟩) a :=
  deliverRemoteBundles_conserves getNodeEndpoint_c (overB [parcel 1 200 ⟨0⟩, parcel 2 50 ⟨0⟩]) [.ok]

/-! ## Completeness -/

/-- Where the loop meets an id again that it has pushed back, there is nothing left to send. -/
def Unhindered (limit : Option UInt64) (visited : List String) (queue : List StoredBundleRef) : Prop :=
  ∀ before r after, queue = before ++ r :: after →
    (r.getId ∈ visited ∨ ∃ x ∈ before, unsendable limit x = true ∧ x.getId = r.getId) →
      ∀ x ∈ r :: after, unsendable limit x = true

lemma perm_filter_iff {α : Type} {p : α → Bool} {l : List α} : l.Perm (l.filter p) ↔ ∀ x ∈ l, p x = true := by
  rw [← filter_eq_self]
  constructor
  · intro hperm
    exact filter_sublist.eq_of_length hperm.length_eq.symm
  · intro heq
    rw [heq]

lemma unhindered_visited
    (h : r.getId ∈ visited) : Unhindered limit visited (r :: queue) ↔ ∀ x ∈ r :: queue, unsendable limit x = true := by
  constructor
  · intro hall
    exact hall [] r queue rfl (.inl h)
  · intro hall before r' after heq _ x hx
    rw [heq] at hall
    exact hall x (mem_append_right _ hx)

lemma unhindered_cons (h : r.getId ∉ visited)
    (hvisited : ∀ i, i ∈ visited' ↔ i ∈ visited ∨ unsendable limit r = true ∧ r.getId = i) :
    Unhindered limit visited (r :: queue) ↔ Unhindered limit visited' queue := by
  constructor
  · intro hall before x after heq hx
    refine hall (r :: before) x after (congrArg (r :: ·) heq) ?_
    rw [hvisited] at hx
    rcases hx with (hx | hx) | ⟨y, hy, hx⟩
    · exact .inl hx
    · exact .inr ⟨r, mem_cons_self, hx⟩
    · exact .inr ⟨y, mem_cons_of_mem _ hy, hx⟩
  · intro hall before x after heq hx
    cases before with
    | nil => grind
    | cons y before =>
      cases heq
      refine hall before x after rfl ?_
      rw [hvisited]
      rcases hx with hx | ⟨y, hy, hx⟩
      · exact .inl (.inl hx)
      · grind

lemma unhindered_unsendable (h : r.getId ∉ visited) (hr : unsendable limit r = true) :
    Unhindered limit visited (r :: queue) ↔ Unhindered limit (r.getId :: visited) queue :=
  unhindered_cons h fun i => by
    rw [mem_cons, or_comm, eq_comm]
    exact or_congr_right (and_iff_right hr).symm

lemma unhindered_sendable (h : r.getId ∉ visited) (hr : ¬ unsendable limit r = true) :
    Unhindered limit visited (r :: queue) ↔ Unhindered limit visited queue :=
  unhindered_cons h fun _ => (or_iff_left fun h => hr h.1).symm

/-- If all calls succeed, the loop leaves what cannot be sent, unless it is hindered. -/
lemma pass_complete_iff (hok : ∀ x ∈ (pass sender limit visited back results queue).offered, x.2 = .ok) :
    (pass sender limit visited back results queue).queue.Perm (queue.filter (unsendable limit) ++ back) ↔
      Unhindered limit visited queue := by
  fun_induction pass with
  | case1 => simp [Unhindered]
  | case2 _ _ _ _ _ hvisited =>
    rw [unhindered_visited (by simpa using hvisited), perm_append_right_iff, perm_filter_iff]
  | case3 _ back _ r queue hvisited hunsendable ih =>
    have hfront : (queue.filter (unsendable limit) ++ back ++ [r]).Perm
        (r :: (queue.filter (unsendable limit) ++ back)) := perm_append_comm
    rw [unhindered_unsendable (by simpa using hvisited) hunsendable, ← ih hok,
      filter_cons_of_pos hunsendable, ← append_assoc]
    exact ⟨fun h => h.trans hfront.symm, fun h => h.trans hfront⟩
  | case4 _ _ _ _ _ hvisited hsendable _ _ ih =>
    rw [unhindered_sendable (by simpa using hvisited) hsendable, ← ih hok, filter_cons_of_neg hsendable]
    rfl
  | case5 _ _ _ _ _ hvisited hsendable _ _ ih =>
    rw [unhindered_sendable (by simpa using hvisited) hsendable,
      ← ih fun x hx => hok x (mem_cons_of_mem _ hx), filter_cons_of_neg hsendable]
    rfl
  | case6 _ _ _ _ _ _ _ _ hresult =>
    exact absurd (hok _ mem_cons_self) hresult

/-- The limit on what goes along a route. -/
def sizeLimit (d : Daemon) (route : NexthopInfo) : Option UInt64 :=
  match d.remoteRoutes.get route.nextHop with
  | some info => maxBundleSize route info
  | none => route.maxSize

/-- The next hop of the route is reached without another one. -/
def Neighbour (d : Daemon) (route : NexthopInfo) : Prop :=
  ∃ info, d.remoteRoutes.get route.nextHop = some info ∧ route.nextHop = info.nextHop

lemma nextHop_direct (hroute : d.remoteRoutes.get node = some route)
    (hsender : d.remoteConnections.get route.nextHop = some sender)
    (h : Neighbour d route) : nextHop d node = some (sender, sizeLimit d route) := by
  obtain ⟨_, hinfo, hdirect⟩ := h
  simp [nextHop, sizeLimit, hroute, hsender, hinfo, ← hdirect]

lemma nextHop_indirect (hroute : d.remoteRoutes.get node = some route)
    (h : ¬ Neighbour d route) : nextHop d node = none := by
  simp only [nextHop, hroute, bind_eq_bind, bind_some]
  cases d.remoteConnections.get route.nextHop with
  | none => rfl
  | some =>
    cases hinfo : d.remoteRoutes.get route.nextHop with
    | none => rfl
    | some info => exact if_pos fun hdirect => h ⟨info, hinfo, hdirect⟩

/-- The agent has sent all that it can. -/
structure Complete (limit : Option UInt64) (queue : List StoredBundleRef) (node : Endpoint) (a : Attempt) : Prop where
  left : (a.daemon.remoteBundles.list node).Perm (queue.filter (unsendable limit))
  sent : (forwarded a.sent ++ fragmented a.sent).Perm (queue.filter (!unsendable limit ·))

lemma complete_iff (h : (a.daemon.remoteBundles.list node ++ (forwarded a.sent ++ fragmented a.sent)).Perm queue) :
    Complete limit queue node a ↔ (a.daemon.remoteBundles.list node).Perm (queue.filter (unsendable limit)) := by
  refine ⟨Complete.left, fun hleft => ⟨hleft, ?_⟩⟩
  have hsplit : (queue.filter (unsendable limit) ++ queue.filter (!unsendable limit ·)).Perm queue :=
    filter_append_perm _ queue
  rw [← perm_append_left_iff (a.daemon.remoteBundles.list node)]
  exact h.trans (hsplit.symm.trans (hleft.symm.append_right _))

/-- If all calls of `try_send` succeed, all that can be sent is sent if the next hop is reached directly and the loop
does not meet an unsendable bundle for the second time while there is something to send. -/
theorem deliverRemoteBundles_complete_iff {d : Daemon} {destination node : Endpoint} {route : NexthopInfo}
    {results : List SendResult} {n : Nat} {a : Attempt}
    (hnode : destination.getNodeEndpoint = (.ok node : Outcome Empty Endpoint))
    (hroute : d.remoteRoutes.get node = some route) (hsender : d.remoteConnections.get route.nextHop = some sender)
    (h : deliverRemoteBundles n d results destination = .ok (some a)) (hok : ∀ x ∈ a.offered, x.2 = .ok) :
    Complete (sizeLimit d route) (d.remoteBundles.list node) node a ↔
      (Neighbour d route ∧ Unhindered (sizeLimit d route) [] (d.remoteBundles.list node)) ∨
        ∀ r ∈ d.remoteBundles.list node, unsendable (sizeLimit d route) r = true := by
  by_cases hdirect : Neighbour d route
  · have hnext := nextHop_direct hroute hsender hdirect
    have hall : (∀ r ∈ d.remoteBundles.list node, unsendable (sizeLimit d route) r = true) →
        Unhindered (sizeLimit d route) [] (d.remoteBundles.list node) := fun hall before r after heq _ x hx =>
      hall x (heq ▸ mem_append_right _ hx)
    rw [and_iff_right hdirect, or_iff_left_of_imp hall]
    cases hqueue : d.remoteBundles.get node with
    | none =>
      have hidle := h.symm.trans (attempt_idle results hnode (.inr hqueue) n)
      cases hidle
      have hnil : d.remoteBundles.list node = [] := by rw [list, hqueue, getD_none]
      rw [hnil]
      exact iff_of_true ⟨by rw [start, hnil]; rfl, .nil⟩ (by simp [Unhindered])
    | some queue =>
      have hlist : d.remoteBundles.list node = queue := by rw [list, hqueue, getD_some]
      have hdone := attempt_done h hnode hnext hqueue
      have hsent : a.sent = _ := hdone.sent.trans (nil_append _)
      have hoffered : a.offered = _ := hdone.offered.trans (nil_append _)
      have hleft : a.daemon.remoteBundles.list node = (pass sender (sizeLimit d route) [] [] results queue).queue := by
        rw [hdone.daemon, Pass.daemon, list_insert, if_pos rfl]
      have hperm := @pass_perm sender (sizeLimit d route) [] [] results queue
      have hiff := pass_complete_iff (hoffered ▸ hok)
      rw [append_nil] at hperm hiff
      rw [← hleft, ← hsent] at hperm
      rw [← hleft] at hiff
      rw [hlist, complete_iff hperm, hiff]
  · have hidle := h.symm.trans (attempt_idle results hnode (.inl (nextHop_indirect hroute hdirect)) n)
    cases hidle
    have hperm : (d.remoteBundles.list node ++ (forwarded [] ++ fragmented [])).Perm (d.remoteBundles.list node) := by
      simp [forwarded, fragmented]
    rw [complete_iff hperm, or_iff_right fun hd => hdirect hd.1]
    exact perm_filter_iff

/-- The same bundle twice, too large and not to be fragmented: the loop stops at the second one, and the small bundle
behind it is not sent. -/
theorem deliverRemoteBundles_incomplete : (do
    let a : Option Attempt ← deliverRemoteBundles 4
      (overB [parcel 1 200 .mustNotFragment, parcel 1 200 .mustNotFragment, parcel 2 50 ⟨0⟩]) [.ok, .ok, .ok]
      (.dtn ⟨"//c/x"⟩)
    return a.map fun a : Attempt => (a.daemon.remoteBundles.list (.dtn ⟨"//c"⟩), a.sent)) =
      .ok (some ([parcel 1 200 .mustNotFragment, parcel 2 50 ⟨0⟩, parcel 1 200 .mustNotFragment], [])) := by
  decide +kernel

theorem deliverRemoteBundles_complete_overB :
    ∃ a, deliverRemoteBundles 3 (overB [parcel 1 200 .mustNotFragment, parcel 2 50 ⟨0⟩]) [.ok]
        (.dtn ⟨"//c/x"⟩) = .ok (some a) ∧
      Complete (some 100) [parcel 1 200 .mustNotFragment, parcel 2 50 ⟨0⟩] (.dtn ⟨"//c"⟩) a := by
  obtain ⟨a, hdeliver, hdone⟩ := attempt_pass [.ok] getNodeEndpoint_c
    (nextHop_overB [parcel 1 200 .mustNotFragment, parcel 2 50 ⟨0⟩]) rfl
  have hok : ∀ x ∈ a.offered, x.2 = .ok := by
    rw [hdone.offered]
    decide +kernel
  have hunhindered : Unhindered (some 100) [] [parcel 1 200 .mustNotFragment, parcel 2 50 ⟨0⟩] := by
    rw [unhindered_unsendable (by decide +kernel) (by decide +kernel),
      unhindered_sendable (by decide +kernel) (by decide +kernel)]
    simp [Unhindered]
  have hroute (queue : List StoredBundleRef) : (overB queue).remoteRoutes.get (.dtn ⟨"//c"⟩) =
    some ⟨.dtn ⟨"//b"⟩, some 100⟩ := rfl
  exact ⟨a, hdeliver 3 (by decide), (deliverRemoteBundles_complete_iff getNodeEndpoint_c (hroute _) rfl
    (hdeliver 3 (by decide)) hok).mpr (.inl ⟨⟨_, rfl, rfl⟩, hunhindered⟩)⟩

/-! ## Disconnecting -/

/-- The bundles of the queue that are offered as long as no call fails. -/
def reached (limit : Option UInt64) : (visited : List String) → List StoredBundleRef → List StoredBundleRef
  | _, [] => []
  | visited, r :: queue =>
    if visited.contains r.getId then []
    else if unsendable limit r then reached limit (r.getId :: visited) queue
    else if (tooLarge limit r).isSome then reached limit visited queue
    else r :: reached limit visited queue

/-- The bundles that are offered if no call fails. -/
def tried (d : Daemon) (node : Endpoint) : List StoredBundleRef :=
  match nextHop d node, d.remoteBundles.get node with
  | some (_, limit), some queue => reached limit [] queue
  | _, _ => []

/-- Of the calls that are made, the first one that fails finds the peer gone. -/
def Closes (d : Daemon) (node : Endpoint) (results : List SendResult) : Prop :=
  (results.take (tried d node).length).find? (· ≠ .ok) = some .closed

instance (d : Daemon) (node : Endpoint) (results : List SendResult) : Decidable (Closes d node results) :=
  inferInstanceAs (Decidable (_ = _))

lemma pass_closed_iff (visited : List String) (back : List StoredBundleRef) (results : List SendResult)
    (queue : List StoredBundleRef) : (pass sender limit visited back results queue).closed = true ↔
      (results.take (reached limit visited queue).length).find? (· ≠ .ok) = some .closed := by
  fun_induction pass with
  | case1 => simp [Pass.closed, reached]
  | case2 _ _ _ _ _ hvisited => rw [reached, if_pos hvisited]; simp [Pass.closed]
  | case3 _ _ _ _ _ hvisited hunsendable =>
    rwa [reached, if_neg hvisited, if_pos hunsendable]
  | case4 _ _ _ _ _ hvisited hsendable _ hlarge =>
    rwa [reached, if_neg hvisited, if_neg hsendable, if_pos (by rw [hlarge]; rfl)]
  | case5 _ _ results _ _ hvisited hsendable hlarge hresult =>
    rw [reached, if_neg hvisited, if_neg hsendable, if_neg (by rw [hlarge]; exact Bool.false_ne_true)]
    cases results with
    | nil => cases hresult
    | cons => grind [Pass.closed, Pass.forward]
  | case6 _ _ results _ _ hvisited hsendable hlarge =>
    rw [reached, if_neg hvisited, if_neg hsendable, if_neg (by rw [hlarge]; exact Bool.false_ne_true)]
    cases results with
    | nil => simp [Pass.closed]
    | cons => grind [Pass.closed]

/-- The connections change only if a call found the peer gone, and then the peer of the route is disconnected. -/
def Disconnects (d : Daemon) (node : Endpoint) (a : Attempt) : Prop :=
  ∀ e, a.daemon.remoteConnections.get e =
    if (∃ x ∈ a.offered, x.2 = .closed) ∧ (d.remoteRoutes.get node).any (·.nextHop = e) then none
    else d.remoteConnections.get e

/-- What is disconnected is the node for which the bundles are, so this has to be the peer. -/
theorem deliverRemoteBundles_disconnects_iff {d : Daemon} {destination node : Endpoint} {results : List SendResult}
    {n : Nat} {a : Attempt} (hnode : destination.getNodeEndpoint = (.ok node : Outcome Empty Endpoint))
    (h : deliverRemoteBundles n d results destination = .ok (some a)) :
    Disconnects d node a ↔
      (Closes d node results → ∀ route, d.remoteRoutes.get node = some route → route.nextHop = node) := by
  have hidle (ha : a = .start d results) (htried : tried d node = []) : Disconnects d node a ↔
      (Closes d node results → ∀ route, d.remoteRoutes.get node = some route → route.nextHop = node) := by
    subst ha
    refine iff_of_true (fun e => ?_) (fun hcloses => ?_)
    · simp [start]
    · rw [Closes, htried] at hcloses
      cases hcloses
  cases hnext : nextHop d node with
  | none => grind [attempt_idle, tried]
  | some next =>
    obtain ⟨sender, limit⟩ := next
    cases hqueue : d.remoteBundles.get node with
    | none => grind [attempt_idle, tried]
    | some queue =>
      have hdone := attempt_done h hnode hnext hqueue
      have hoffered : a.offered = _ := hdone.offered.trans (nil_append _)
      obtain ⟨route, hroute, hsender⟩ := nextHop_eq_some hnext
      have hcloses : Closes d node results ↔ (pass sender limit [] [] results queue).closed = true := by
        rw [pass_closed_iff, Closes, tried, hnext, hqueue]
      have hclosed : (∃ x ∈ a.offered, x.2 = .closed) ↔ Closes d node results := by
        rw [hcloses, hoffered, Pass.closed]
        simp
      simp only [Disconnects, hclosed, hroute, any_some, decide_eq_true_eq, Option.some.injEq, forall_eq']
      rw [hdone.daemon, Pass.daemon]
      by_cases hc : Closes d node results
      · grind [start]
      · simp [hc, hcloses.not.mp hc, start]

/-- The session with `b` is gone, but the one with `c` is dropped. -/
theorem deliverRemoteBundles_misdirected : (do
    let a : Option Attempt ← deliverRemoteBundles 2 (overB [parcel 2 50 ⟨0⟩]) [.closed] (.dtn ⟨"//c/x"⟩)
    return a.map fun a : Attempt => (a.offered, a.daemon.remoteConnections)) =
      .ok (some ([(parcel 2 50 ⟨0⟩, .closed)], empty.insert (.dtn ⟨"//b"⟩) 5)) := by
  decide +kernel

/-- An agent with a session with the node `c` itself. -/
def direct (queue : List StoredBundleRef) : Daemon :=
  { overB queue with remoteRoutes := empty.insert (.dtn ⟨"//c"⟩) ⟨.dtn ⟨"//c"⟩, none⟩ }

/-- A full mailbox on the way over `b` drops no session, and one with `c` that is gone is dropped. -/
theorem deliverRemoteBundles_disconnects_direct :
    (∃ a, deliverRemoteBundles 2 (overB [parcel 2 50 ⟨0⟩]) [.full] (.dtn ⟨"//c/x"⟩) = .ok (some a) ∧
      Disconnects (overB [parcel 2 50 ⟨0⟩]) (.dtn ⟨"//c"⟩) a) ∧
    ∃ a, deliverRemoteBundles 2 (direct [parcel 2 50 ⟨0⟩]) [.closed] (.dtn ⟨"//c/x"⟩) = .ok (some a) ∧
      a.daemon.remoteConnections.get (.dtn ⟨"//c"⟩) = none ∧
      Disconnects (direct [parcel 2 50 ⟨0⟩]) (.dtn ⟨"//c"⟩) a := by
  constructor
  · obtain ⟨a, hdeliver, -⟩ := attempt_pass [.full] getNodeEndpoint_c (nextHop_overB [parcel 2 50 ⟨0⟩]) rfl
    refine ⟨a, hdeliver 2 (by decide), ?_⟩
    refine (deliverRemoteBundles_disconnects_iff getNodeEndpoint_c (hdeliver 2 (by decide))).mpr fun hcloses => ?_
    exact absurd hcloses (by decide +kernel)
  · have hnext : nextHop (direct [parcel 2 50 ⟨0⟩]) (.dtn ⟨"//c"⟩) = some (6, none) := rfl
    obtain ⟨a, hdeliver, hdone⟩ := attempt_pass [.closed] getNodeEndpoint_c hnext rfl
    refine ⟨a, hdeliver 2 (by decide), by rw [hdone.daemon]; decide +kernel, ?_⟩
    refine (deliverRemoteBundles_disconnects_iff getNodeEndpoint_c (hdeliver 2 (by decide))).mpr ?_
    rintro - _ ⟨⟩
    rfl

end Dtn.Dtrd.Protocol
