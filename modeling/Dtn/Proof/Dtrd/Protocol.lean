import Dtn.Impl.Dtrd.Protocol
import Dtn.Proof.Bp7.Forward
import Dtn.Proof.Dtrd.Storage

/-!
# What the protocol agent does

A handler of the protocol agent takes its message (`Takes`, one constructor for
each way) and besides makes moves (`Move`): it sends a report, or it passes a
bundle from the front of a queue on. `handle_takes` says that this is all. What
is sent to be stored for forwarding is the bundle with its hop counted
(`Forwards`), and what is sent to be forwarded is pending (`handle_pending`).
-/

namespace Dtn.Dtrd.Protocol

open List Outcome Dtn.Bp7 Relation Bundle Table

/-! ## Forwarding -/

/-- `new` is what a node makes of the bundle in `old` when it forwards it. -/
inductive Forwards (S : Serde) (old new : List UInt8) : Prop
  | intro (hb : tryFrom S old = .ok b) (h1 : b1 = b ∨ b.Adjusts b1) (h2 : b1.Adjusts b2)
    (hv : b2.toVec = .ok new)

section

variable {S : Serde} {w : World} {c : Context} {r : StoredBundleRef} {b : Bundle} {own : Bool}

lemma sliceFrom_ne_err {ε : Type} (k : Nat) (cs : List Char) (e : ε) : sliceFrom k cs ≠ .err e := by
  fun_induction sliceFrom k cs with
  | case1 | case2 | case4 => exact nofun
  | case3 _ _ _ _ ih => exact ih

/-- Names of nodes can be compared, or this is a panic. -/
lemma matchesNode_ne_err {ε : Type} (endpoint other : Endpoint) (e : ε) : endpoint.matchesNode other ≠ .err e := by
  have hname (endpoint : DTNEndpoint) : endpoint.nodeName ≠ .err e := fun h => by
    rcases bind_eq_err.mp h with h | ⟨_, -, h⟩
    · exact sliceFrom_ne_err _ _ _ h
    · cases h
  intro h
  unfold Endpoint.matchesNode at h
  split at h
  · rcases bind_eq_err.mp h with h | ⟨_, -, h⟩
    · exact hname _ h
    · simp_all [bind_eq_err]
  · cases h
  · cases h

/-- The bundle gets this node as its previous one, if it is from another node, and one hop more. -/
lemma forwardBundle_of_own (hlive : w.live r.bundleData.address = true)
    (hb : tryFrom S r.bundleData.bytes = .ok b)
    (hown : c.daemon.endpoint.matchesNode b.primaryBlock.sourceNode = (.ok own : Outcome BundleStatusReason Bool))
    (hb1 : b1 = if own then b else b.setPreviousNode c.daemon.endpoint) : c.forwardBundle S w r =
      if (b1.incHopCount hopLimitDefault).2 then (b1.incHopCount hopLimitDefault).1.toVec.unwrap
      else .err .hopLimitExceeded := by grind [Context.forwardBundle, StoredBundleRef.getBundleData]

lemma forwardBundle_eq (hlive : w.live r.bundleData.address = true) (hb : tryFrom S r.bundleData.bytes = .ok b)
    (hown : c.daemon.endpoint.matchesNode b.primaryBlock.sourceNode = (.ok own : Outcome BundleStatusReason Bool)) :
    ∃ b1, (b1 = b ∨ b1 = b.setPreviousNode c.daemon.endpoint) ∧ c.forwardBundle S w r =
      if (b1.incHopCount hopLimitDefault).2 then (b1.incHopCount hopLimitDefault).1.toVec.unwrap
      else .err .hopLimitExceeded :=
  ⟨_, by cases own <;> simp, forwardBundle_of_own hlive hb hown rfl⟩

/-- A bundle that is forwarded, or is not because of its hop limit, exists and can be decoded. -/
lemma forwardBundle_cases (h : c.forwardBundle S w r ≠ .panic) :
    ∃ b own, w.live r.bundleData.address = true ∧ tryFrom S r.bundleData.bytes = .ok b ∧
      c.daemon.endpoint.matchesNode b.primaryBlock.sourceNode = (.ok own : Outcome BundleStatusReason Bool) := by
  unfold Context.forwardBundle at h
  split at h <;> [exact absurd rfl h; skip]
  rename_i bs hbs
  unfold StoredBundleRef.getBundleData at hbs
  split at hbs <;> cases hbs
  rename_i hlive
  cases hb : tryFrom S r.bundleData.bytes with
  | err | panic => rw [hb] at h; exact absurd rfl h
  | ok b =>
    rw [hb, unwrap_ok, ok_bind] at h
    cases hown : (c.daemon.endpoint.matchesNode b.primaryBlock.sourceNode : Outcome BundleStatusReason Bool) with
    | err => exact absurd hown (matchesNode_ne_err _ _ _)
    | panic => rw [hown] at h; exact absurd rfl h
    | ok own => exact ⟨b, own, hlive, rfl, hown⟩

lemma forwardBundle_eq_ok (h : c.forwardBundle S w r = .ok data) : Forwards S r.bundleData.bytes data := by
  obtain ⟨b, _, hlive, hb, hown⟩ := forwardBundle_cases (c := c) (w := w) (r := r) (S := S) (by rw [h]; exact nofun)
  obtain ⟨b1, hb1, heq⟩ := forwardBundle_eq hlive hb hown
  rw [h] at heq
  split at heq <;> [skip; cases heq]
  have h1 : b1 = b ∨ b.Adjusts b1 := by
    rcases hb1 with rfl | rfl
    · exact .inl rfl
    · exact .inr (b.setPreviousNode_adjusts _)
  exact ⟨hb, h1, b1.incHopCount_adjusts hopLimitDefault, unwrap_eq_ok.mp heq.symm⟩

/-- A bundle within its hop limit is forwarded, or this is a panic. -/
lemma forwardBundle_ne_err (hb : tryFrom S r.bundleData.bytes = .ok b)
    (hhops : (b.incHopCount hopLimitDefault).2 = true) (e : BundleStatusReason) : c.forwardBundle S w r ≠ .err e := by
  intro h
  obtain ⟨b', _, hlive, hb', hown⟩ := forwardBundle_cases (c := c) (w := w) (r := r) (S := S) (by rw [h]; exact nofun)
  cases hb.symm.trans hb'
  obtain ⟨b1, hb1, heq⟩ := forwardBundle_eq hlive hb hown
  have hhops1 : (b1.incHopCount hopLimitDefault).2 = true := by
    rcases hb1 with rfl | rfl
    · exact hhops
    · rw [incHopCount_setPreviousNode]
      exact hhops
  rw [h, if_pos hhops1] at heq
  cases hv : (b1.incHopCount hopLimitDefault).1.toVec <;> rw [hv] at heq <;> cases heq

/-- A bundle without checksums is still that bundle when it was forwarded, in the form the encoder writes. -/
lemma Forwards.decoded (h : Forwards S old new) (hb : tryFrom S old = .ok b) (hcrc : b.NoCRC)
    (hfit : FitsInMemory new) :
    ∃ b', tryFrom S new = .ok b' ∧ b'.toVec = .ok new ∧ b'.primaryBlock = b.primaryBlock ∧
      (b'.payloadData : Outcome Empty (List UInt8)) = b.payloadData := by
  obtain ⟨hb0, h1, h2, hv⟩ := h
  rename_i b0 b1 b2
  cases hb.symm.trans hb0
  have hshaped := tryFrom_shaped hb
  obtain ⟨hs1, hc1, hp1, hd1⟩ : b1.Shaped ∧ b1.NoCRC ∧ b1.primaryBlock = b.primaryBlock ∧
      (b1.payloadData : Outcome Empty (List UInt8)) = b.payloadData := by
    rcases h1 with rfl | h1
    · exact ⟨hshaped, hcrc, rfl, rfl⟩
    · exact ⟨h1.shaped hshaped, h1.noCRC hcrc, h1.primaryBlock, h1.payloadData⟩
  have hregular := (h2.shaped hs1).regular (h2.noCRC hc1)
  exact ⟨b2, hregular.tryFrom_eq hv hfit, hv, h2.primaryBlock.trans hp1, h2.payloadData.trans hd1⟩

end

/-! ## What a handler does -/

/-- What a handler does besides taking its message. What it learns about mailboxes is not followed. -/
inductive Move (w : World) (c c' : Context) : Prop
  | report (hd : c'.daemon = c.daemon) (hs : c'.sent = c.sent ++ [.storage (.storeNewBundle data)])
  | deliver (hq : c.daemon.localBundles.get destination = some (r :: queue))
    (hsender : c.daemon.localConnections.get destination = some sender) (hrunning : w.running sender = true)
    (hd : c'.daemon = { c.daemon with
      localBundles := c.daemon.localBundles.insert destination queue
      bundlesPendingLocalDelivery := c.daemon.bundlesPendingLocalDelivery.insert destination
        (c.daemon.bundlesPendingLocalDelivery.list destination ++ [r]) })
    (hs : c'.sent = c.sent ++ [.clientDeliverBundle sender r])
  | forward (hq : c.daemon.remoteBundles.get destination = some (r :: queue))
    (hsender : c.daemon.remoteConnections.get hop = some sender) (hrunning : w.running sender = true)
    (hd : c'.daemon = { c.daemon with
      remoteBundles := c.daemon.remoteBundles.insert destination queue
      bundlesPendingForwarding := c.daemon.bundlesPendingForwarding.insert destination
        (c.daemon.bundlesPendingForwarding.list destination ++ [r]) })
    (hs : c'.sent = c.sent ++ [.agentForwardBundle sender r])
  | fragment (hq : c.daemon.remoteBundles.get destination = some (r :: queue)) (hsize : n < r.size)
    (hflags : r.primaryBlock.bundleProcessingFlags.contains .mustNotFragment = false)
    (hmin : ∀ m, r.minSize = some m → m ≤ n)
    (hd : c'.daemon = { c.daemon with remoteBundles := c.daemon.remoteBundles.insert destination queue })
    (hs : c'.sent = c.sent ++ [.storage (.fragmentBundle r n)])
  | rotateLocal (hq : c.daemon.localBundles.get destination = some queue) (hperm : queue'.Perm queue)
    (hd : c'.daemon = { c.daemon with localBundles := c.daemon.localBundles.insert destination queue' })
    (hs : c'.sent = c.sent)
  | rotateRemote (hq : c.daemon.remoteBundles.get destination = some queue) (hperm : queue'.Perm queue)
    (hd : c'.daemon = { c.daemon with remoteBundles := c.daemon.remoteBundles.insert destination queue' })
    (hs : c'.sent = c.sent)
  | closeLocal (hsender : c.daemon.localConnections.get destination = some sender) (hclosed : w.running sender = false)
    (hd : c'.daemon = { c.daemon with localConnections := c.daemon.localConnections.remove destination })
    (hs : c'.sent = c.sent)
  | closeRemote (hroute : c.daemon.remoteRoutes.get destination = some route)
    (hsender : c.daemon.remoteConnections.get route.nextHop = some sender) (hclosed : w.running sender = false)
    (hd : c'.daemon = { c.daemon with remoteConnections := c.daemon.remoteConnections.remove destination })
    (hs : c'.sent = c.sent)

/-- Any number of moves. -/
abbrev Moves (w : World) : Context → Context → Prop := ReflTransGen (Move w)

/-- With this queue for the destination. -/
def Context.withLocal (c : Context) (destination : Endpoint) (queue : List StoredBundleRef) : Context :=
  { c with daemon := { c.daemon with localBundles := c.daemon.localBundles.insert destination queue } }

def Context.withRemote (c : Context) (destination : Endpoint) (queue : List StoredBundleRef) : Context :=
  { c with daemon := { c.daemon with remoteBundles := c.daemon.remoteBundles.insert destination queue } }

/-- How a message is taken. -/
inductive Takes (S : Serde) (w : World) (c : Context) : Message → Context → Prop
  | received (hst : r.state = .received) : Takes S w c (.eventBundleUpdated r) (c.update r .valid none)
  | defragment (hst : r.state = .valid)
    (hlocal : c.daemon.endpoint.matchesNode r.primaryBlock.destinationEndpoint = (.ok true : Outcome Empty Bool))
    (hfragment : r.primaryBlock.fragmentOffset.isSome) :
    Takes S w c (.eventBundleUpdated r) (c.update r .defragmentationPending none)
  | deliver (hst : r.state = .valid)
    (hlocal : c.daemon.endpoint.matchesNode r.primaryBlock.destinationEndpoint = (.ok true : Outcome Empty Bool))
    (hwhole : r.primaryBlock.fragmentOffset = none) :
    Takes S w c (.eventBundleUpdated r) (c.update r .deliveryQueued none)
  | forward (hst : r.state = .valid)
    (hremote : c.daemon.endpoint.matchesNode r.primaryBlock.destinationEndpoint = (.ok false : Outcome Empty Bool))
    (hdata : c.forwardBundle S w r = .ok data) :
    Takes S w c (.eventBundleUpdated r) (c.update r .forwardingQueued (some data))
  | expire (hst : r.state = .valid)
    (hremote : c.daemon.endpoint.matchesNode r.primaryBlock.destinationEndpoint = (.ok false : Outcome Empty Bool))
    (herr : c.forwardBundle S w r = .err e) :
    Takes S w c (.eventBundleUpdated r) (c.update r .invalid none)
  | queueLocal (hst : r.state = .deliveryQueued) :
    Takes S w c (.eventBundleUpdated r) (c.withLocal r.primaryBlock.destinationEndpoint
      (c.daemon.localBundles.list r.primaryBlock.destinationEndpoint ++ [r]))
  | queueRemote {r : StoredBundleRef} {node : Endpoint} (hst : r.state = .forwardingQueued)
    (hnode : r.primaryBlock.destinationEndpoint.getNodeEndpoint = (.ok node : Outcome Empty Endpoint)) :
    Takes S w c (.eventBundleUpdated r) (c.withRemote node (c.daemon.remoteBundles.list node ++ [r]))
  | ignored (hst : r.state = .defragmentationPending ∨ r.state.Done) : Takes S w c (.eventBundleUpdated r) c
  | delivered : Takes S w c (.eventBundleDelivered endpoint r) ((c.retainLocal endpoint r).update r .delivered none)
  | deliveryFailed : Takes S w c (.eventBundleDeliveryFailed endpoint r) (c.eventBundleDeliveryFailed endpoint r)
  | clientConnected :
    Takes S w c (.eventClientConnected destination sender) { c with daemon := { c.daemon with
      localConnections := c.daemon.localConnections.insert destination sender } }
  | clientDisconnected : Takes S w c (.eventClientDisconnected destination) (c.eventClientDisconnected destination)
  | peerConnected :
    Takes S w c (.eventPeerConnected destination sender) { c with daemon := { c.daemon with
      remoteConnections := c.daemon.remoteConnections.insert destination sender } }
  | peerDisconnected :
    Takes S w c (.eventPeerDisconnected destination) { c with daemon := { c.daemon with
      remoteConnections := c.daemon.remoteConnections.remove destination } }
  | forwarded {endpoint node : Endpoint} {r : StoredBundleRef}
    (hnode : endpoint.getNodeEndpoint = (.ok node : Outcome Empty Endpoint)) :
    Takes S w c (.eventBundleForwarded endpoint r) ((c.retainRemote node r).update r .forwarded none)
  | forwardingFailed {endpoint node : Endpoint} {r : StoredBundleRef}
    (hnode : endpoint.getNodeEndpoint = (.ok node : Outcome Empty Endpoint)) :
    Takes S w c (.eventBundleForwardingFailed endpoint r) ((c.retainRemote node r).withRemote node
      (r :: c.daemon.remoteBundles.list node))
  | routes : Takes S w c (.eventRoutingTableUpdate routes) { c with daemon := { c.daemon with remoteRoutes := routes } }

variable {S : Serde} {w : World} {c c' : Context} {r : StoredBundleRef} {m : Message} {destination : Endpoint}
  {sender : Nat} {queue queue' : List StoredBundleRef}

lemma trySend_eq (h : c.trySend w sender = (result, c')) :
    c'.daemon = c.daemon ∧ c'.sent = c.sent ∧ (result = .ok → w.running sender = true) ∧
      (result = .closed → w.running sender = false) := by grind [Context.trySend]

lemma localLoop_moves (h : Context.localLoop w destination sender queue c = .ok (c', queue'))
    (hsender : c.daemon.localConnections.get destination = some sender) :
    Moves w (c.withLocal destination queue) (c'.withLocal destination queue') := by
  induction queue generalizing c with
  | nil => cases h; exact .refl
  | cons r queue ih =>
    rw [Context.localLoop] at h
    split at h <;> [cases h; skip]
    have hget : (c.withLocal destination (r :: queue)).daemon.localBundles.get destination = some (r :: queue) :=
      get_insert_self ..
    have hrotate {c1 : Context} (hd : c1.daemon = c.daemon) (hs : c1.sent = c.sent) :
        Move w (c.withLocal destination (r :: queue)) (c1.withLocal destination (queue ++ [r])) :=
      .rotateLocal hget (perm_append_singleton r queue)
        (by simp only [Context.withLocal, hd, insert_insert]) hs
    split at h
    · rename_i c1 htry
      obtain ⟨hd, hs, hrunning, -⟩ := trySend_eq htry
      refine .head ?_ (ih h (by rw [← hd] at hsender; exact hsender))
      refine .deliver hget hsender (hrunning rfl) ?_ ?_
      · simp only [Context.withLocal, Context.send, hd, insert_insert]
      · exact congrArg (· ++ _) hs
    · rename_i c1 htry
      obtain ⟨hd, hs, -⟩ := trySend_eq htry
      cases h
      exact .single (hrotate hd hs)
    · rename_i c1 htry
      obtain ⟨hd, hs, -, hclosed⟩ := trySend_eq htry
      cases h
      refine .head (hrotate hd hs) (.single (.closeLocal ?_ (hclosed rfl) rfl rfl))
      rwa [← hd] at hsender

lemma deliverLocalBundles_moves (h : c.deliverLocalBundles w destination = .ok c') : Moves w c c' := by
  unfold Context.deliverLocalBundles at h
  split at h
  · rename_i sender queue hsender hqueue
    obtain ⟨⟨_, _⟩, hloop, h⟩ := bind_eq_ok.mp h
    cases h
    have hmoves := localLoop_moves hloop hsender
    rwa [Context.withLocal, insert_self hqueue] at hmoves
  · cases h
    exact .refl

lemma remoteLoop_moves (h : Context.remoteLoop w destination sender limit visited back queue c = .ok (c', queue'))
    (hroute : c.daemon.remoteRoutes.get destination = some route)
    (hsender : c.daemon.remoteConnections.get route.nextHop = some sender) :
    Moves w (c.withRemote destination (queue ++ back)) (c'.withRemote destination queue') := by
  induction queue generalizing c visited back with
  | nil => cases h; exact .refl
  | cons r queue ih =>
    rw [Context.remoteLoop] at h
    split at h
    · cases h; exact .refl
    have hget : (c.withRemote destination (r :: queue ++ back)).daemon.remoteBundles.get destination =
        some (r :: (queue ++ back)) := get_insert_self ..
    have hrotate {c1 : Context} {queue1 : List StoredBundleRef} (hperm : queue1.Perm (r :: (queue ++ back)))
        (hd : c1.daemon = c.daemon) (hs : c1.sent = c.sent) :
        Move w (c.withRemote destination (r :: queue ++ back)) (c1.withRemote destination queue1) :=
      .rotateRemote hget hperm (by simp only [Context.withRemote, hd, insert_insert]) hs
    have hback : (queue ++ back ++ [r]).Perm (r :: (queue ++ back)) := perm_append_comm
    split at h
    · rename_i mbs hlarge
      obtain ⟨-, hsize⟩ := Option.filter_eq_some_iff.mp hlarge
      split at h
      · -- it is too large and cannot be fragmented
        rw [append_assoc] at hback
        exact .head (hrotate hback rfl rfl) (ih h hroute hsender)
      · rename_i hfragment
        simp only [Bool.or_eq_true, not_or, Bool.not_eq_true] at hfragment
        obtain ⟨hflags, hmin⟩ := hfragment
        refine .head (.fragment hget (by simpa using hsize) hflags (fun m hm => ?_) ?_ rfl) (ih h hroute hsender)
        · rw [hm] at hmin
          simpa using hmin
        · simp only [Context.withRemote, Context.send, insert_insert]
    · split at h
      · rename_i c1 htry
        obtain ⟨hd, hs, hrunning, -⟩ := trySend_eq htry
        refine .head ?_ (ih h (by rw [← hd] at hroute; exact hroute) (by rw [← hd] at hsender; exact hsender))
        refine .forward hget hsender (hrunning rfl) ?_ ?_
        · simp only [Context.withRemote, Context.send, hd, insert_insert]
        · exact congrArg (· ++ _) hs
      · rename_i c1 htry
        obtain ⟨hd, hs, -⟩ := trySend_eq htry
        cases h
        exact .single (hrotate hback hd hs)
      · rename_i c1 htry
        obtain ⟨hd, hs, -, hclosed⟩ := trySend_eq htry
        cases h
        rw [← hd] at hroute hsender
        exact .head (hrotate hback hd hs) (.single (.closeRemote hroute hsender (hclosed rfl) rfl rfl))

lemma nextHop_eq_some (h : Context.nextHop d destination = some (sender, limit)) :
    ∃ route, d.remoteRoutes.get destination = some route ∧ d.remoteConnections.get route.nextHop = some sender := by
  obtain ⟨route, hroute, h⟩ := Option.bind_eq_some_iff.mp h
  obtain ⟨_, hsender, h⟩ := Option.bind_eq_some_iff.mp h
  obtain ⟨_, -, h⟩ := Option.bind_eq_some_iff.mp h
  split at h <;> cases h
  exact ⟨route, hroute, hsender⟩

lemma deliverRemoteBundles_moves (h : c.deliverRemoteBundles w destination = .ok c') : Moves w c c' := by
  obtain ⟨_, -, h⟩ := bind_eq_ok.mp h
  split at h
  · rename_i sender limit queue hnext hqueue
    obtain ⟨_, hroute, hsender⟩ := nextHop_eq_some hnext
    obtain ⟨⟨_, _⟩, hloop, h⟩ := bind_eq_ok.mp h
    cases h
    have hmoves := remoteLoop_moves hloop hroute hsender
    rwa [append_nil, Context.withRemote, insert_self hqueue] at hmoves
  · cases h
    exact .refl

lemma deliverRoutes_moves (h : c.deliverRoutes w targets = .ok c') : Moves w c c' := by
  induction targets generalizing c with
  | nil => cases h; exact .refl
  | cons _ _ ih =>
    obtain ⟨_, h1, h⟩ := bind_eq_ok.mp h
    exact (deliverRemoteBundles_moves h1).trans (ih h)

/-- `c'` is `c`, perhaps with a report sent. -/
def Reported (c c' : Context) : Prop := c' = c ∨ ∃ data, c' = c.send (.storage (.storeNewBundle data))

lemma Reported.moves (h : Reported c c') : Moves w c c' := by
  rcases h with rfl | ⟨data, rfl⟩
  · exact .refl
  · exact .single (.report rfl rfl)

lemma Reported.daemon (h : Reported c c') : c'.daemon = c.daemon := by
  rcases h with rfl | ⟨data, rfl⟩ <;> rfl

lemma reported {requested a b d e : Bool}
    (h : (if !requested then .ok c else c.sendStatusReport w r reason a b d e) = .ok c') : Reported c c' := by
  split at h
  · cases h
    exact .inl rfl
  · obtain ⟨data, -, h⟩ := bind_eq_ok.mp h
    cases h
    exact .inr ⟨data, rfl⟩

/-- It does not matter whether the report is sent before or after a bundle is taken off a list. -/
lemma Reported.retainLocal (h : Reported (c.retainLocal endpoint r) c') :
    ∃ c1, Reported c c1 ∧ c' = c1.retainLocal endpoint r := by
  rcases h with rfl | ⟨data, rfl⟩
  · exact ⟨c, .inl rfl, rfl⟩
  · exact ⟨_, .inr ⟨data, rfl⟩, rfl⟩

lemma Reported.retainRemote (h : Reported (c.retainRemote endpoint r) c') :
    ∃ c1, Reported c c1 ∧ c' = c1.retainRemote endpoint r := by
  rcases h with rfl | ⟨data, rfl⟩
  · exact ⟨c, .inl rfl, rfl⟩
  · exact ⟨_, .inr ⟨data, rfl⟩, rfl⟩

/-! ## Handlers -/

lemma validBundle_takes (h : c.validBundle S w r = .ok c') (hst : r.state = .valid) :
    ∃ c1, Reported c c1 ∧ Takes S w c1 (.eventBundleUpdated r) c' := by
  obtain ⟨own, hown, h⟩ := bind_eq_ok.mp h
  cases own with
  | true =>
    rw [if_pos rfl] at h
    split at h <;> cases h
    · exact ⟨c, .inl rfl, .defragment hst hown ‹_›⟩
    · exact ⟨c, .inl rfl, .deliver hst hown (Option.not_isSome_iff_eq_none.mp ‹_›)⟩
  | false =>
    rw [if_neg nofun] at h
    split at h
    · cases h
      exact ⟨c, .inl rfl, .forward hst hown ‹_›⟩
    · rename_i e herr
      obtain ⟨c1, hreport, h⟩ := bind_eq_ok.mp h
      have hreport := reported hreport
      cases h
      refine ⟨c1, hreport, .expire (e := e) hst (by rw [hreport.daemon]; exact hown) ?_⟩
      rw [← herr, Context.forwardBundle, Context.forwardBundle, hreport.daemon]
    · cases h

lemma eventBundleUpdated_takes (h : c.eventBundleUpdated S w r = .ok c') :
    ∃ c1 c2, Reported c c1 ∧ Takes S w c1 (.eventBundleUpdated r) c2 ∧ Moves w c2 c' := by
  unfold Context.eventBundleUpdated at h
  cases hst : r.state with
  | received =>
    rw [hst] at h
    obtain ⟨own, -, h⟩ := bind_eq_ok.mp h
    cases own with
    | true =>
      cases h
      exact ⟨c, _, .inl rfl, .received hst, .refl⟩
    | false =>
      obtain ⟨c1, hreport, h⟩ := bind_eq_ok.mp h
      cases h
      exact ⟨c1, _, reported hreport, .received hst, .refl⟩
  | valid => grind [validBundle_takes]
  | deliveryQueued =>
    rw [hst] at h
    exact ⟨c, _, .inl rfl, .queueLocal hst, deliverLocalBundles_moves h⟩
  | forwardingQueued =>
    rw [hst] at h
    obtain ⟨_, hnode, h⟩ := bind_eq_ok.mp h
    exact ⟨c, _, .inl rfl, .queueRemote hst hnode, deliverRemoteBundles_moves h⟩
  | defragmentationPending =>
    rw [hst] at h
    cases h
    exact ⟨c, c, .inl rfl, .ignored (.inl hst), .refl⟩
  | delivered | forwarded | invalid =>
    rw [hst] at h
    cases h
    exact ⟨c, c, .inl rfl, .ignored (.inr (by simp [State.Done, hst])), .refl⟩

/-- A handler perhaps sends a report, takes its message, and makes some moves. -/
lemma handle_takes (h : Context.handle S w c m = .ok c') :
    ∃ c1 c2, Reported c c1 ∧ Takes S w c1 m c2 ∧ Moves w c2 c' := by
  cases m with
  | eventBundleUpdated => exact eventBundleUpdated_takes h
  | eventBundleDelivered =>
    obtain ⟨c1, hreport, h⟩ := bind_eq_ok.mp h
    obtain ⟨c0, hc0, rfl⟩ := (reported hreport).retainLocal
    exact ⟨c0, _, hc0, .delivered, deliverLocalBundles_moves h⟩
  | eventBundleDeliveryFailed => cases h; exact ⟨c, _, .inl rfl, .deliveryFailed, .refl⟩
  | eventClientConnected =>
    exact ⟨c, _, .inl rfl, .clientConnected, deliverLocalBundles_moves h⟩
  | eventClientDisconnected => cases h; exact ⟨c, _, .inl rfl, .clientDisconnected, .refl⟩
  | eventPeerConnected =>
    obtain ⟨node, -, h⟩ := bind_eq_ok.mp h
    split at h <;> [cases h; skip]
    exact ⟨c, _, .inl rfl, .peerConnected, deliverRemoteBundles_moves h⟩
  | eventPeerDisconnected =>
    obtain ⟨node, -, h⟩ := bind_eq_ok.mp h
    split at h <;> cases h
    exact ⟨c, _, .inl rfl, .peerDisconnected, .refl⟩
  | eventBundleForwarded =>
    obtain ⟨node, hnode, h⟩ := bind_eq_ok.mp h
    obtain ⟨_, hreport, h⟩ := bind_eq_ok.mp h
    obtain ⟨c0, hc0, rfl⟩ := (reported hreport).retainRemote
    exact ⟨c0, _, hc0, .forwarded hnode, deliverRemoteBundles_moves h⟩
  | eventBundleForwardingFailed =>
    obtain ⟨_, hnode, h⟩ := bind_eq_ok.mp h
    cases h
    exact ⟨c, _, .inl rfl, .forwardingFailed hnode, .refl⟩
  | eventRoutingTableUpdate routes => exact ⟨c, _, .inl rfl, .routes, deliverRoutes_moves h⟩

/-! ## Pending bundles -/

/-- The bundle that a message takes off the list of those that are to be forwarded. -/
def Message.settled : Message → Option StoredBundleRef
  | .eventBundleForwarded _ r | .eventBundleForwardingFailed _ r => some r
  | _ => none

/-- The actors that bundles were sent to run, and bundles sent to be forwarded are pending. -/
structure Context.Pending (w : World) (c : Context) : Prop where
  forward : ∀ a r, .agentForwardBundle a r ∈ c.sent →
    w.running a = true ∧ ∃ k, r ∈ c.daemon.bundlesPendingForwarding.list k
  deliver : ∀ a r, .clientDeliverBundle a r ∈ c.sent → w.running a = true

lemma Move.pending (h : Move w c c') (hc : c.Pending w) :
    c'.Pending w ∧ ∀ k, c.daemon.bundlesPendingForwarding.list k ⊆ c'.daemon.bundlesPendingForwarding.list k := by
  have hsame {command} (hs : c'.sent = c.sent ++ [command]) (hf : ∀ a r, command ≠ .agentForwardBundle a r)
      (hdel : ∀ a r, command = .clientDeliverBundle a r → w.running a = true)
      (hp : c'.daemon.bundlesPendingForwarding = c.daemon.bundlesPendingForwarding) :
      c'.Pending w ∧ ∀ k, c.daemon.bundlesPendingForwarding.list k ⊆ c'.daemon.bundlesPendingForwarding.list k := by
    refine ⟨⟨fun a r hmem => ?_, fun a r hmem => ?_⟩, fun k => by rw [hp]; exact List.Subset.refl _⟩
    all_goals grind [hc.forward, hc.deliver]
  cases h with
  | report hd hs
  | fragment _ _ _ _ hd hs => exact hsame hs (fun _ _ => nofun) (fun _ _ => nofun) (by rw [hd])
  | deliver => simp_all
  | rotateLocal _ _ hd hs | rotateRemote _ _ hd hs | closeLocal _ _ hd hs | closeRemote _ _ _ hd hs =>
    exact ⟨⟨by rw [hs, hd]; exact hc.forward, by rw [hs]; exact hc.deliver⟩,
      fun k => by rw [hd]; exact List.Subset.refl _⟩
  | forward =>
    have hgrows (k : Endpoint) :
        c.daemon.bundlesPendingForwarding.list k ⊆ c'.daemon.bundlesPendingForwarding.list k := by
      grind
    refine ⟨⟨fun a r' hmem => ?_, fun a r' hmem => ?_⟩, hgrows⟩
    all_goals grind [hc.forward, hc.deliver]

lemma Moves.pending (h : Moves w c c') (hc : c.Pending w) :
    c'.Pending w ∧ ∀ k, c.daemon.bundlesPendingForwarding.list k ⊆ c'.daemon.bundlesPendingForwarding.list k := by
  induction h with
  | refl => exact ⟨hc, fun _ => List.Subset.refl _⟩
  | tail _ hmove ih =>
    obtain ⟨hpending, hgrows⟩ := hmove.pending ih.1
    exact ⟨hpending, fun k => List.Subset.trans (ih.2 k) (hgrows k)⟩

lemma mem_retain (h : r ∈ pending.list k)
    (hne : r.primaryBlock ≠ r'.primaryBlock) : r ∈ (Context.retain pending node r').list
    k := by grind [Context.retain, list, StoredBundleRef.eq]

/-- Taking a message sends nothing to the sessions and the clients. -/
lemma Takes.pending (h : Takes S w c m c') (hc : c.Pending w)
    (hnone : ∀ a r, .agentForwardBundle a r ∉ c.sent) :
    c'.Pending w ∧ ∀ k, ∀ r ∈ c.daemon.bundlesPendingForwarding.list k,
      (∀ r', m.settled = some r' → r.primaryBlock ≠ r'.primaryBlock) →
        r ∈ c'.daemon.bundlesPendingForwarding.list k := by
  have hupdate {d} (r : StoredBundleRef) (st : State) (data : Option (List UInt8)) :
      (Context.update ⟨d, c.accepts, c.sent⟩ r st data).Pending w := by
    refine ⟨fun a r' hmem => ?_, fun a r' hmem => ?_⟩
    · rcases mem_append.mp hmem with hmem | hmem
      · exact absurd hmem (hnone a r')
      · cases mem_singleton.mp hmem
    · rcases mem_append.mp hmem with hmem | hmem
      · exact hc.deliver a r' hmem
      · cases mem_singleton.mp hmem
  have hdaemon (d : Daemon) : Context.Pending w ⟨d, c.accepts, c.sent⟩ :=
    ⟨fun a r hmem => absurd hmem (hnone a r), hc.deliver⟩
  cases h with
  | received | defragment | deliver | forward | expire | delivered => exact ⟨hupdate .., fun k r h _ => h⟩
  | queueLocal | queueRemote | clientConnected | clientDisconnected | peerConnected | peerDisconnected | routes
    | deliveryFailed => exact ⟨hdaemon _, fun k r h _ => h⟩
  | ignored => exact ⟨hc, fun k r h _ => h⟩
  | forwarded => exact ⟨hupdate .., fun k r h hne => mem_retain h (hne _ rfl)⟩
  | forwardingFailed => exact ⟨hdaemon _, fun k r h hne => mem_retain h (hne _ rfl)⟩

/-- What is sent to a session is pending afterwards, and what was pending and is not settled still is. -/
lemma handle_pending {d d' : Daemon}
    (h : d.handle S w accepts m = .ok (d', commands)) : Context.Pending w ⟨d', [], commands⟩ ∧
      ∀ k, ∀ r ∈ d.bundlesPendingForwarding.list k, (∀ r', m.settled = some r' → r.primaryBlock ≠ r'.primaryBlock) →
        r ∈ d'.bundlesPendingForwarding.list k := by
  obtain ⟨_, hc', h⟩ := bind_eq_ok.mp h
  cases h
  obtain ⟨c1, _, hreport, htakes, hmoves⟩ := handle_takes hc'
  have hsent : ∀ command ∈ c1.sent, ∃ data, command = .storage (.storeNewBundle data) := by
    rcases hreport with rfl | ⟨data, rfl⟩
    · exact forall_mem_nil _
    · exact forall_mem_singleton.mpr ⟨data, rfl⟩
  have hnone (a : Nat) (r : StoredBundleRef) : .agentForwardBundle a r ∉ c1.sent := fun hmem => by
    obtain ⟨data, hdata⟩ := hsent _ hmem
    cases hdata
  have hpending1 : c1.Pending w := ⟨fun a r hmem => absurd hmem (hnone a r), fun a r hmem => by
    obtain ⟨_, hdata⟩ := hsent _ hmem
    cases hdata⟩
  obtain ⟨hpending2, hkept⟩ := htakes.pending hpending1 hnone
  obtain ⟨hpending, hgrows⟩ := hmoves.pending hpending2
  refine ⟨⟨hpending.forward, hpending.deliver⟩, fun k r hr hne => hgrows k (hkept k r ?_ hne)⟩
  rw [hreport.daemon]
  exact hr

end Dtn.Dtrd.Protocol
