import Dtn.Proof.Bp7.Endpoints
import Dtn.Proof.Dtrd.Process
import Dtn.Proof.Dtrd.Remote

/-!
# Nodes and the ids of peers

Endpoints match if they have the same node, so the tables of the protocol agent,
whose keys are nodes, can be searched by matching (`matchesNode_equivalence`).

A session is registered with the endpoint that its agent reads from the node id
in the SESS_INIT of the peer. The protocol agent insists that this endpoint is a
node, which nobody has checked before: a node id with a service is accepted, and
then the protocol agent panics (`safeNodeId_iff`).
-/

namespace Dtn.Dtrd

open Dtn.Bp7 Protocol Endpoint List Outcome

/-! ## Nodes as keys -/

/-- Where all keys are nodes, the look-up of a node is the search for a key that matches. -/
lemma find_node {β : Type} {a : Endpoint} {es : List (Endpoint × β)} (h : a.Named)
    (hkeys : ∀ e ∈ es, (e.1.getNodeEndpoint : Outcome Empty Endpoint) = .ok e.1) :
    Table.find a.node es =
      (es.find? fun e => (a.matchesNode e.1 : Outcome Empty Bool) = .ok true).map (·.2) := by
  induction es with
  | nil => rfl
  | cons e _ ih =>
    obtain ⟨k, _⟩ := e
    obtain ⟨hk, hes⟩ := forall_mem_cons.mp hkeys
    have hnamed := named_of_getNodeEndpoint hk
    rw [hnamed.getNodeEndpoint, ok.injEq] at hk
    simp only [Table.find, find?_cons, h.matchesNode hnamed, hk, ok.injEq, decide_eq_true_eq,
      eq_comm (a := k)]
    by_cases hsame : a.node = k
    · simp [hsame]
    · simpa [hsame] using ih hes

/-- Of `ipn` endpoints and `dtn` endpoints whose names start with `//`, those match that have the same node. The node is
an endpoint of the same scheme that matches, and its own node. So matching is an equivalence, and in a table whose keys
are nodes the look-up of a node gives the entry that matches; endpoints that match have the same queue and route. -/
theorem matchesNode_equivalence :
    (∀ a b : Endpoint, a.Named → b.Named → (a.matchesNode b : Outcome Empty Bool) =
      .ok (decide ((a.getNodeEndpoint : Outcome Empty Endpoint) = b.getNodeEndpoint))) ∧
    (∀ a : Endpoint, a.Named → ∃ n, (a.getNodeEndpoint : Outcome Empty Endpoint) = .ok n ∧ n.Named ∧
      (n.getNodeEndpoint : Outcome Empty Endpoint) = .ok n ∧ n.isDtn = a.isDtn ∧
        (a.matchesNode n : Outcome Empty Bool) = .ok true) ∧
    Equivalence (fun a b : {e : Endpoint // e.Named} => (a.1.matchesNode b.1 : Outcome Empty Bool) = .ok true) ∧
    (∀ (β : Type) (t : Table Endpoint β),
      (∀ k ∈ t.keys, (k.getNodeEndpoint : Outcome Empty Endpoint) = .ok k) →
      ∀ a n : Endpoint, a.Named → (a.getNodeEndpoint : Outcome Empty Endpoint) = .ok n →
        t.get n = (t.entries.find? fun e => (a.matchesNode e.1 : Outcome Empty Bool) = .ok true).map (·.2)) ∧
    ∀ (w : World) (c : Context) (a b : Endpoint), a.Named → b.Named →
      (a.matchesNode b : Outcome Empty Bool) = .ok true → c.deliverRemoteBundles w a = c.deliverRemoteBundles w b := by
  have hmatches (a b : {e : Endpoint // e.Named}) :
      (a.1.matchesNode b.1 : Outcome Empty Bool) = .ok true ↔ a.1.node = b.1.node := by
    rw [a.2.matchesNode b.2, ok.injEq, decide_eq_true_eq]
  refine ⟨?_, ?_, ⟨?_, ?_, ?_⟩, ?_, ?_⟩
  · intro a b ha hb
    simp only [ha.getNodeEndpoint_inj hb, ha.matchesNode hb]
  · intro a ha
    have hn := a.named_node
    refine ⟨a.node, ha.getNodeEndpoint, hn, by rw [hn.getNodeEndpoint, ha.node_node], a.isDtn_node, ?_⟩
    rw [ha.matchesNode hn, ha.node_node, decide_eq_true rfl]
  · exact fun a => (hmatches a a).mpr rfl
  · simp_all
  · simp_all
  · intro β t hkeys a n ha hn
    rw [ha.getNodeEndpoint, ok.injEq] at hn
    rw [← hn]
    exact find_node ha fun e he => hkeys e.1 (mem_map_of_mem he)
  · intro w c a b ha hb h
    rw [Context.deliverRemoteBundles, Context.deliverRemoteBundles, (ha.getNodeEndpoint_inj hb).mpr
      ((hmatches ⟨a, ha⟩ ⟨b, hb⟩).mp h)]

/-- The services of a node match, and the queue of the node is found for both. -/
theorem matchesNode_equivalence_services :
    ((dtn ⟨"//a/x"⟩).matchesNode (.dtn ⟨"//a/y/"⟩) : Outcome Empty Bool) = .ok true ∧
      (⟨[(.ipn ⟨1, 0⟩, 5), (.dtn ⟨"//a"⟩, 7)]⟩ : Table Endpoint Nat).get (.dtn ⟨"//a"⟩) = some 7 := by
  have hget := matchesNode_equivalence.2.2.2.1 Nat ⟨[(.ipn ⟨1, 0⟩, 5), (.dtn ⟨"//a"⟩, 7)]⟩ (by decide +kernel)
    (.dtn ⟨"//a/x"⟩) (.dtn ⟨"//a"⟩) (by rw [Endpoint.Named]; decide +kernel) (by decide +kernel)
  refine ⟨(matchesNode_equivalence.1 (.dtn ⟨"//a/x"⟩) (.dtn ⟨"//a/y/"⟩) (by rw [Endpoint.Named]; decide +kernel)
    (by rw [Endpoint.Named]; decide +kernel)).trans (by decide +kernel), hget.trans (by decide +kernel)⟩

/-! ## The node id of a peer -/

/-- What the convergence agent makes of a message is handled by the protocol agent, whatever it knows. -/
def Handled (S : Serde) (message : Convergence.Message) : Prop :=
  ∀ (c : Convergence.Daemon) (m : Message), .protocol m ∈ (c.handle message).2 →
    ∀ (d : Protocol.Daemon) (w : World) (accepts : List Bool), d.handle S w accepts m ≠ .panic

/-- What a session with this node id sends, when its agent learns of it and when the session has ended, is handled. -/
def SafeNodeId (S : Serde) (nodeId : String) : Prop :=
  ∀ (p p' : Process) (agent : Nat) (s : Session) (l : Link) (maxBundleSize : UInt64) (ms : List Convergence.Message),
    l.info = some (.ofPeer nodeId maxBundleSize) →
    p.register agent s l = some p' ∨ p.unregister agent s l = some p' →
    p'.convergenceBox = p.convergenceBox ++ ms → ∀ m ∈ ms, Handled S m

/-- A node id without a service, `dtn://name` or, with the scheme twice, `ipn:ipn:node.0`. -/
def PlainNodeId (nodeId : String) : Prop :=
  (∃ name, nodeId = "dtn://" ++ name ∧ '/' ∉ name.toList) ∨
    ∃ node service, nodeId = "ipn:ipn:" ++ (node ++ "." ++ service) ∧ '.' ∉ node.toList ∧
      parseU64 service = some 0

variable {S : Serde} {w : World} {c : Context} {destination : Endpoint} {nodeId : String}

lemma deliverRemoteBundles_ne_panic {node : Endpoint}
    (hnode : destination.getNodeEndpoint = (.ok node : Outcome Empty Endpoint)) :
    c.deliverRemoteBundles w destination ≠ .panic := by
  rw [Context.deliverRemoteBundles, hnode, ok_bind]
  split
  · rename_i sender limit queue _ _
    obtain ⟨_, hloop, -, -⟩ := remoteLoop_pass w node sender limit [] [] queue c
    rw [hloop]
    exact fun h => by cases h
  · exact fun h => by cases h

lemma handle_eventPeerConnected_iff {d : Protocol.Daemon} {sender : Nat} :
    d.handle S w accepts (.eventPeerConnected destination sender) ≠ .panic ↔
      destination.getNodeEndpoint = (.ok destination : Outcome Empty Endpoint) := by
  rw [Daemon.handle, Context.handle, Context.eventPeerConnected]
  cases hnode : (destination.getNodeEndpoint : Outcome Empty Endpoint) with
  | err e => exact e.elim
  | panic => simp
  | ok => simp_all [deliverRemoteBundles_ne_panic, bind_eq_panic]

lemma handle_eventPeerDisconnected_iff {d : Protocol.Daemon} :
    d.handle S w accepts (.eventPeerDisconnected destination) ≠ .panic ↔
      destination.getNodeEndpoint = (.ok destination : Outcome Empty Endpoint) := by
  rw [Daemon.handle, Context.handle, Context.eventPeerDisconnected]
  cases hnode : (destination.getNodeEndpoint : Outcome Empty Endpoint) with
  | err e => exact e.elim
  | panic => simp
  | ok => grind

/-- The messages about a peer are handled if its endpoint is a node. -/
lemma handled_of_node {e : Endpoint} (he : e.getNodeEndpoint = (.ok e : Outcome Empty Endpoint))
    (maxBundleSize : UInt64) (agent : Nat) :
    Handled S (.clRegisterNode url e maxBundleSize agent) ∧ Handled S (.clUnregisterNode url (some e)) := by
  refine ⟨fun c m hm d w accepts => ?_, fun c m hm d w accepts => ?_⟩
  · grind [handle_eventPeerConnected_iff, Convergence.Daemon.handle]
  · grind [handle_eventPeerDisconnected_iff, Convergence.Daemon.handle]

/-- A node id is safe if what it is read as is a node. -/
lemma safeNodeId_iff_node : SafeNodeId S nodeId ↔
    ∀ e, new nodeId = some e → e.getNodeEndpoint = (.ok e : Outcome Empty Endpoint) := by
  constructor
  · intro h e he
    have hsafe := h emptyProcess _ 0 ⟨true, [], true, []⟩ ⟨"", some (.ofPeer nodeId 0), false, false⟩ 0
      [.clRegisterNode "" e 0 0] rfl (.inl (by rw [Process.register]; simp [ConnectionInfo.ofPeer, he]; rfl)) rfl
    exact handle_eventPeerConnected_iff.mp (hsafe _ (mem_singleton_self _) ⟨.empty⟩ _
      (mem_cons_of_mem _ (mem_singleton_self _)) (.new e) ⟨fun _ => true, fun _ => true, ⟨0⟩⟩ [])
  · intro h p p' agent s l maxBundleSize ms hinfo hsent hbox m hm
    rcases hsent with hsent | hsent
    · obtain ⟨_, hinfo', hsent⟩ := Option.bind_eq_some_iff.mp hsent
      cases hinfo.symm.trans hinfo'
      split at hsent
      · cases hsent
      split at hsent
      · rename_i e he
        cases hsent
        obtain rfl := append_cancel_left hbox
        cases mem_singleton.mp hm
        exact (handled_of_node (h e he) _ _).1
      · grind [self_eq_append_right]
    · rw [Process.unregister] at hsent
      split at hsent
      · cases hsent
      cases hsent
      obtain rfl := append_cancel_left hbox
      cases mem_singleton.mp hm
      rw [Link.node, hinfo]
      cases he : new nodeId with
      | none => simp [ConnectionInfo.ofPeer, he, Handled, Convergence.Daemon.handle]
      | some e =>
        rw [ConnectionInfo.ofPeer, he]
        exact (handled_of_node (h e he) maxBundleSize agent).2

/-- Behind the two slashes of a node there is no other slash, and the service of a node is 0. -/
lemma plainNodeId_iff (h : new nodeId = some e) :
    e.getNodeEndpoint = (.ok e : Outcome Empty Endpoint) ↔ PlainNodeId nodeId := by
  have hschemes (a b : String) : "dtn://" ++ a ≠ "ipn:ipn:" ++ b := fun h => by
    have hlist := congrArg String.toList h
    rw [String.toList_append, String.toList_append] at hlist
    exact absurd (cons.inj hlist).1 (by decide)
  rcases new_eq_some_iff.mp h with ⟨name, rfl, rfl⟩ | ⟨node, service, n, m, rfl, hdot, -, hm, rfl⟩
  · have hnode : (dtn ⟨"//" ++ name⟩).node = .dtn ⟨"//" ++ name⟩ ↔ '/' ∉ name.toList := by
      grind [node_slashes, String.append_right_inj, String.toList_inj, String.toList_ofList,
          takeWhile_eq_self_iff]
    rw [(named_slashes name).getNodeEndpoint, ok.injEq, hnode]
    constructor
    · exact fun h => .inl ⟨name, rfl, h⟩
    · rintro (⟨name', hname, h⟩ | ⟨_, _, hipn, -⟩)
      · rwa [(String.append_right_inj _).mp hname]
      · exact absurd hipn (hschemes _ _)
  · have hservice : (ipn ⟨n, m⟩).getNodeEndpoint = (.ok (.ipn ⟨n, m⟩) : Outcome Empty Endpoint) ↔ m = 0 := by
      simp [getNodeEndpoint, IPNEndpoint.getNodeEndpoint, eq_comm]
    rw [hservice]
    constructor
    · rintro rfl
      exact .inr ⟨node, service, rfl, hdot, hm⟩
    · rintro (⟨name, hdtn, -⟩ | ⟨node', service', hsame, hdot', hzero⟩)
      · exact absurd hdtn.symm (hschemes _ _)
      · -- both are divided at the first dot
        have hsplit := splitOnce_append hdot "." service rfl
        rw [(String.append_right_inj _).mp hsame, splitOnce_append hdot' "." service' rfl] at hsplit
        cases hsplit
        exact Option.some.inj (hm.symm.trans hzero)

/-- A peer may have this node id exactly if the session agent rejects it or it has no service. -/
theorem safeNodeId_iff (S : Serde) (nodeId : String) :
    SafeNodeId S nodeId ↔ new nodeId = none ∨ PlainNodeId nodeId := by
  rw [safeNodeId_iff_node]
  cases he : new nodeId with
  | none => simp
  | some => simp [plainNodeId_iff he]

/-- A session to a peer that announces itself with a service. -/
def serviceSessionEvents : List ProcessEvent :=
  [.connect 7 "tcpcl://a", .establish 7 (.ofPeer "dtn://node/in" 1000), .register 7, .convergence]

/-- The session is registered, and the protocol agent panics. -/
theorem nodeId_panics : ∃ p, (process .plain (.ipn ⟨1, 0⟩) [] []).Reaches (fun _ _ => True) p ∧
    p.node.protocolBox = [.eventPeerConnected (.dtn ⟨"//node/in"⟩) 7] ∧
      p.node.handleProtocol .plain [] ⟨0⟩ = .panic :=
  Process.reaches_any _ serviceSessionEvents _ (by decide +kernel)

end Dtn.Dtrd
