import Dtn.Proof.Dtrd.Connections

/-!
# Listeners that follow each other

A client that stops listening is known to the client agent by its endpoint only,
so the actor that is stopped is the one that was connected last, and the
protocol agent is told that nobody listens at the endpoint any more. With a new
listener before the old one has left, this ends the new one (`listener_torn_down`).
If the old ones leave in their turn, the last one keeps its actor and its
connection (`listener_kept`).
-/

namespace Dtn.Dtrd

open List Option Dtn.Bp7 Protocol

variable {S : Serde} {endpoint : Endpoint} {found files : List (String × List UInt8)}

namespace Process

variable {p p' : Process} {e : ProcessEvent} {k : Endpoint} {a b : Nat}
variable {box : List Client.Message}

def latestAt (k : Endpoint) (connects : List (Endpoint × Nat)) : Option Nat :=
  (connects.filterMap fun c => if c.1 = k then some c.2 else none).getLast?

/-- The listener at an endpoint that was connected last. -/
def latest (p : Process) (k : Endpoint) : Option Nat := latestAt k p.connects

/-- The stream of the client is there. -/
def listening (p : Process) (a : Nat) : Bool := (p.node.listenerStatus a).any (·.2.1)

/-- A client stops listening only if nobody else is about to listen at its
endpoint, and if it was connected last there or the one that was has stopped. -/
def LeavesInTurn (p : Process) : ProcessEvent → Prop
  | .hangUp a => ∀ l ∈ p.node.listeners.get a, .clientListenConnect l.endpoint ∉ p.clientBox ∧
    ∀ b ∈ p.latest l.endpoint, b = a ∨ p.listening b = false
  | _ => True

instance (p : Process) (e : ProcessEvent) : Decidable (p.LeavesInTurn e) := by
  unfold LeavesInTurn
  split <;> infer_instance

lemma latestAt_concat (k k' : Endpoint) (a : Nat) (connects : List (Endpoint × Nat)) :
    latestAt k (connects ++ [(k', a)]) = if k' = k then some a else latestAt k connects := by
  by_cases hk : k' = k <;> simp [latestAt, hk]

lemma mem_of_latestAt {connects : List (Endpoint × Nat)} (h : latestAt k connects = some a) : (k, a) ∈ connects := by
  obtain ⟨⟨_, _⟩, hmem, h⟩ := mem_filterMap.mp (mem_of_getLast? h)
  split at h <;> cases h
  rename_i hk
  exact hk ▸ hmem

lemma listening_eq_true : p.listening a = true ↔ ∃ k running, p.node.listenerStatus a = some (k, true, running) := by
  simp [Option.any_eq_true, listening]

/-- What is said about the client at an endpoint, after all messages to the protocol agent. -/
def settledClient (n : Node) (k : Endpoint) : Option Nat :=
  settled (n.protocol.localConnections.get k) (n.protocolBox.filterMap (·.client k))

/-- Listeners have left in their turn so far. -/
structure Heard (p : Process) : Prop where
  known : ∀ k a, (k, a) ∈ p.connects → ∃ listening running, p.node.listenerStatus a = some (k, listening, running)
  table : ∀ k, p.client.connectedClients.get k = p.latest k
  order : p.clientBox.Pairwise fun m m' => ∀ k, m = .clientListenConnect k → m' ≠ .clientListenDisconnect k
  left : ∀ k, .clientListenDisconnect k ∈ p.clientBox → ∀ a, p.latest k = some a → p.listening a = false
  stops : ∀ a ∈ p.stops, ∃ k running, p.node.listenerStatus a = some (k, false, running)
  running : ∀ a k running, p.node.listenerStatus a = some (k, true, running) → running = true
  connection : ∀ k a, p.latest k = some a → p.listening a = true → settledClient p.node k = some a

lemma Heard.runs (hp : p.Heard) (h : p.listening a = true) : p.node.running a = true := by
  grind [running, listening_eq_true, Node.running_eq]

/-! ## Steps -/

/-- Nobody stops whose stream is there, and what is said about them stays. -/
lemma Heard.stays (hp : p.Heard) (hstays : p.node.Stays n')
    (hconnection : ∀ k a, p.listening a = true → settledClient p.node k = some a → settledClient n' k = some a) :
    Heard { p with node := n' } := by
  have hlistening (a : Nat) : listening { p with node := n' } a = p.listening a := by grind [hstays.listener, listening]
  refine ⟨fun k a hmem => ?_, hp.table, hp.order, fun k hmem a ha => ?_, fun a ha => ?_,
    fun a k running hstatus => ?_, fun k a ha hl => ?_⟩
  · grind [hp.known, hstays.listener]
  · rw [hlistening]
    exact hp.left k hmem a ha
  · grind [hp.stops, hstays.listener]
  · grind [hp.running, hstays.listener]
  · rw [hlistening] at hl
    exact hconnection k a hl (hp.connection k a ha hl)

lemma Heard.own {e : NodeEvent} (hp : p.Heard) (h : p.node.Own S e n') (hstays : p.node.Stays n') :
    Heard { p with node := n' } := by
  refine hp.stays hstays fun k a hl hconnection => ?_
  cases h with
  | @quiet _ _ ms hms hprotocol hbox =>
    have hnone : ms.filterMap (·.client k) = [] := filterMap_eq_nil_iff.mpr fun m hm => by
      have hm := hms m hm
      cases m <;> first | rfl | cases hm
    rw [settledClient, hprotocol, hbox, filterMap_append, hnone, append_nil]
    exact hconnection
  | @handled _ m box _ _ _ hbox hbox' h =>
    -- the agent has taken the message and perhaps dropped the connection
    have hbefore : settled ((m.client k).getD (p.node.protocol.localConnections.get k)) (box.filterMap (·.client k)) =
        some a := by
      rw [← hconnection, settledClient, hbox, filterMap_cons]
      cases m.client k <;> rfl
    rw [settledClient, hbox']
    exact (handle_localConnections h).settled hbefore (hp.runs hl)

lemma Heard.frame (hp : p.Heard) (hclient : p'.client = p.client) (hbox : p'.clientBox = p.clientBox)
    (hstops : p'.stops = p.stops) (hconnects : p'.connects = p.connects)
    (hstatus : p'.node.listenerStatus = p.node.listenerStatus) (hprotocol : p'.node.protocol = p.node.protocol)
    (hms : ∀ k, ∀ m ∈ ms, m.client k = none) (hsent : p'.node.protocolBox = p.node.protocolBox ++ ms) : p'.Heard := by
  have hlistening : p'.listening = p.listening := by
    funext a
    rw [listening, listening, hstatus]
  have hlatest : p'.latest = p.latest := by
    funext k
    rw [latest, latest, hconnects]
  refine ⟨?_, ?_, ?_, ?_, ?_, ?_, fun k a ha hl => ?_⟩
  · rw [hconnects, hstatus]
    exact hp.known
  · rw [hclient, hlatest]
    exact hp.table
  · rw [hbox]
    exact hp.order
  · rw [hbox, hlatest, hlistening]
    exact hp.left
  · rw [hstops, hstatus]
    exact hp.stops
  · rw [hstatus]
    exact hp.running
  · rw [hlatest] at ha
    rw [hlistening] at hl
    rw [settledClient, hprotocol, hsent, filterMap_append, filterMap_eq_nil_iff.mpr (hms k), append_nil]
    exact hp.connection k a ha hl

lemma Heard.tail (hp : p.Heard) (hbox : p.clientBox = m :: box) : Heard { p with clientBox := box } :=
  { hp with
    order := (pairwise_cons.mp (hbox ▸ hp.order)).2
    left := fun k hmem => hp.left k (hbox ▸ mem_cons_of_mem _ hmem) }

lemma client_convergence (m : Convergence.Message) (k : Endpoint) :
    ∀ m' ∈ m.toProtocol.toList, m'.client k = none := by
  intro m' hm'
  cases m with
  | clRegisterNode => cases mem_toList.mp hm'; rfl
  | clUnregisterNode =>
    obtain ⟨_, -, rfl⟩ := map_eq_some_iff.mp (mem_toList.mp hm')
    rfl

lemma client_routing (d : Routing.Daemon) (order : Routing.Order) (m : Routing.Message) (k : Endpoint) :
    ∀ m' ∈ (d.handle order m).2, m'.client k = none := by
  intro m' hm'
  obtain ⟨_, rfl⟩ := Routing.Daemon.handle_updates hm'
  rfl

lemma Heard.listen (hp : p.Heard) (hbox : p.clientBox = .clientListenConnect k :: box)
    (hl : p.node.listeners.get a = none) :
    Heard { p with
      client := { p.client with connectedClients := p.client.connectedClients.insert k a }
      clientBox := box
      node := (p.node.withListener a ⟨k, true, [], true, []⟩).tell (.eventClientConnected k a)
      connects := p.connects ++ [(k, a)] } := by
  obtain ⟨_, hbox'⟩ := pairwise_cons.mp (hbox ▸ hp.order)
  have hfresh : p.node.listenerStatus a = none := by rw [Node.listenerStatus, hl]; rfl
  have hstatus (b : Nat) : ((p.node.withListener a ⟨k, true, [], true, []⟩).tell
    (.eventClientConnected k a)).listenerStatus b =
      if a = b then some (k, true, true) else p.node.listenerStatus b := Node.listenerStatus_withListener ..
  have hold {k' b} (hb : (k', b) ∈ p.connects) : a ≠ b := by grind [hp.known]
  refine ⟨fun k' b hmem => ?_, fun k' => ?_, hbox', fun k' hmem b hb => ?_, fun b hb => ?_, fun b k' running h => ?_,
    fun k' b hb hlistening => ?_⟩
  · grind [hp.known]
  · change (p.client.connectedClients.insert k a).get k' = latestAt k' (p.connects ++ [(k, a)])
    rw [Table.get_insert, latestAt_concat, hp.table]
    rfl
  · have hb : latestAt k' (p.connects ++ [(k, a)]) = some b := hb
    rw [latestAt_concat] at hb
    split at hb
    · grind
    · rw [listening, hstatus, if_neg (hold (mem_of_latestAt hb))]
      exact hp.left k' (hbox ▸ mem_cons_of_mem _ hmem) b hb
  · grind [hp.stops]
  · grind [hp.running]
  · have hb : latestAt k' (p.connects ++ [(k, a)]) = some b := hb
    change settled (p.node.protocol.localConnections.get k')
      ((p.node.protocolBox ++ [Message.eventClientConnected k a]).filterMap (Message.client k')) = some b
    rw [latestAt_concat] at hb
    rw [filterMap_append]
    split at hb
    · grind [settled_concat, Message.client]
    · rename_i hk
      rw [filterMap_cons_none (by rw [Message.client, if_neg hk]), filterMap_nil, append_nil]
      rw [listening, hstatus, if_neg (hold (mem_of_latestAt hb))] at hlistening
      exact hp.connection k' b hb hlistening

lemma Heard.unlisten (hp : p.Heard) (hbox : p.clientBox = .clientListenDisconnect k :: box) :
    Heard { p with
      clientBox := box
      node := p.node.tell (.eventClientDisconnected k)
      stops := p.stops ++ (p.client.connectedClients.get k).toList } := by
  have hleft := hp.left k (hbox ▸ mem_cons_self)
  have htail := hp.tail hbox
  refine ⟨hp.known, hp.table, htail.order, htail.left, fun a ha => ?_, hp.running, fun k' a ha hlistening => ?_⟩
  · rcases mem_append.mp ha with ha | ha
    · exact hp.stops a ha
    · have ha : p.latest k = some a := (hp.table k).symm.trans (mem_toList.mp ha)
      obtain ⟨l, running, h⟩ := hp.known k a (mem_of_latestAt ha)
      have hl := hleft a ha
      rw [listening, h] at hl
      cases (hl : l = false)
      exact ⟨k, running, h⟩
  · change settled (p.node.protocol.localConnections.get k')
      ((p.node.protocolBox ++ [Message.eventClientDisconnected k]).filterMap (Message.client k')) = some a
    by_cases hk : k = k'
    · subst hk
      cases (hleft a ha).symm.trans hlistening
    · rw [filterMap_append, filterMap_cons_none (by rw [Message.client, if_neg hk]),
        filterMap_nil, append_nil]
      exact hp.connection k' a ha hlistening

lemma Heard.hangUp (hp : p.Heard) (hl : p.node.listeners.get a = some l) (hturn : p.LeavesInTurn (.hangUp a)) :
    Heard { p with
      node := p.node.withListener a { l with listening := false, channel := [] }
      clientBox := p.clientBox ++ [.clientListenDisconnect l.endpoint] } := by
  obtain ⟨_, hlatest⟩ := hturn l hl
  have hstatus (b : Nat) : (p.node.withListener a { l with listening := false, channel := [] }).listenerStatus b =
      if a = b then some (l.endpoint, false, l.running) else p.node.listenerStatus b :=
    Node.listenerStatus_withListener ..
  have hbefore : p.node.listenerStatus a = some (l.endpoint, l.listening, l.running) := by
    rw [Node.listenerStatus, hl]
    rfl
  have hlistening (b : Nat) : listening { p with
      node := p.node.withListener a { l with listening := false, channel := [] }
      clientBox := p.clientBox ++ [.clientListenDisconnect l.endpoint] } b = (!decide (a = b) && p.listening b) := by
    grind [listening]
  refine ⟨fun k b hmem => ?_, hp.table, ?_, fun k hmem b hb => ?_, fun b hb => ?_,
    fun b k running h => ?_, fun k b hb h => ?_⟩
  · grind [hp.known]
  · grind [hp.order]
  · rw [hlistening]
    rcases mem_append.mp hmem with hmem | hmem
    · rw [hp.left k hmem b hb, Bool.and_false]
    · cases mem_singleton.mp hmem
      rcases hlatest b hb with rfl | h
      · rw [decide_eq_true rfl]
        rfl
      · rw [h, Bool.and_false]
  · grind [hp.stops]
  · grind [hp.running]
  · rw [hlistening] at h
    exact hp.connection k b hb (Bool.and_eq_true_iff.mp h).2

lemma Heard.stopListener (hp : p.Heard) (hl : p.node.listeners.get a = some l) (ha : a ∈ p.stops) :
    Heard { p with
      node := p.node.withListener a { l with running := false, mailbox := [] }
      stops := p.stops.erase a } := by
  obtain ⟨_, running, _⟩ := hp.stops a ha
  have hlistening : l.listening = false := by grind [Node.listenerStatus]
  have hstays : p.node.Stays (p.node.withListener a { l with running := false, mailbox := [] }) :=
    .withListener hl rfl rfl (.inr ⟨hlistening, rfl⟩)
  have h := hp.stays hstays fun _ _ _ h => h
  exact { h with stops := fun b hb => h.stops b (mem_of_mem_erase hb) }

lemma Step.heard (h : Step S p e p') (hp : p.Heard) (hturn : p.LeavesInTurn e) : p'.Heard := by
  have hquiet {p' : Process} (hclient : p'.client = p.client) (hbox : p'.clientBox = p.clientBox)
      (hstops : p'.stops = p.stops) (hconnects : p'.connects = p.connects)
      (hstatus : p'.node.listenerStatus = p.node.listenerStatus) (hprotocol : p'.node.protocol = p.node.protocol)
      (hsent : p'.node.protocolBox = p.node.protocolBox) : p'.Heard :=
    hp.frame hclient hbox hstops hconnects hstatus hprotocol (fun _ => forall_mem_nil _)
      (by rw [hsent, append_nil])
  cases h with
  | own he h =>
    obtain ⟨hown, hstays⟩ := (Node.next_step h).own he
    exact hp.own hown hstays
  | @request m hm =>
    refine { hp with order := ?_, left := fun k hmem => hp.left k ?_ }
    · refine pairwise_append.mpr ⟨hp.order, pairwise_singleton .., fun m1 _ m' hm' k _ hdisconnect => ?_⟩
      rw [mem_singleton.mp hm'] at hdisconnect
      rw [hdisconnect] at hm
      cases hm
    · rcases mem_append.mp hmem with hmem | hmem
      · exact hmem
      · cases mem_singleton.mp hmem
        cases hm
  | listen hbox _ hl => exact hp.listen hbox hl
  | refuseListener hbox => exact hp.tail hbox
  | unlisten hbox => exact hp.unlisten hbox
  | admin hbox =>
    have h := hp.tail hbox
    exact { h with }
  | hangUp hl => exact hp.hangUp hl hturn
  | stopListener hl ha => exact hp.stopListener hl ha
  | @convergence m => exact hp.frame rfl rfl rfl rfl rfl rfl (client_convergence m) rfl
  | @routing m _ order => exact hp.frame rfl rfl rfl rfl rfl rfl (client_routing p.routing order m) rfl
  | _ => exact hquiet rfl rfl rfl rfl rfl rfl rfl

lemma start_heard (h : Node.start S endpoint found files = .ok n) : (start endpoint n).Heard := by
  obtain ⟨_, -, rfl⟩ := Node.start_eq_ok h
  exact ⟨nofun, fun _ => rfl, .nil, nofun, nofun, fun _ _ _ => nofun, fun _ _ => nofun⟩

end Process

/-- As long as listeners leave in their turn, the one that was connected last
has its response actor while its stream is there, and the protocol agent's
connection, unless the message about it is still on its way. -/
theorem listener_kept {p : Process} (h : (process S endpoint found files).Reaches Process.LeavesInTurn p) {k : Endpoint}
    {a : Nat} (ha : p.latest k = some a) (hlistening : p.listening a = true) :
    p.node.running a = true ∧ ((∀ m ∈ p.node.protocolBox, m.client k = none) →
      p.node.protocol.localConnections.get k = some a) := by
  have hp : p.Heard := by
    refine h.invariant Process.Heard ?_ fun p e p' hp hturn h => (Process.next_step h).heard hp hturn
    rintro p ⟨n, hn, rfl⟩
    exact Process.start_heard hn
  refine ⟨hp.runs hlistening, fun hquiet => ?_⟩
  rw [← hp.connection k a ha hlistening, Process.settledClient, filterMap_eq_nil_iff.mpr hquiet, settled_nil]

/-- A client listens and leaves, and another one listens at the same endpoint. -/
def inTurnEvents : List ProcessEvent :=
  [.request (.clientListenConnect (.ipn ⟨1, 5⟩)), .client 5, .hangUp 5, .request (.clientListenConnect (.ipn ⟨1, 5⟩)),
    .client 6, .client 6, .stopListener 5, .node (.protocol [] ⟨0⟩), .node (.protocol [] ⟨0⟩),
    .node (.protocol [] ⟨0⟩)]

theorem listener_kept_second : ∃ p, (process .plain (.ipn ⟨1, 0⟩) [] []).Reaches Process.LeavesInTurn p ∧
    p.latest (.ipn ⟨1, 5⟩) = some 6 ∧ p.listening 6 = true ∧ p.node.protocolBox = [] ∧
    p.node.running 6 = true ∧ p.node.protocol.localConnections.get (.ipn ⟨1, 5⟩) = some 6 := by
  obtain ⟨p, hreaches, hlatest, hlistening, hbox⟩ := Process.reaches_any Process.LeavesInTurn inTurnEvents
    (fun p => p.latest (.ipn ⟨1, 5⟩) = some 6 ∧ p.listening 6 = true ∧ p.node.protocolBox = []) (by decide +kernel)
  obtain ⟨hrunning, hconnection⟩ := listener_kept hreaches hlatest hlistening
  exact ⟨p, hreaches, hlatest, hlistening, hbox, hrunning, hconnection (by rw [hbox]; exact forall_mem_nil _)⟩

/-- The second client listens before the first one leaves. -/
def overlapEvents : List ProcessEvent :=
  [.request (.clientListenConnect (.ipn ⟨1, 5⟩)), .client 5, .request (.clientListenConnect (.ipn ⟨1, 5⟩)), .client 6,
    .hangUp 5, .client 7, .stopListener 6, .node (.protocol [] ⟨0⟩), .node (.protocol [] ⟨0⟩),
    .node (.protocol [] ⟨0⟩)]

/-- The second client listens and has not left, but its actor is stopped and nobody is connected at its endpoint. -/
theorem listener_torn_down : ∃ p, (process .plain (.ipn ⟨1, 0⟩) [] []).Reaches (fun _ _ => True) p ∧
    p.latest (.ipn ⟨1, 5⟩) = some 6 ∧ p.listening 6 = true ∧ p.node.protocolBox = [] ∧
    p.node.running 6 = false ∧ p.node.protocol.localConnections.get (.ipn ⟨1, 5⟩) = none :=
  Process.reaches_any _ overlapEvents _ (by decide +kernel)

end Dtn.Dtrd
