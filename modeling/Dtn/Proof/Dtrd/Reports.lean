import Dtn.Proof.Bp7.Orderly
import Dtn.Proof.Dtrd.Protocol

/-!
# The reports of the protocol agent

The only bundles that the protocol agent makes are status reports: whole
bundles from this node with one payload block and nothing else (`report`). What a
handler sends to be stored is the encoding of one (`handle_reports`).
-/

namespace Dtn.Dtrd.Protocol

open Outcome Dtn.Bp7

variable {endpoint : Endpoint}

/-- What `send_status_report` makes, with this administrative record. -/
def report (endpoint destination : Endpoint) (now : DtnTime) (lifetime : UInt64) (data : List UInt8) : Bundle where
  primaryBlock := ⟨7, .administrativeRecord, .noCRC, destination, endpoint, endpoint, ⟨now, 0⟩, lifetime, none, none⟩
  blocks := [⟨.payload ⟨data⟩, 1, .empty, .noCRC⟩]

/-- The bytes of a report of this node. -/
def IsReport (endpoint : Endpoint) (bs : List UInt8) : Prop :=
  ∃ destination now lifetime data, (report endpoint destination now lifetime data).toVec = .ok bs

lemma orderly_report (hlen : data.length < 2 ^ 64) : (report endpoint destination now lifetime data).Orderly where
  shaped := ⟨List.cons_ne_nil _ _, rfl, ⟨show BundleFlags.administrativeRecord.Defined by decide,
    List.forall_mem_singleton.mpr (show BlockFlags.empty.Defined by decide)⟩, List.forall_mem_singleton.mpr trivial⟩
  noCRC := ⟨rfl, List.forall_mem_singleton.mpr rfl⟩
  payload := ⟨_, rfl⟩
  fields := by
    have hflag : BundleFlags.administrativeRecord.contains .fragment = false := by decide
    exact ⟨hflag.symm, hflag.symm⟩
  bound := (Nat.zero_add _).trans_lt hlen

/-- A report that fits in memory is an orderly bundle. -/
lemma IsReport.orderly (h : IsReport endpoint bs) (hfit : FitsInMemory bs) :
    ∃ b : Bundle, b.Orderly ∧ b.toVec = .ok bs ∧ b.primaryBlock.fragmentOffset = none ∧
      b.primaryBlock.sourceNode = endpoint := by
  obtain ⟨_, _, _, data, hv⟩ := h
  have hlen : data.length ≤ bs.length :=
    Bundle.length_content_le (c := ⟨.payload ⟨data⟩, 1, .empty, .noCRC⟩) (List.nil_append _).symm hv
  exact ⟨_, orderly_report (Nat.lt_of_le_of_lt (Nat.le_trans hlen hfit) (by decide)), hv, rfl, rfl⟩

/-! ## What is sent -/

variable {S : Serde} {w : World} {c c' : Context} {endpoint destination : Endpoint}

/-- A message that the protocol agent may send to the storage agent: it is about a stored bundle, or brings a report. -/
def Reports (endpoint : Endpoint) : Storage.Message → Prop
  | .storeReceivedBundle _ => False
  | .storeNewBundle bs => IsReport endpoint bs
  | .updateBundle _ _ _ | .fragmentBundle _ _ => True

/-- The agent has this endpoint, and has sent nothing to be stored but reports. -/
structure Context.Reporting (endpoint : Endpoint) (c : Context) : Prop where
  own : c.daemon.endpoint = endpoint
  reports : ∀ m, .storage m ∈ c.sent → Reports endpoint m

namespace Context.Reporting

variable {sender : Nat} {r : StoredBundleRef} {queue queue' : List StoredBundleRef} (hc : c.Reporting endpoint)

include hc

lemma withDaemon (hd : c'.daemon.endpoint = c.daemon.endpoint) (hs : c'.sent = c.sent) :
    c'.Reporting endpoint := ⟨hd.trans hc.own, by rw [hs]; exact hc.reports⟩

lemma withCommand (command : Command)
    (hcommand : ∀ m, command = .storage m → Reports endpoint m) : (c.send command).Reporting endpoint := by
  refine ⟨hc.own, fun m hm => ?_⟩
  rcases List.mem_append.mp hm with hm | hm
  · exact hc.reports m hm
  · exact hcommand m (List.mem_singleton.mp hm).symm

lemma update (r : StoredBundleRef) (st : State) (data : Option (List UInt8)) :
    (c.update r st data).Reporting endpoint := hc.withCommand _ fun m hm => by cases hm; trivial

lemma trySend (h : c.trySend w sender = (result, c')) : c'.Reporting endpoint := by
  obtain ⟨hd, hs, -⟩ := trySend_eq h
  exact hc.withDaemon (by rw [hd]) hs

lemma statusReport (h : (if !requested then .ok c else c.sendStatusReport w r reason a b d e) = .ok c') :
    c'.Reporting endpoint := by
  split at h
  · cases h
    exact hc
  · obtain ⟨_, hbs, h⟩ := bind_eq_ok.mp h
    cases h
    refine hc.withCommand _ fun m hm => ?_
    cases hm
    have hv := unwrap_eq_ok.mp hbs
    rw [hc.own] at hv
    exact ⟨_, _, _, _, hv⟩

lemma localLoop (h : Context.localLoop w destination sender queue c = .ok (c', queue')) : c'.Reporting endpoint := by
  induction queue generalizing c with
  | nil => cases h; exact hc
  | cons r _ ih =>
    rw [Context.localLoop] at h
    split at h <;> [cases h; skip]
    split at h <;> rename_i c1 htry <;> have hc1 := hc.trySend htry
    · refine ih ?_ h
      exact (hc1.withCommand (.clientDeliverBundle sender r) fun m hm => by cases hm).withDaemon rfl rfl
    · cases h
      exact hc1
    · cases h
      exact hc1.withDaemon rfl rfl

lemma deliverLocalBundles (h : c.deliverLocalBundles w destination = .ok c') : c'.Reporting endpoint := by
  unfold Context.deliverLocalBundles at h
  split at h
  · obtain ⟨⟨_, _⟩, hloop, h⟩ := bind_eq_ok.mp h
    cases h
    exact (hc.localLoop hloop).withDaemon rfl rfl
  · cases h
    exact hc

lemma remoteLoop (h : Context.remoteLoop w destination sender limit visited back queue c = .ok (c', queue')) :
    c'.Reporting endpoint := by
  induction queue generalizing c visited back with
  | nil => cases h; exact hc
  | cons r _ ih =>
    rw [Context.remoteLoop] at h
    split at h
    · cases h
      exact hc
    split at h
    · split at h
      · exact ih hc h
      · refine ih ?_ h
        exact hc.withCommand _ fun m hm => by cases hm; trivial
    · split at h <;> rename_i c1 htry <;> have hc1 := hc.trySend htry
      · refine ih ?_ h
        exact (hc1.withCommand (.agentForwardBundle sender r) fun m hm => by cases hm).withDaemon rfl rfl
      · cases h
        exact hc1
      · cases h
        exact hc1.withDaemon rfl rfl

lemma deliverRemoteBundles (h : c.deliverRemoteBundles w destination = .ok c') : c'.Reporting endpoint := by
  obtain ⟨_, -, h⟩ := bind_eq_ok.mp h
  split at h
  · obtain ⟨⟨_, _⟩, hloop, h⟩ := bind_eq_ok.mp h
    cases h
    exact (hc.remoteLoop hloop).withDaemon rfl rfl
  · cases h
    exact hc

lemma deliverRoutes (h : c.deliverRoutes w targets = .ok c') : c'.Reporting endpoint := by
  induction targets generalizing c with
  | nil => cases h; exact hc
  | cons _ _ ih =>
    obtain ⟨_, h1, h⟩ := bind_eq_ok.mp h
    exact ih (hc.deliverRemoteBundles h1) h

lemma validBundle (h : c.validBundle S w r = .ok c') : c'.Reporting endpoint := by
  obtain ⟨_, -, h⟩ := bind_eq_ok.mp h
  split at h
  · split at h <;> cases h <;> exact hc.update ..
  · split at h
    · cases h
      exact hc.update ..
    · obtain ⟨_, h1, h⟩ := bind_eq_ok.mp h
      cases h
      exact (hc.statusReport h1).update ..
    · cases h

lemma eventBundleUpdated (h : c.eventBundleUpdated S w r = .ok c') : c'.Reporting endpoint := by
  unfold Context.eventBundleUpdated at h
  split at h
  · obtain ⟨_, -, h⟩ := bind_eq_ok.mp h
    split at h
    · cases h
      exact hc.update ..
    · obtain ⟨_, h1, h⟩ := bind_eq_ok.mp h
      cases h
      exact (hc.statusReport h1).update ..
  · exact hc.validBundle h
  · refine deliverLocalBundles ?_ h
    exact hc.withDaemon rfl rfl
  · obtain ⟨_, -, h⟩ := bind_eq_ok.mp h
    refine deliverRemoteBundles ?_ h
    exact hc.withDaemon rfl rfl
  all_goals
    cases h
    exact hc

lemma handle (h : c.handle S w m = .ok c') : c'.Reporting endpoint := by
  cases m with
  | eventBundleUpdated => exact hc.eventBundleUpdated h
  | eventBundleDelivered =>
    obtain ⟨c1, h1, h⟩ := bind_eq_ok.mp h
    refine deliverLocalBundles (update (statusReport ?_ h1) ..) h
    exact hc.withDaemon rfl rfl
  | eventBundleDeliveryFailed | eventClientDisconnected =>
    cases h
    exact hc.withDaemon rfl rfl
  | eventClientConnected =>
    refine deliverLocalBundles ?_ h
    exact hc.withDaemon rfl rfl
  | eventPeerConnected =>
    obtain ⟨node, -, h⟩ := bind_eq_ok.mp h
    split at h <;> [cases h; skip]
    refine deliverRemoteBundles ?_ h
    exact hc.withDaemon rfl rfl
  | eventPeerDisconnected =>
    obtain ⟨node, -, h⟩ := bind_eq_ok.mp h
    split at h <;> cases h
    exact hc.withDaemon rfl rfl
  | eventBundleForwarded =>
    obtain ⟨node, -, h⟩ := bind_eq_ok.mp h
    obtain ⟨_, h1, h⟩ := bind_eq_ok.mp h
    refine deliverRemoteBundles (update (statusReport ?_ h1) ..) h
    exact hc.withDaemon rfl rfl
  | eventBundleForwardingFailed =>
    obtain ⟨_, -, h⟩ := bind_eq_ok.mp h
    cases h
    exact hc.withDaemon rfl rfl
  | eventRoutingTableUpdate =>
    refine deliverRoutes ?_ h
    exact hc.withDaemon rfl rfl

end Context.Reporting

/-- Nothing but reports of this node is sent to be stored. -/
lemma handle_reports {d d' : Daemon} {accepts : List Bool} {m : Message} {commands : List Command}
    (h : d.handle S w accepts m = .ok (d', commands)) :
    ∀ message, .storage message ∈ commands → Reports d.endpoint message := by
  obtain ⟨_, hc', h⟩ := bind_eq_ok.mp h
  cases h
  have hc : Context.Reporting d.endpoint ⟨d, accepts, []⟩ := ⟨rfl, fun _ => nofun⟩
  exact (hc.handle hc').reports

end Dtn.Dtrd.Protocol
