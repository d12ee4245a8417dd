import Dtn.Proof.Dtrd.Readable
import Dtn.Proof.Dtrd.Runs

/-!
# The storage agent and what it receives

As long as what a node receives is orderly and the fragments for it agree
(`Careful`), all it has stored and all that is on its way can be read (`Calm`), and
so no handler of its storage agent panics (`storage_returns`). `validate` does not
look at that: bundles that pass it stop the agent (`storage_panics`).
-/

namespace Dtn.Dtrd

open List Multiset Dtn.Bp7 Protocol Storage Storage.Daemon

variable {S : Serde} {endpoint : Endpoint} {found files : List (String × List UInt8)}

/-- What is received can be read, and a client sends new bundles of this node. When the storage agent handles a message
there is memory for it, an arriving fragment agrees with those that are stored, and a bundle that is to be cut can
be. -/
def Node.Careful (S : Serde) (n : Node) : NodeEvent → Prop
  | .submit (.storeReceivedBundle bs) => Storage.Readable S bs
  | .submit (.storeNewBundle bs) => Storage.Fresh S n.store.endpoint bs
  | .storage => match n.persisted, n.storeBox with
    | none, m :: _ => m.Agrees S n.store.endpoint n.store.bundles ∧ n.store.Divides S m ∧
      2 * (n.store.space S + m.space S) + 128 ≤ isizeMax
    | _, _ => True
  | _ => True

instance (S : Serde) (n : Node) (e : NodeEvent) : Decidable (n.Careful S e) := by
  unfold Node.Careful
  repeat' split
  all_goals infer_instance

/-- The files have orderly bundles, and the fragments among them agree. -/
def Loadable (S : Serde) (endpoint : Endpoint) (files : List (String × List UInt8)) : Prop :=
  (∀ f ∈ files, Storage.Readable S f.2) ∧ ∀ sbs, load S 0 files = .ok sbs → Storage.Tied endpoint sbs

/-- What a message to the storage agent may bring. -/
def Storage.Message.Sent (S : Serde) (endpoint : Endpoint) : Storage.Message → Prop
  | .storeReceivedBundle bs => Readable S bs
  | .storeNewBundle bs => Fresh S endpoint bs ∨ IsReport endpoint bs
  | _ => True

def Protocol.Command.toStorage : Command → Option Storage.Message
  | .storage m => some m
  | _ => none

namespace Node

variable {n n' : Node} {e : NodeEvent}
variable {m : Storage.Message} {box : List Storage.Message}

/-- All bundles can be read, wherever they are. -/
structure Calm (S : Serde) (endpoint : Endpoint) (n : Node) : Prop where
  own : n.store.endpoint = endpoint
  entries : ∀ y ∈ n.store.bundles, Storage.Readable S y.bundleData.bytes
  refs : ∀ r ∈ n.items.map Prod.snd, Storage.Readable S r.bundleData.bytes
  box : ∀ m ∈ n.storeBox, m.Sent S endpoint
  tied : Storage.Tied endpoint n.store.bundles

lemma storeBox_foldl_deliver (commands : List Protocol.Command) (n : Node) :
    (commands.foldl deliver n).storeBox = n.storeBox ++ commands.filterMap Protocol.Command.toStorage := by
  induction commands generalizing n with
  | nil => exact (append_nil _).symm
  | cons command _ ih =>
    rw [List.foldl_cons, ih]
    cases command with
    | storage => exact append_assoc ..
    | clientDeliverBundle | agentForwardBundle =>
      rw [deliver]
      split <;> rfl

/-- What the storage agent is told arrives, or the protocol agent says it. -/
lemma Step.storeBox (h : Step S n e n') (hn : n.Sound S endpoint) (he : e ≠ .storage) :
    ∃ ms, n'.storeBox = n.storeBox ++ ms ∧ ((∃ m, e = .submit m ∧ ms = [m]) ∨ ∀ m ∈ ms, Reports endpoint m) := by
  cases h with
  | start | storage => exact absurd rfl he
  | @submit m => exact ⟨[m], rfl, .inl ⟨m, rfl, rfl⟩⟩
  | @protocol _ _ _ _ _ _ _ h =>
    refine ⟨_, storeBox_foldl_deliver .., .inr fun m' hm' => ?_⟩
    obtain ⟨command, hcommand, hm'⟩ := List.mem_filterMap.mp hm'
    cases command <;> cases hm'
    have hreports := handle_reports h m' hcommand
    rwa [hn.knows.context.endpoint] at hreports
  | _ => exact ⟨[], (append_nil _).symm, .inr (forall_mem_nil _)⟩

lemma Step.storeBox_storage (h : Step S n .storage n') : ∀ m ∈ n'.storeBox, m ∈ n.storeBox := by
  cases h with
  | idle | start => exact fun m hm => hm
  | storage _ hbox => exact fun m hm => by rw [hbox]; exact List.mem_cons_of_mem _ hm

lemma Calm.box_step (hc : n.Calm S endpoint) (hn : n.Sound S endpoint) (h : Step S n e n') (ha : n.Careful S e) :
    ∀ m ∈ n'.storeBox, m.Sent S endpoint := by
  by_cases he : e = .storage
  · subst he
    exact fun m hm => hc.box m (h.storeBox_storage m hm)
  · obtain ⟨_, hms, hsent⟩ := h.storeBox hn he
    rw [hms]
    refine forall_mem_append.mpr ⟨hc.box, ?_⟩
    rcases hsent with ⟨m, rfl, rfl⟩ | hreports
    · refine forall_mem_singleton.mpr ?_
      cases m with
      | storeReceivedBundle => exact ha
      | storeNewBundle => exact .inl (hc.own ▸ ha)
      | updateBundle | fragmentBundle => trivial
    · intro m hm
      cases m with
      | storeReceivedBundle => exact (hreports _ hm).elim
      | storeNewBundle => exact .inr (hreports _ hm)
      | updateBundle | fragmentBundle => trivial

/-- What the message brings can be read, if it fits in memory. -/
lemma Calm.brings (hc : n.Calm S endpoint) (hn : n.Sound S endpoint)
    (hself : endpoint.matchesNode endpoint = (.ok true : Outcome Empty Bool)) (hbox : n.storeBox = m :: box)
    (hroom : m.space S ≤ isizeMax) : m.Brings S ∧ ∀ bs, m = .storeNewBundle bs → Storage.Fresh S endpoint bs := by
  have hsent := hc.box m (by rw [hbox]; exact List.mem_cons_self)
  have href {r} (hr : m.bundleref = some r) : Storage.Readable S r.bundleData.bytes := by
    obtain ⟨_, hitems, -⟩ := items_handled hbox n.store []
    refine hc.refs r ?_
    rw [hitems, mem_message_items hr]
    simp
  cases m with
  | storeReceivedBundle => exact ⟨hsent, fun _ => nofun⟩
  | storeNewBundle bs =>
    have hfresh : Storage.Fresh S endpoint bs := by
      rcases hsent with hfresh | hreport
      · exact hfresh
      · exact fresh_of_isReport hself hreport (Nat.le_trans (Nat.le_add_right ..) hroom)
    exact ⟨hfresh.readable, fun bs' h => by cases h; exact hfresh⟩
  | updateBundle => exact ⟨brings_of_ok rfl (hn.message hbox rfl).2 (href rfl), fun _ => nofun⟩
  | fragmentBundle => exact ⟨trivial, fun _ => nofun⟩

lemma Calm.returns (hc : n.Calm S endpoint) (hn : n.Sound S endpoint)
    (hself : endpoint.matchesNode endpoint = (.ok true : Outcome Empty Bool)) (hstarted : n.persisted = none)
    (hbox : n.storeBox = m :: box) (ha : n.Careful S .storage) : ∃ d es, n.store.handle S m = .ok (d, es) := by
  rw [Careful, hstarted, hbox] at ha
  obtain ⟨-, hdivides, hroom⟩ := ha
  obtain ⟨hbrings, hnew⟩ := hc.brings hn hself hbox (by omega)
  obtain ⟨⟨d, es⟩, hx⟩ := handle_of_readable hc.entries hn.entries hc.tied
    (fun r hr => (hn.message hbox hr).2) hbrings (by rw [hc.own]; exact hnew) hdivides hroom
  exact ⟨d, es, hx⟩

lemma Calm.storage (hc : n.Calm S endpoint) (hn : n.Sound S endpoint) (hunstarted : n.Unstarted files)
    (hfiles : Loadable S endpoint files) (hself : endpoint.matchesNode endpoint = (.ok true : Outcome Empty Bool))
    (h : Step S n .storage n') (hfit : n'.store.Fits) (ha : n.Careful S .storage) : n'.Calm S endpoint := by
  have hbox' := hc.box_step hn h ha
  cases h with
  | idle => exact hc
  | @start files' d _ hpersisted h =>
    obtain ⟨rfl, -⟩ := hunstarted files' hpersisted
    obtain ⟨hload, hes⟩ := started_eq_ok h
    have hread : ∀ y ∈ d.bundles, Storage.Readable S y.bundleData.bytes := fun y hy => by
      obtain ⟨-, -, f, hf, hdata⟩ := loaded hload hy
      rw [hdata]
      exact hfiles.1 f hf
    have hown : d.endpoint = n.store.endpoint := by
      obtain ⟨_, -, h⟩ := Outcome.bind_eq_ok.mp h
      cases h
      rfl
    refine ⟨hown.trans hc.own, hread, fun r hr => ?_, hbox', hfiles.2 _ hload⟩
    rw [items_started, hes, Multiset.map_add, items_announced] at hr
    rcases mem_add.mp hr with hr | hr
    · obtain ⟨y, hy, rfl⟩ := List.mem_map.mp (mem_coe.mp hr)
      exact hread y hy
    · exact hc.refs r hr
  | @storage m _ d es hstarted hbox h =>
    rw [Careful, hstarted, hbox] at ha
    obtain ⟨hagrees, -, _⟩ := ha
    obtain ⟨hbrings, -⟩ := hc.brings hn hself hbox (by omega)
    have hchange := handle_change h
    have hm (r : StoredBundleRef) (hr : m.bundleref = some r) := hn.message hbox hr
    have hread := readable_of_change hchange hbrings hfit hc.entries
    obtain ⟨_, _, _, hex⟩ := exchange_of_change hchange (fun r hr => (hm r hr).2) hn.entries
    obtain ⟨_, _, hafter⟩ := items_handled hbox d (es.filterMap Storage.Effect.message)
    refine ⟨(handle_endpoint_distinct h).1.trans hc.own, hread, fun r hr => ?_, hbox', ?_⟩
    · rw [hafter, hex.told, Multiset.map_add, items_announced] at hr
      rcases mem_add.mp hr with hr | hr
      · obtain ⟨y, hy, rfl⟩ := List.mem_map.mp (mem_coe.mp hr)
        exact hread y (hex.after.mem_iff.mpr (mem_append_right _ hy))
      · grind [hc.refs, Multiset.map_add]
    · rw [hc.own] at hagrees
      exact hc.tied.change hchange hm hagrees hbrings hfit hc.entries hn.entries

lemma Calm.step (hc : n.Calm S endpoint) (hkept : n.Kept S endpoint files) (hfiles : Loadable S endpoint files)
    (hself : endpoint.matchesNode endpoint = (.ok true : Outcome Empty Bool)) (h : Step S n e n') (hfit : n'.store.Fits)
    (ha : n.Careful S e) : n'.Calm S endpoint := by
  by_cases he : e = .storage
  · subst he
    exact hc.storage hkept.sound hkept.unstarted hfiles hself h hfit ha
  · obtain ⟨_, hshifts⟩ := h.shifts he hkept.sound
    obtain ⟨hstore, -, -⟩ := h.frame he
    refine ⟨?_, ?_, fun r hr => hc.refs r (hshifts.refs hr), hc.box_step hkept.sound h ha, ?_⟩ <;> rw [hstore]
    · exact hc.own
    · exact hc.entries
    · exact hc.tied

lemma start_calm (h : Node.start S endpoint found files = .ok n) (hfound : ∀ f ∈ found, Storage.Readable S f.2) :
    n.Calm S endpoint := by
  obtain ⟨_, hsbs, rfl⟩ := start_eq_ok h
  refine ⟨rfl, forall_mem_nil _, fun r hr => ?_, forall_mem_nil _, forall_mem_nil _⟩
  rw [items_start, items_announced] at hr
  obtain ⟨y, hy, rfl⟩ := List.mem_map.mp (mem_coe.mp hr)
  obtain ⟨-, -, f, hf, hdata⟩ := loaded hsbs hy
  change Storage.Readable S y.bundleData.bytes
  rw [hdata]
  exact hfound f hf

lemma reaches_calm (h : (node S endpoint found files).Reaches (Careful S) n)
    (hself : endpoint.matchesNode endpoint = (.ok true : Outcome Empty Bool))
    (hfound : ∀ f ∈ found, Storage.Readable S f.2) (hfiles : Loadable S endpoint files) : n.Calm S endpoint := by
  refine (h.invariant (fun n => n.Kept S endpoint files ∧ n.Calm S endpoint)
    (fun n h => ⟨start_kept h, start_calm h hfound⟩) fun n e n' hn ha h => ?_).2
  obtain ⟨hkept, hc⟩ := hn
  have hstep := next_step h.2
  exact ⟨hstep.kept h.1 hkept,
    hc.step hkept hfiles hself hstep h.1 ha⟩

end Node

open Node

/-- If what was found and what is received is orderly and the fragments for this node agree, the storage agent returns
from the handler of every message that there is memory for, and that does not ask for an impossible cut. -/
theorem storage_returns {n : Node} (h : (node S endpoint found files).Reaches (Careful S) n)
    (hself : endpoint.matchesNode endpoint = (.ok true : Outcome Empty Bool))
    (hfound : ∀ f ∈ found, Storage.Readable S f.2) (hfiles : Loadable S endpoint files) {m : Storage.Message}
    {box : List Storage.Message} (hstarted : n.persisted = none) (hbox : n.storeBox = m :: box)
    (ha : n.Careful S .storage) : ∃ d es, n.store.handle S m = .ok (d, es) := by
  exact (reaches_calm h hself hfound hfiles).returns (reaches_kept h).sound hself hstarted hbox ha

/-- A fragment of five bytes from `ipn:3.0` to `ipn:1.5`. -/
def scrap (o : UInt64) (data : List UInt8) : Bundle where
  primaryBlock := ⟨7, .fragment, .noCRC, .ipn ⟨1, 5⟩, .ipn ⟨3, 0⟩, .ipn ⟨3, 0⟩, ⟨⟨1000⟩, 1⟩, 3600, some o, some 5⟩
  blocks := [⟨.payload ⟨data⟩, 1, .empty, .noCRC⟩]

/-- What `ipn:1.0` does when these two bundles for it arrive, up to the moment before it looks for fragments. -/
def scrapEvents (b b' : Bundle) : List NodeEvent :=
  [.storage, .submit (.storeReceivedBundle (encoded b)), .submit (.storeReceivedBundle (encoded b')),
    .storage, .storage, .protocol [] ⟨0⟩, .protocol [] ⟨0⟩, .storage, .storage, .protocol [] ⟨0⟩, .protocol [] ⟨0⟩]

/-- The storage agent is told to look for the fragments of a bundle. -/
def asksToJoin : Storage.Message → Bool
  | .updateBundle _ .defragmentationPending none => true
  | _ => false

/-- Two fragments have arrived, and the storage agent is told to look for them. -/
theorem storage_returns_scrap : ∃ n m, (node .plain (.ipn ⟨1, 0⟩) [] []).Reaches (Careful .plain) n ∧
    m ∈ n.storeBox ∧ (∃ r, m = .updateBundle r .defragmentationPending none) ∧
      ∃ d es, n.store.handle .plain m = .ok (d, es) := by
  obtain ⟨n, hreaches, hstarted, hcareful, h⟩ := reaches_any (Careful .plain)
    (scrapEvents (scrap 0 [1, 2, 3]) (scrap 3 [4, 5]))
    (fun n => n.persisted = none ∧ n.Careful .plain .storage ∧ n.storeBox.head?.any asksToJoin) (by decide +kernel)
  obtain ⟨m, hm, h⟩ := (Option.any_eq_true _ _).mp h
  obtain ⟨box, hbox⟩ := List.head?_eq_some_iff.mp hm
  refine ⟨n, m, hreaches, by rw [hbox]; exact List.mem_cons_self, ?_, ?_⟩
  · unfold asksToJoin at h
    split at h
    · exact ⟨_, rfl⟩
    · cases h
  · exact storage_returns hreaches rfl (forall_mem_nil _) ⟨forall_mem_nil _, fun sbs h => by
      cases h; exact forall_mem_nil _⟩ hstarted hbox hcareful

/-- It has the fields of a fragment, but not the flag. -/
def unflagged : Bundle where
  primaryBlock := { (scrap 0 [1, 2, 3]).primaryBlock with bundleProcessingFlags := ⟨0⟩ }
  blocks := (scrap 0 [1, 2, 3]).blocks

/-- It belongs to `scrap`, but says that there is one byte more. -/
def longer : Bundle where
  primaryBlock := { (scrap 3 [4, 5, 6]).primaryBlock with totalDataLength := some 6 }
  blocks := (scrap 3 [4, 5, 6]).blocks

/-- It has the flag of a fragment, but not the fields, and is for another node. -/
def fieldless : Bundle where
  primaryBlock := ⟨7, .fragment, .noCRC, .ipn ⟨2, 5⟩, .ipn ⟨3, 0⟩, .ipn ⟨3, 0⟩, ⟨⟨1000⟩, 1⟩, 3600, none, none⟩
  blocks := [⟨.payload ⟨[1, 2, 3]⟩, 1, .empty, .noCRC⟩]

/-- What `ipn:1.0` does when `fieldless` arrives and its peer `ipn:2.0` takes 60 bytes at most. -/
def fieldlessEvents : List NodeEvent :=
  [.connect 7, .notify (.eventPeerConnected (.ipn ⟨2, 0⟩) 7), .protocol [] ⟨0⟩,
    .notify (.eventRoutingTableUpdate ⟨[(.ipn ⟨2, 0⟩, ⟨.ipn ⟨2, 0⟩, some 60⟩)]⟩), .protocol [] ⟨0⟩, .storage,
    .submit (.storeReceivedBundle (encoded fieldless)), .storage, .protocol [] ⟨0⟩, .storage, .protocol [] ⟨0⟩,
    .storage, .protocol [true] ⟨0⟩]

/-- Bundles that can be decoded and are valid stop the storage agent: one without the flag that it has the fields for,
fragments that do not agree, and one without the fields that it has the flag for. -/
theorem storage_panics :
    (∀ b ∈ [unflagged, scrap 0 [1, 2, 3], longer, fieldless], Bundle.tryFrom .plain (encoded b) = .ok b ∧
      (b.blocks.filter (·.block.isPayload)).length = 1 ∧ b.validate = true) ∧
    ∀ events ∈ [scrapEvents unflagged (scrap 3 [4, 5]), scrapEvents (scrap 0 [1, 2, 3]) longer, fieldlessEvents],
      (emptyNode.run .plain (fun _ _ => True) events).map (·.handleStorage .plain) = some .panic := by
  decide +kernel

end Dtn.Dtrd
