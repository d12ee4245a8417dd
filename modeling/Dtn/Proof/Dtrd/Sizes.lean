import Dtn.Proof.Dtrd.Entries
import Dtn.Proof.Dtrd.Protocol

/-!
# The cached sizes

What a stored bundle caches about its data is right in every state, as long as
new data has the length of the data it replaces (`cached_current`). Then the
size that decides about fragmentation is the length that `Bundle.fragment`
looks at.
-/

namespace Dtn.Dtrd.Storage

open List Dtn.Bp7 Dtn.Dtrd.Protocol UInt64

variable {S : Serde}

/-- New data comes from forwarding the entry that is found, which has no
checksum, and is as long as its data; without new data a bundle is not queued
for forwarding. -/
def SameLength (S : Serde) (d : Daemon) : Message → Prop
  | .updateBundle r st data => ∀ x rest, removeFirst r.primaryBlock d.bundles = some (x, rest) →
    match data with
    | some bs => (∃ w c r', r'.bundleData = x.bundleData ∧ Context.forwardBundle S w c r' = .ok bs) ∧
      (∀ b, Bundle.tryFrom S x.bundleData.bytes = .ok b → b.NoCRC) ∧ bs.length = x.bundleData.bytes.length
    | none => st ≠ .forwardingQueued
  | _ => True

/-- The cached fields are right, and a bundle queued for forwarding is stored as the encoder writes it. -/
def Sized (S : Serde) (sb : StoredBundle) : Prop :=
  ∃ b, sb.Describes S b ∧ (sb.state = .forwardingQueued → b.toVec = .ok sb.bundleData.bytes)

lemma sized_of_state (h : ∃ b, sb.Describes S b) (hst : sb.state ≠ .forwardingQueued) : Sized S sb := by
  obtain ⟨b, hb⟩ := h
  exact ⟨b, hb, fun h => absurd h hst⟩

lemma Sized.change (hx : Sized S x) {data : Option (List UInt8)}
    (hdata : match data with
      | some bs => (∃ w c r', r'.bundleData = x.bundleData ∧ Context.forwardBundle S w c r' = .ok bs) ∧
        (∀ b, Bundle.tryFrom S x.bundleData.bytes = .ok b → b.NoCRC) ∧ bs.length = x.bundleData.bytes.length
      | none => st ≠ .forwardingQueued) (hfit : FitsInMemory (data.elim x.bundleData (⟨address, ·⟩)).bytes) :
    Sized S { x with state := st, bundleData := data.elim x.bundleData (⟨address, ·⟩) } := by
  obtain ⟨b, hb, -⟩ := hx
  cases data with
  | none => exact ⟨b, ⟨hb.decoded, hb.primaryBlock, hb.size, hb.payloadSize⟩, fun h => absurd h hdata⟩
  | some =>
    obtain ⟨⟨_, _, _, hr', hforward⟩, hcrc, hlen⟩ := hdata
    have hforwards := forwardBundle_eq_ok hforward
    rw [hr'] at hforwards
    obtain ⟨b', hdecoded, hv, hpb, hpayload⟩ := hforwards.decoded hb.decoded (hcrc b hb.decoded) hfit
    refine ⟨b', ⟨hdecoded, hb.primaryBlock.trans hpb.symm, ?_, ?_⟩, fun _ => hv⟩
    · exact hb.size.trans (congrArg ofNat hlen.symm)
    · rw [hpayload]; exact hb.payloadSize

lemma sized_of_change (h : Change S sbs m sbs' es) (hd : d.bundles = sbs) (hm : SameLength S d m)
    (hfit : ∀ sb ∈ sbs', FitsInMemory sb.bundleData.bytes) (hi : ∀ sb ∈ sbs, Sized S sb) : ∀ sb ∈ sbs', Sized S sb := by
  intro y hy
  cases h.origin hy with
  | kept hy => exact hi y hy
  | fresh hdescribes hstate =>
    exact sized_of_state hdescribes (by rcases hstate with h | h <;> rw [h] <;> exact nofun)
  | changed hupdate hx =>
    subst hupdate
    exact (hi _ (removeFirst_mem hx).1).change (hm _ _ (hd ▸ hx)) (hfit _ hy)
  | measured hx =>
    obtain ⟨b, hb, hv⟩ := hi _ hx
    exact ⟨b, ⟨hb.decoded, hb.primaryBlock, hb.size, hb.payloadSize⟩, hv⟩

lemma reaches_sized (h : (system S).Reaches (SameLength S) d) : d.Fits ∧ ∀ sb ∈ d.bundles, Sized S sb := by
  refine h.invariant (fun d => d.Fits ∧ ∀ sb ∈ d.bundles, Sized S sb) ?_ ?_
  · rintro d ⟨hfit, endpoint, files, es, hstart⟩
    refine ⟨hfit, fun sb hsb => ?_⟩
    obtain ⟨hdescribes, hstate, -⟩ := loaded (started_bundles hstart) hsb
    exact sized_of_state hdescribes (by rw [hstate]; exact nofun)
  · rintro d m d' ⟨-, hi⟩ hm ⟨hfit, es, h⟩
    exact ⟨hfit, sized_of_change (Daemon.handle_change h) rfl hm hfit hi⟩

/-- In every state reached, what a stored bundle and its references say of its
data is so; a bundle that is queued for forwarding and larger than some limit
has an encoding longer than it, which `Bundle.fragment` asserts. -/
theorem cached_current {d : Daemon} (h : (system S).Reaches (SameLength S) d) {sb : StoredBundle} (hsb : sb ∈ d.bundles)
    {r : StoredBundleRef} (hr : r = sb.getRef) :
    ∃ b payload, Bundle.tryFrom S sb.bundleData.bytes = .ok b ∧ b.payloadData = (.ok payload : Outcome Empty _) ∧
      sb.size = ofNat sb.bundleData.bytes.length ∧ sb.payloadSize = ofNat payload.length ∧
      sb.primaryBlock = b.primaryBlock ∧ r.bundleData = sb.bundleData ∧ r.size = sb.size ∧
      r.payloadSize = sb.payloadSize ∧ r.primaryBlock = sb.primaryBlock ∧
      (r.state = .forwardingQueued → ∀ n : UInt64, n < r.size → ∃ enc, b.toVec = .ok enc ∧ n.toNat < enc.length) := by
  obtain ⟨hfit, hi⟩ := reaches_sized h
  obtain ⟨b, hb, hv⟩ := hi sb hsb
  obtain ⟨payload, hp, hpayload⟩ := hb.payloadSize
  subst hr
  have hlen : sb.bundleData.bytes.length < 2 ^ 64 := by
    have := hfit sb hsb
    simp only [FitsInMemory, isizeMax] at this
    omega
  have hsize : sb.size.toNat = sb.bundleData.bytes.length := by
    rw [hb.size, toNat_ofNat', Nat.mod_eq_of_lt hlen]
  refine ⟨b, payload, hb.decoded, hp, hb.size, hpayload, hb.primaryBlock, rfl, rfl, rfl, rfl, fun hst n hn => ?_⟩
  exact ⟨_, hv hst, by rw [← hsize]; exact lt_iff_toNat_lt.mp hn⟩

/-- What a node with this endpoint makes of a stored bundle when it forwards it. -/
def forwarded (endpoint : Endpoint) (sb : StoredBundle) : List UInt8 :=
  match Context.forwardBundle .plain ⟨fun _ => true, fun _ => true, ⟨0⟩⟩ ⟨.new endpoint, [], []⟩ sb.getRef with
  | .ok data => data
  | _ => []

/-- The entry of a bundle that is queued for forwarding, with new data. -/
def queued (sb : StoredBundle) (address : Nat) (data : List UInt8) : StoredBundle :=
  { sb with state := .forwardingQueued, bundleData := ⟨address, data⟩ }

/-- `ordinary` with a hop count, which forwarding by its own node does not make longer. -/
def counted : Bundle := { ordinary with blocks := ⟨.hopCount ⟨30, 0⟩, 2, .empty, .noCRC⟩ :: ordinary.blocks }

def countedEntry : StoredBundle := received 0 counted someBytes

theorem cached_current_counted :
    ∃ b payload, Bundle.tryFrom .plain (forwarded (.dtn ⟨"none"⟩) countedEntry) = .ok b ∧
      b.payloadData = (.ok payload : Outcome Empty _) ∧ countedEntry.size = ofNat
        (forwarded (.dtn ⟨"none"⟩) countedEntry).length ∧ countedEntry.payloadSize = ofNat payload.length ∧
      ∃ enc, b.toVec = .ok enc ∧ (200 : UInt64).toNat < enc.length := by
  have h0 : (system .plain).Reaches (SameLength .plain) (storeOf [] 0) :=
    .init ⟨by decide, .ipn ⟨1, 0⟩, [], [], rfl⟩
  have h1 : (system .plain).Reaches (SameLength .plain) (storeOf [countedEntry] 1) :=
    h0.step (a := .storeReceivedBundle (encoded counted)) trivial
      ⟨by decide +kernel, [.eventBundleUpdated countedEntry.getRef], by decide +kernel⟩
  have hforward : Context.forwardBundle .plain ⟨fun _ => true, fun _ => true, ⟨0⟩⟩ ⟨.new (.dtn ⟨"none"⟩), [], []⟩
      countedEntry.getRef = .ok (forwarded (.dtn ⟨"none"⟩) countedEntry) := by decide +kernel
  have hdecode : Bundle.tryFrom .plain countedEntry.bundleData.bytes = .ok counted := by decide +kernel
  have hsame : SameLength .plain (storeOf [countedEntry] 1)
      (.updateBundle countedEntry.getRef .forwardingQueued (some (forwarded (.dtn ⟨"none"⟩) countedEntry))) := by
    intro x rest hx
    have hfirst : removeFirst countedEntry.primaryBlock [countedEntry] = some (countedEntry, []) := if_pos rfl
    cases hx.symm.trans hfirst
    refine ⟨⟨_, _, _, rfl, hforward⟩, fun b hb => ?_, by decide +kernel⟩
    cases hdecode.symm.trans hb
    decide
  have h2 : (system .plain).Reaches (SameLength .plain)
      (storeOf [queued countedEntry 1 (forwarded (.dtn ⟨"none"⟩) countedEntry)] 2) :=
    h1.step hsame ⟨by decide +kernel, [.eventBundleUpdated (queued countedEntry 1
      (forwarded (.dtn ⟨"none"⟩) countedEntry)).getRef], by decide +kernel⟩
  obtain ⟨b, payload, hb, hp, hsize, hpayload, -, -, -, -, -, henc⟩ := cached_current h2 mem_cons_self rfl
  have hlarge : (200 : UInt64) < countedEntry.size := by decide +kernel
  generalize forwarded (.dtn ⟨"none"⟩) countedEntry = data at *
  exact ⟨b, payload, hb, hp, hsize, hpayload, henc rfl 200 hlarge⟩

/-- `ordinary` has no hop count and no previous node, so that it gets longer when it is forwarded. Its entry keeps the
size. -/
theorem cached_stale :
    (storeOf [] 0).run .plain [.storeReceivedBundle (encoded ordinary), .updateBundle ordinaryEntry.getRef
      .forwardingQueued (some (forwarded (.ipn ⟨1, 0⟩) ordinaryEntry))] =
        .ok (storeOf [queued ordinaryEntry 1 (forwarded (.ipn ⟨1, 0⟩) ordinaryEntry)] 2) ∧
    (queued ordinaryEntry 1 (forwarded (.ipn ⟨1, 0⟩) ordinaryEntry)).size ≠
      ofNat (forwarded (.ipn ⟨1, 0⟩) ordinaryEntry).length ∧ forwarded (.ipn ⟨1, 0⟩) ordinaryEntry ≠ [] := by
  decide +kernel

end Dtn.Dtrd.Storage
