import Mathlib.Data.List.Sort
import Dtn.Proof.Bp7.Cuts
import Dtn.Proof.Dtrd.Storage

/-!
# What becomes of a stored bundle

An entry of the store survives a message, or it leaves for a reason: it is
done, or its fragments or the bundle it is a fragment of are stored instead
(`Fate`, `handle_fate`, and `run_fate` for a whole run). A message acts on the
first entry with the primary block it refers to, so on the one that was meant if
and only if none before it compares equal (`handle_acts`).
-/

namespace Dtn.Dtrd

open List Outcome Dtn.Bp7 Bundle StoredBundle

/-- The payload in the data of a stored bundle. -/
def StoredBundle.payload (S : Serde) (sb : StoredBundle) : Outcome Empty (List UInt8) := do
  let bundle ← sb.getBundle S
  bundle.payloadData

namespace Storage

/-- The payloads of some entries, one behind the other in the order of their offsets. -/
def joined (S : Serde) (sbs : List StoredBundle) : Outcome Empty (List UInt8) := do
  let bundles ← Daemon.getBundles S sbs
  Outcome.concat payloadData (bundles.insertionSort fun a b => a.offset ≤ b.offset)

/-! ## Entries made by the agent itself -/

/-- What an entry is made of by the encoder comes out of the decoder again. -/
lemma describes_toVec {S : Serde} {f : Bundle} {y : StoredBundle} (hf : f.Shaped)
    (hdata : f.toVec = .ok y.bundleData.bytes) (hy : ∃ b, y.Describes S b) (hfit : FitsInMemory y.bundleData.bytes) :
    f.Regular ∧ y.Describes S f := by
  obtain ⟨_, hb⟩ := hy
  obtain ⟨hregular, rfl⟩ := hf.decoded hdata hfit hb.decoded
  exact ⟨hregular, hb⟩

lemma getBundles_of_forall₂ (h : List.Forall₂ (fun b sb => tryFrom S sb.bundleData.bytes = .ok b) bs sbs) :
    Daemon.getBundles S sbs = .ok bs := by
  induction h with
  | nil => rfl
  | cons hb _ ih => rw [Daemon.getBundles, getBundle, hb, unwrap_ok, ih]; rfl

lemma concat_of_forall₂
    (h : List.Forall₂ (fun f part => (f.payloadData : Outcome Empty (List UInt8)) = .ok part) fs parts) :
    (Outcome.concat payloadData fs : Outcome Empty (List UInt8)) = .ok parts.flatten := by
  induction h with
  | nil => rfl
  | cons hf _ ih => exact concat_cons_eq_ok.mpr ⟨_, _, hf, ih, rfl⟩

lemma payload_eq {S : Serde} {sb : StoredBundle} {b : Bundle} (h : tryFrom S sb.bundleData.bytes = .ok b) :
    sb.payload S = b.payloadData := by
  rw [payload, getBundle, h, unwrap_ok, ok_bind]

lemma holds_decoded {S : Serde} {fs : List Bundle} {ys : List StoredBundle} (h : List.Forall₂ (Holds S) fs ys)
    (hfs : ∀ f ∈ fs, f.Shaped) (hfit : ∀ y ∈ ys, FitsInMemory y.bundleData.bytes) :
    List.Forall₂ (fun f y => y.Describes S f) fs ys := by
  induction h with
  | nil => exact .nil
  | cons hf _ ih =>
    exact .cons (describes_toVec (hfs _ mem_cons_self) hf.data hf.describes (hfit _ mem_cons_self)).2
      (ih (fun f h => hfs f (mem_cons_of_mem _ h)) fun y h => hfit y (mem_cons_of_mem _ h))

lemma joined_fragments {S : Serde} {x : StoredBundle} {b : Bundle} {n : Nat} {fs : List Bundle}
    {sizes : UInt64 × UInt64} {ys : List StoredBundle} {payload : List UInt8}
    (hb : tryFrom S x.bundleData.bytes = .ok b) (hfs : b.fragment n = .ok (fs, sizes))
    (hys : List.Forall₂ (Holds S) fs ys) (hfit : ∀ y ∈ ys, FitsInMemory y.bundleData.bytes)
    (hp : b.payloadData = (.ok payload : Outcome Empty _)) (hstarts : b.StartsFit n) : joined S ys = .ok payload := by
  have hdecoded := holds_decoded hys (fun f hf => fragment_shaped (tryFrom_shaped hb) hfs hf) hfit
  obtain ⟨_, hparts, rfl⟩ := fragment_payloads hfs hp
  rw [joined, getBundles_of_forall₂ (hdecoded.imp fun _ _ h => h.decoded), ok_bind,
    (hstarts.sorted hfs).insertionSort_eq, concat_of_forall₂ hparts]

/-! ## Entries that leave -/

/-- What becomes of an entry: it stays, perhaps with new data, or it leaves. -/
inductive Fate (S : Serde) (x : StoredBundle) : Message → List StoredBundle → Prop
  | stays (hy : y ∈ sbs') (hpb : y.primaryBlock = x.primaryBlock) (hsize : y.size = x.size)
    (hdata : y.bundleData = x.bundleData ∨ ∃ r st, m = .updateBundle r st (some y.bundleData.bytes) ∧
      r.primaryBlock = x.primaryBlock) : Fate S x m sbs'
  | done (hr : r.primaryBlock = x.primaryBlock) (hst : st.Done) : Fate S x (.updateBundle r st data) sbs'
  | fragmented (hr : r.primaryBlock = x.primaryBlock) (hb : tryFrom S x.bundleData.bytes = .ok b)
    (hfs : b.fragment n.toNat = .ok (fs, sizes))
    (hys : List.Forall₂ (fun f y => y.Describes S f) fs ys) (hjoined : joined S ys = x.payload S) :
    Fate S x (.fragmentBundle r n) (rest ++ ys)
  | reassembled (hb : tryFrom S x.bundleData.bytes = .ok b) (hmem : b ∈ bundles)
    (hcan : reassembleBundles bundles = .ok y.bundleData.bytes) (hy : y.Describes S whole)
    (hwhole : whole.primaryBlock.fragmentOffset = none) :
    Fate S x (.updateBundle r .defragmentationPending data) (rest ++ [y])

lemma fate_of_mem (h : x ∈ sbs') :
    Fate S x m sbs' := .stays h rfl rfl (.inl rfl)

/-- The offsets of the fragments of the bundle that is to be fragmented do not overflow. -/
def OffsetsFit (S : Serde) (sbs : List StoredBundle) : Message → Prop
  | .fragmentBundle r n => ∀ x rest, removeFirst r.primaryBlock sbs = some (x, rest) → ∀ b,
    tryFrom S x.bundleData.bytes = .ok b → b.StartsFit n.toNat
  | _ => True

lemma mem_of_removeFirst (hx : removeFirst pb sbs = some (x, rest)) (hz : z ∈ sbs) : z = x ∨ z ∈ rest :=
  mem_cons.mp ((removeFirst_perm hx).mem_iff.mp hz)

lemma fragment_payloadData {b : Bundle} {n : Nat} {fs : List Bundle} {sizes : UInt64 × UInt64}
    (h : b.fragment n = .ok (fs, sizes)) : ∃ payload, (b.payloadData : Outcome Empty (List UInt8)) = .ok payload := by
  obtain ⟨c, -, hc, -⟩ := fragment_tiled h
  exact ⟨c.block.content, by rw [payloadData, payloadCanonicalBlock, hc]; rfl⟩

lemma fate_fragmented {S : Serde} {sbs rest ys : List StoredBundle} {r : StoredBundleRef} {n : UInt64}
    {x : StoredBundle} {b : Bundle} {fs : List Bundle} {sizes : UInt64 × UInt64}
    (hx : removeFirst r.primaryBlock sbs = some (x, rest)) (hb : tryFrom S x.bundleData.bytes = .ok b)
    (hfs : b.fragment n.toNat = .ok (fs, sizes)) (hys : List.Forall₂ (Holds S) fs ys)
    (hfit : ∀ y ∈ ys, FitsInMemory y.bundleData.bytes) (hoff : OffsetsFit S sbs (.fragmentBundle r n)) :
    Fate S x (.fragmentBundle r n) (rest ++ ys) := by
  obtain ⟨payload, hp⟩ := fragment_payloadData hfs
  have hdecoded := holds_decoded hys (fun f hf => fragment_shaped (tryFrom_shaped hb) hfs hf) hfit
  refine .fragmented (removeFirst_primaryBlock hx).symm hb hfs hdecoded ?_
  rw [joined_fragments hb hfs hys hfit hp (hoff x rest hx b hb), payload_eq hb, hp]

/-- What comes out of a reassembly is no fragment. -/
lemma describes_reassembled {S : Serde} {fragments : List StoredBundle} {bundles : List Bundle} {y : StoredBundle}
    (hbundles : List.Forall₂ (fun sb b => tryFrom S sb.bundleData.bytes = .ok b) fragments bundles)
    (hcan : reassembleBundles bundles = .ok y.bundleData.bytes) (hy : ∃ b, y.Describes S b)
    (hfit : FitsInMemory y.bundleData.bytes) : ∃ main ∈ bundles, ∃ data, y.Describes S (rebuild main data) := by
  obtain ⟨-, main, hmain, data, hdata⟩ := reassembleBundles_eq_ok hcan
  obtain ⟨_, -, hsb⟩ := forall₂_mem' hbundles hmain
  exact ⟨main, hmain, data, (describes_toVec (rebuild_shaped (tryFrom_shaped hsb) data) hdata hy hfit).2⟩

lemma fate_of_change {S : Serde} {sbs sbs' : List StoredBundle} {m : Message} {es : List Effect}
    (h : Change S sbs m sbs' es) (hfit : ∀ sb ∈ sbs', FitsInMemory sb.bundleData.bytes) (hoff : OffsetsFit S sbs m)
    {z : StoredBundle} (hz : z ∈ sbs) : Fate S z m sbs' := by
  cases h with
  | received | created => exact fate_of_mem (mem_append_left _ hz)
  | missing => exact fate_of_mem hz
  | @changed _ r st data _ _ _ hx _ hy =>
    rcases mem_of_removeFirst hx hz with rfl | hz
    · subst hy
      refine .stays (mem_append_right _ mem_cons_self) rfl rfl ?_
      cases data with
      | none => exact .inl rfl
      | some => exact .inr ⟨r, st, rfl, (removeFirst_primaryBlock hx).symm⟩
    · exact fate_of_mem (mem_append_left _ hz)
  | finished hx hst =>
    rcases mem_of_removeFirst hx hz with rfl | hz
    · exact .done (removeFirst_primaryBlock hx).symm hst
    · exact fate_of_mem hz
  | waiting => grind [mem_of_removeFirst, fate_of_mem]
  | @reassembled rest _ _ x y _ _ hx _ hbundles hcan hdata hy =>
    have hz : z ∈ rest ++ [x] := by simpa [or_comm] using mem_of_removeFirst hx hz
    subst hdata
    cases hfragment : isFragmentOf S x.primaryBlock z
    · grind [fate_of_mem]
    · obtain ⟨_, hb, hdecoded⟩ := forall₂_mem hbundles (mem_filter.mpr ⟨hz, hfragment⟩)
      obtain ⟨_, -, _, hwhole⟩ := describes_reassembled hbundles hcan hy
        (hfit y (mem_append_right _ mem_cons_self))
      exact .reassembled hdecoded hb hcan hwhole rfl
  | tooSmall hx =>
    rcases mem_of_removeFirst hx hz with rfl | hz
    · exact .stays (mem_append_right _ mem_cons_self) rfl rfl (.inl rfl)
    · exact fate_of_mem (mem_append_left _ hz)
  | fragmented => grind [mem_of_removeFirst, fate_fragmented, fate_of_mem]

/-- The messages that are about no entry, or that find that nothing can be done yet. -/
inductive Rejected (S : Serde) (sbs : List StoredBundle) : Message → Prop
  | missing (hr : m.bundleref = some r) (h : ∀ x ∈ sbs, x.primaryBlock ≠ r.primaryBlock) : Rejected S sbs m
  | tooSmall (hx : removeFirst r.primaryBlock sbs = some (x, rest)) (hb : tryFrom S x.bundleData.bytes = .ok b)
    (h : b.fragment n.toNat = .err (.canNotFragmentThatSmall k)) : Rejected S sbs (.fragmentBundle r n)
  | incomplete (hx : removeFirst r.primaryBlock sbs = some (x, rest))
    (h : ∀ bundles, List.Forall₂ (fun sb b => tryFrom S sb.bundleData.bytes = .ok b)
      ((rest ++ [x]).filter (isFragmentOf S x.primaryBlock)) bundles → ∀ bs, reassembleBundles bundles ≠ .ok bs) :
    Rejected S sbs (.updateBundle r .defragmentationPending data)

lemma removeFirst_ne_none (h : removeFirst pb sbs = some x) : ¬ ∀ y ∈ sbs, y.primaryBlock ≠ pb := fun hne =>
  hne x.1 ((removeFirst_perm h).mem_iff.mpr mem_cons_self) (removeFirst_primaryBlock h)

lemma payloads_of_rejected (h : Change S sbs m sbs' es) (hm : Rejected S sbs m) :
    (sbs'.map (·.payload S)).Perm (sbs.map (·.payload S)) := by
  cases h with
  | received | created => cases hm with | missing hr => cases hr
  | missing => exact .refl _
  | changed hx hst =>
    cases hm with
    | missing hr hne => cases hr; exact absurd hne (removeFirst_ne_none hx)
    | incomplete => simp [State.Queued] at hst
  | finished hx hst =>
    cases hm with
    | missing hr hne => cases hr; exact absurd hne (removeFirst_ne_none hx)
    | incomplete => simp [State.Done] at hst
  | @waiting rest _ _ x _ _ hx =>
    have hperm := ((filter_append_perm (isFragmentOf S x.primaryBlock) (rest ++ [x])).symm.trans
      perm_append_comm).symm
    exact (hperm.trans (perm_append_comm.trans (removeFirst_perm hx).symm)).map _
  | reassembled hx =>
    cases hm with
    | missing hr hne => cases hr; exact absurd hne (removeFirst_ne_none hx)
    | incomplete => grind
  | @tooSmall rest r n minSize x b hx =>
    have hperm : (rest ++ [{ x with minSize := some minSize }]).Perm ({ x with minSize := some minSize } :: rest) :=
      perm_append_comm
    exact (hperm.map _).trans ((removeFirst_perm hx).symm.map (·.payload S))
  | fragmented hx =>
    cases hm with
    | missing hr hne => cases hr; exact absurd hne (removeFirst_ne_none hx)
    | tooSmall => grind

/-- A stored bundle leaves the store only if it is done, or if its fragments or
a bundle that it is part of are stored instead; a message that is rejected
leaves the payloads as they are. -/
theorem handle_fate {S : Serde} {d d' : Daemon} {m : Message} {es : List Effect} (h : d.handle S m = .ok (d', es))
    (hfit : d'.Fits) (hoff : OffsetsFit S d.bundles m) :
    (∀ x ∈ d.bundles, Fate S x m d'.bundles) ∧
      (Rejected S d.bundles m → (d'.bundles.map (·.payload S)).Perm (d.bundles.map (·.payload S))) :=
  ⟨fun _ hx => fate_of_change (Daemon.handle_change h) hfit hoff hx, payloads_of_rejected (Daemon.handle_change h)⟩

/-- An entry of the first state of a run is stored in the last one too, perhaps with new data, or a message of the run
took it out, with its fate. -/
theorem run_fate {S : Serde} {d d' : Daemon} {ms : List Message}
    (h : ((system S).only fun d m => OffsetsFit S d.bundles m).Run d ms d') {x : StoredBundle} (hx : x ∈ d.bundles) :
    (∃ y ∈ d'.bundles, y.primaryBlock = x.primaryBlock ∧ y.size = x.size) ∨
      ∃ m ∈ ms, ∃ d1 d2 y, (system S).step d1 m d2 ∧ y ∈ d1.bundles ∧ y.primaryBlock = x.primaryBlock ∧
        y.size = x.size ∧ Fate S y m d2.bundles ∧
        ∀ z ∈ d2.bundles, z.primaryBlock = x.primaryBlock → z.size ≠ x.size := by
  induction h generalizing x with
  | nil => exact .inl ⟨x, hx, rfl, rfl⟩
  | @cons d d1 _ m _ hstep _ ih =>
    obtain ⟨hoff, hfit, es, hhandle⟩ := hstep
    have hfate := fate_of_change (Daemon.handle_change hhandle) hfit hoff hx
    by_cases hstays : ∃ y ∈ d1.bundles, y.primaryBlock = x.primaryBlock ∧ y.size = x.size
    · obtain ⟨y, hy, hpb, hsize⟩ := hstays
      have hrest := ih hy
      rw [hpb, hsize] at hrest
      refine hrest.imp_right ?_
      rintro ⟨m, hm, hleft⟩
      exact ⟨m, mem_cons_of_mem _ hm, hleft⟩
    · refine .inr ⟨m, mem_cons_self, d, d1, x, ⟨hfit, es, hhandle⟩, hx, rfl, rfl, hfate, fun z hz hpb hsize => ?_⟩
      exact hstays ⟨z, hz, hpb, hsize⟩

/-! ### A store to look at -/

/-- The encoding of a bundle that has one. -/
def encoded (b : Bundle) : List UInt8 :=
  match b.toVec with
  | .ok bs => bs
  | _ => []

/-- The state after some messages. -/
def Daemon.run (S : Serde) (d : Daemon) : List Message → Outcome Empty Daemon
  | [] => .ok d
  | m :: ms => do
    let (d, _) ← d.handle S m
    run S d ms

/-- The agent of the node `ipn:1.0`, with these bundles stored. -/
def storeOf (bundles : List StoredBundle) (nextAddress : Nat) : Daemon := ⟨bundles, .ipn ⟨1, 0⟩, none, 0, nextAddress⟩

/-- The entry of a bundle that was received. -/
def received (address : Nat) (b : Bundle) (payload : List UInt8) : StoredBundle :=
  ⟨⟨address, encoded b⟩, .received, .ofNat (encoded b).length, .ofNat payload.length, none, b.primaryBlock⟩

/-- The bytes 0 to 199. -/
def someBytes : List UInt8 := (List.range 200).map UInt8.ofNat

/-- These bytes, from `dtn:none` to `dtn:none`. -/
def ordinary : Bundle where
  primaryBlock := ⟨7, ⟨0⟩, .noCRC, .dtn ⟨"none"⟩, .dtn ⟨"none"⟩, .dtn ⟨"none"⟩, ⟨⟨1000⟩, 1⟩, 3600, none, none⟩
  blocks := [⟨.payload ⟨someBytes⟩, 1, .empty, .noCRC⟩]

/-- The entry of `ordinary`, as the first one of a store. -/
def ordinaryEntry : StoredBundle := received 0 ordinary someBytes

/-- A store with this entry only, after an attempt to fragment it. -/
def fragmentedTo (x : StoredBundle) (n : UInt64) : Daemon × List Effect :=
  match (storeOf [x] 1).handle .plain (.fragmentBundle x.getRef n) with
  | .ok y => y
  | _ => (storeOf [x] 1, [])

lemma startsFit_ordinary (n : Nat) : ordinary.StartsFit n := by
  intro primary c _ hc i o ho
  cases hc
  have hlt : o < 200 := ho
  simp only [offset, ordinary, Option.getD_none, UInt64.toNat_zero]
  omega

/-- `ordinary` is stored and then cut into five fragments. -/
theorem handle_fate_ordinary :
    (fragmentedTo ordinaryEntry 200).1.bundles.length = 5 ∧
      Fate .plain ordinaryEntry (.fragmentBundle ordinaryEntry.getRef 200)
        (fragmentedTo ordinaryEntry 200).1.bundles := by
  have h : (storeOf [ordinaryEntry] 1).handle .plain (.fragmentBundle ordinaryEntry.getRef 200) =
      .ok ((fragmentedTo ordinaryEntry 200).1, (fragmentedTo ordinaryEntry 200).2) := by decide +kernel
  have hfit : (fragmentedTo ordinaryEntry 200).1.Fits := by decide +kernel
  have hdecode : tryFrom .plain ordinaryEntry.bundleData.bytes = .ok ordinary := by decide +kernel
  have hoff : OffsetsFit .plain [ordinaryEntry] (.fragmentBundle ordinaryEntry.getRef 200) :=
    fun y rest hy b hb => by
      cases (show removeFirst ordinaryEntry.getRef.primaryBlock [ordinaryEntry] = some (ordinaryEntry, []) from
        if_pos rfl).symm.trans hy
      cases hdecode.symm.trans hb
      exact startsFit_ordinary 200
  exact ⟨by decide +kernel, (handle_fate h hfit hoff).1 _ mem_cons_self⟩

/-- The same bytes in a fragment whose offset is the largest there is. -/
def overflowing : Bundle :=
  { ordinary with primaryBlock := { ordinary.primaryBlock with
    bundleProcessingFlags := .fragment
    fragmentOffset := some 0xffffffffffffffff
    totalDataLength := some 0xffffffffffffffff } }

def overflowingEntry : StoredBundle := received 0 overflowing someBytes

/-- The offset of its second fragment overflows, so that the payloads are not in the order of the offsets. -/
theorem joined_overflowing :
    (storeOf [] 0).run .plain [.storeReceivedBundle (encoded overflowing)] = .ok (storeOf [overflowingEntry] 1) ∧
    (storeOf [overflowingEntry] 1).handle .plain (.fragmentBundle overflowingEntry.getRef 240) =
      .ok (fragmentedTo overflowingEntry 240) ∧
    joined .plain (fragmentedTo overflowingEntry 240).1.bundles ≠ overflowingEntry.payload .plain := by
  decide +kernel

/-! ## The entry that a message acts on -/

/-- What a message puts in the place of the entry that it refers to. -/
inductive Acts (S : Serde) (x : StoredBundle) : Message → List StoredBundle → Prop
  | changed (address : Nat) :
    Acts S x (.updateBundle r st data) [{ x with state := st, bundleData := data.elim x.bundleData (⟨address, ·⟩) }]
  | removed (hst : st.Done) : Acts S x (.updateBundle r st data) []
  | reassembled (hb : tryFrom S x.bundleData.bytes = .ok b) (hcan : reassembleBundles [b] = .ok y.bundleData.bytes) :
    Acts S x (.updateBundle r .defragmentationPending data) [y]
  | minSize (m : UInt64) : Acts S x (.fragmentBundle r n) [{ x with minSize := some m }]
  | fragmented (hb : tryFrom S x.bundleData.bytes = .ok b) (hfs : b.fragment n.toNat = .ok (fs, sizes))
    (hys : List.Forall₂ (Holds S) fs ys) :
    Acts S x (.fragmentBundle r n) ys

/-- The bundle is to be put together from its fragments. -/
def Message.defragments : Message → Bool
  | .updateBundle _ .defragmentationPending _ => true
  | _ => false

lemma load_addresses {S : Serde} (h : Daemon.load S address files = .ok sbs) :
    sbs.map (·.bundleData.address) = range' address sbs.length := by
  induction files generalizing address sbs with
  | nil => cases h; rfl
  | cons _ _ ih =>
    obtain ⟨sb, hsb, h⟩ := bind_eq_ok.mp h
    obtain ⟨-, hdata, -⟩ := ofVec_eq_ok hsb
    split at h <;> [cases h; skip]
    obtain ⟨_, hrest, h⟩ := bind_eq_ok.mp h
    cases h
    rw [map_cons, ih hrest, length_cons, range'_succ, hdata]

lemma reaches_distinct {S : Serde} {d : Daemon} (h : (system S).Reaches (fun _ _ => True) d) : d.Distinct := by
  induction h with
  | init h =>
    obtain ⟨-, _, files, es, hstart⟩ := h
    have hload := load_addresses (started_bundles hstart)
    obtain ⟨_, -, hstart⟩ := bind_eq_ok.mp hstart
    cases hstart
    refine ⟨by rw [hload]; exact nodup_range', fun a ha => ?_⟩
    rw [hload] at ha
    exact Nat.lt_of_lt_of_eq (mem_range'_1.mp ha).2 (Nat.zero_add _)
  | step _ _ h ih =>
    obtain ⟨-, es, h⟩ := h
    exact (Daemon.handle_endpoint_distinct h).2 ih

lemma removeFirst_append_left (h : removeFirst pb l1 = some (y, rest)) :
    removeFirst pb (l1 ++ l2) = some (y, rest ++ l2) := by
  induction l1 generalizing rest with
  | nil => cases h
  | cons => grind [Option.map_eq_some_iff, removeFirst]

lemma removeFirst_append_right (h : ∀ y ∈ l1, y.primaryBlock ≠ x.primaryBlock) :
    removeFirst x.primaryBlock (l1 ++ x :: l2) = some (x, l1 ++ l2) := by
  induction l1 with
  | nil => rw [nil_append, removeFirst, if_pos rfl]; rfl
  | cons => grind [removeFirst]

/-- The entry that is found is the one that a message acts on. -/
lemma acts_of_change (h : Change S sbs m sbs' es) (hm : m.bundleref = some r)
    (hx : removeFirst r.primaryBlock sbs = some (x, rest)) (hdefragments : m.defragments = false) :
    ∃ xs, sbs' = rest ++ xs ∧ Acts S x m xs := by
  cases h with
  | received | created => cases hm
  | missing hr' hnone =>
    cases hm.symm.trans hr'
    cases hx.symm.trans hnone
  | changed hx' _ hy =>
    cases hm
    cases hx.symm.trans hx'
    exact ⟨_, rfl, hy ▸ .changed _⟩
  | finished hx' hst =>
    cases hm
    cases hx.symm.trans hx'
    exact ⟨[], (append_nil _).symm, .removed hst⟩
  | waiting | reassembled => cases hdefragments
  | tooSmall hx' =>
    cases hm
    cases hx.symm.trans hx'
    exact ⟨_, rfl, .minSize _⟩
  | fragmented hx' hb hfs _ hys =>
    cases hm
    cases hx.symm.trans hx'
    exact ⟨_, rfl, .fragmented hb hfs hys⟩

/-- An entry that is found in front of `x` is taken from its place. -/
lemma append_ne_of_found (hnodup : (l1 ++ x :: l2).Nodup) (hy : removeFirst pb l1 = some (y, rest)) :
    rest ++ x :: l2 ++ ys ≠ l1 ++ l2 ++ xs := by
  obtain ⟨a, b, rfl, rfl, -, -⟩ := removeFirst_eq_some hy
  intro heq
  simp only [append_assoc, cons_append, append_cancel_left_eq] at heq
  have hhead : y ∈ b ++ [x] := by
    cases b with
    | nil => exact (cons.inj heq).1 ▸ mem_cons_self
    | cons => exact (cons.inj heq).1 ▸ mem_cons_self
  have hnot : y ∉ b ++ x :: l2 := by
    rw [append_assoc] at hnodup
    exact (nodup_cons.mp (nodup_append.mp hnodup).2.1).1
  exact hnot (by grind)

/-- Fragments that are put together are all taken out. -/
lemma acts_of_defragment {S : Serde} {d d' : Daemon} {es : List Effect} {r : StoredBundleRef} {x : StoredBundle}
    {l1 l2 : List StoredBundle} {data : Option (List UInt8)} (hd : d.Distinct)
    (h : d.updateBundle S r .defragmentationPending data = .ok (d', es))
    (hr : r.primaryBlock = x.primaryBlock) (hx : d.bundles = l1 ++ x :: l2) :
    d'.bundles.Perm d.bundles ∨
      ((∃ xs, d'.bundles.Perm (l1 ++ l2 ++ xs) ∧ Acts S x (.updateBundle r .defragmentationPending data) xs) ↔
        ∀ y ∈ l1 ++ l2, isFragmentOf S x.primaryBlock y = false) := by
  obtain ⟨⟨found, rest⟩, hfound⟩ : ∃ p, removeFirst r.primaryBlock d.bundles = some p := by
    refine Option.ne_none_iff_exists'.mp fun hnone => removeFirst_eq_none hnone x ?_ hr.symm
    rw [hx]
    exact mem_append_right _ mem_cons_self
  have hpb : found.primaryBlock = x.primaryBlock := (removeFirst_primaryBlock hfound).trans hr
  have hperm : (rest ++ [found]).Perm (l1 ++ l2 ++ [x]) := by
    have hback : (l1 ++ x :: l2).Perm (l1 ++ l2 ++ [x]) := by
      rw [append_assoc]
      exact (perm_append_singleton x l2).symm.append_left l1
    exact (removeFirst_perm_append hfound).symm.trans (hx ▸ hback)
  rw [Daemon.updateBundle_defragmentationPending hfound] at h
  obtain ⟨-, bundles, hbundles, hcases⟩ := Daemon.tryDefragmentBundle_eq_ok h
  simp only [getRef, hpb] at hbundles hcases
  rcases hcases with ⟨_, -, -, hbundles'⟩ | ⟨bs, y, hcan, hdata, -, -, hbundles', -⟩
  · left
    rw [hbundles']
    exact (perm_append_comm.trans (filter_append_perm ..)).trans (removeFirst_perm_append hfound).symm
  right
  rw [hbundles']
  constructor
  · rintro ⟨xs, hxs, -⟩ z hz
    -- a fragment would be gone, and is not the new entry, whose vector is new
    rw [← Bool.not_eq_true]
    intro hfragment
    rcases mem_append.mp (hxs.mem_iff.mpr (mem_append_left _ hz)) with hz' | hz'
    · simp [hfragment] at hz'
    · have hlt := hd.lt z.bundleData.address (mem_map_of_mem (by rw [hx]; grind))
      rw [mem_singleton.mp hz', hdata] at hlt
      exact Nat.lt_irrefl _ hlt
  · intro halone
    have hothers : (l1 ++ l2).filter (isFragmentOf S x.primaryBlock) = [] :=
      filter_eq_nil_iff.mpr fun y hy => by simp [halone y hy]
    have hfilter := hperm.filter (isFragmentOf S x.primaryBlock)
    rw [filter_append (l1 ++ l2), hothers, nil_append] at hfilter
    cases hself : isFragmentOf S x.primaryBlock x with
    | false =>
      -- without a fragment nothing can be put together
      rw [filter_cons_of_neg (by simp [hself]), filter_nil] at hfilter
      rw [hfilter.eq_nil] at hbundles
      cases hbundles
      cases hcan
    | true =>
      rw [filter_cons_of_pos hself, filter_nil] at hfilter
      rw [perm_singleton.mp hfilter] at hbundles
      cases hbundles with
      | cons hb hnil =>
        cases hnil
        refine ⟨[y], ?_, .reassembled hb (by rw [hdata]; exact hcan)⟩
        have hall : (l1 ++ l2).filter (!isFragmentOf S x.primaryBlock ·) = l1 ++ l2 :=
          filter_eq_self.mpr fun y hy => by simp [halone y hy]
        have hrest := hperm.filter (!isFragmentOf S x.primaryBlock ·)
        rw [filter_append (l1 ++ l2), hall, filter_cons_of_neg (by simp [hself]), filter_nil, append_nil] at hrest
        exact hrest.append_right [y]

/-- A message that carries a reference to `x` changes, replaces or removes `x` and leaves the other entries as they
are, if and only if no entry before `x` compares equal to it. One that is to put fragments together changes at most
the order, or acts on `x` alone if and only if no other entry is a fragment of the same bundle. -/
theorem handle_acts {S : Serde} {d d' : Daemon} {m : Message} {es : List Effect}
    (hreach : (system S).Reaches (fun _ _ => True) d) (h : d.handle S m = .ok (d', es)) {r : StoredBundleRef}
    (hm : m.bundleref = some r) {x : StoredBundle} (hr : r.primaryBlock = x.primaryBlock) {l1 l2 : List StoredBundle}
    (hx : d.bundles = l1 ++ x :: l2) :
    (m.defragments = false → ((∃ xs, d'.bundles = l1 ++ l2 ++ xs ∧ Acts S x m xs) ↔
      ∀ y ∈ l1, y.primaryBlock ≠ x.primaryBlock)) ∧
    (m.defragments = true → d'.bundles.Perm d.bundles ∨ ((∃ xs, d'.bundles.Perm (l1 ++ l2 ++ xs) ∧ Acts S x m xs) ↔
      ∀ y ∈ l1 ++ l2, isFragmentOf S x.primaryBlock y = false)) := by
  have hdistinct := reaches_distinct hreach
  refine ⟨fun hdefragments => ⟨?_, fun hfirst => ?_⟩, fun hdefragments => ?_⟩
  · rintro ⟨xs, hxs, -⟩ y hy hpb
    obtain ⟨⟨z, rest⟩, hz⟩ : ∃ p, removeFirst x.primaryBlock l1 = some p :=
      Option.ne_none_iff_exists'.mp fun hnone => removeFirst_eq_none hnone y hy hpb
    have hfound : removeFirst r.primaryBlock d.bundles = some (z, rest ++ x :: l2) := by
      rw [hr, hx]
      exact removeFirst_append_left hz
    obtain ⟨ys, hys, -⟩ := acts_of_change (Daemon.handle_change h) hm hfound hdefragments
    exact append_ne_of_found (hx ▸ hdistinct.nodup.of_map _) hz (hys.symm.trans hxs)
  · refine acts_of_change (Daemon.handle_change h) hm ?_ hdefragments
    rw [hr, hx]
    exact removeFirst_append_right hfirst
  · cases m with
    | updateBundle r' st data =>
      cases hm
      cases st with
      | defragmentationPending => exact acts_of_defragment hdistinct h hr hx
      | _ => cases hdefragments
    | _ => cases hdefragments

/-- A fragment of `ordinary`. -/
def ordinaryFragment (offset : UInt64) (payload : List UInt8) : Bundle where
  primaryBlock := { ordinary.primaryBlock with
    bundleProcessingFlags := .fragment
    fragmentOffset := some offset
    totalDataLength := some 200 }
  blocks := [⟨.payload ⟨payload⟩, 1, .empty, .noCRC⟩]

lemma reaches_received (b : Bundle) (payload : List UInt8)
    (h : (system .plain).Reaches (fun _ _ => True) (storeOf sbs n))
    (hsb : (ofVec .plain n (encoded b) : Outcome Empty StoredBundle) = .ok (received n b payload))
    (hfits : (storeOf (sbs ++ [received n b payload]) (n + 1)).Fits) :
    (system .plain).Reaches (fun _ _ => True) (storeOf (sbs ++ [received n b payload]) (n + 1)) := by
  refine h.step (a := .storeReceivedBundle (encoded b)) trivial
    ⟨hfits, [.eventBundleUpdated (received n b payload).getRef], ?_⟩
  rw [Daemon.handle, Daemon.storeReceivedBundle, Daemon.storeBundle]
  exact (congrArg (· >>= _) hsb).trans rfl

/-- Half of `ordinary`, the whole, the other half, and `ordinary` once more. -/
def halvesAndWholes : List StoredBundle :=
  [received 0 (ordinaryFragment 0 (someBytes.take 100)) (someBytes.take 100), received 1 ordinary someBytes,
    received 2 (ordinaryFragment 100 (someBytes.drop 100)) (someBytes.drop 100), received 3 ordinary someBytes]

lemma reaches_halvesAndWholes : (system .plain).Reaches (fun _ _ => True) (storeOf halvesAndWholes 4) := by
  have h0 : (system .plain).Reaches (fun _ _ => True) (storeOf [] 0) :=
    .init ⟨forall_mem_nil _, .ipn ⟨1, 0⟩, [], [], rfl⟩
  have h1 := reaches_received (ordinaryFragment 0 (someBytes.take 100)) (someBytes.take 100) h0 (by decide +kernel)
    (by decide +kernel)
  have h2 := reaches_received ordinary someBytes h1 (by decide +kernel) (by decide +kernel)
  have h3 := reaches_received (ordinaryFragment 100 (someBytes.drop 100)) (someBytes.drop 100) h2 (by decide +kernel)
    (by decide +kernel)
  exact reaches_received ordinary someBytes h3 (by decide +kernel) (by decide +kernel)

/-- The first entry of `ordinary` is removed, and the three others stay. -/
theorem handle_acts_halvesAndWholes :
    ∃ d' es xs, (storeOf halvesAndWholes 4).handle .plain
        (.updateBundle (received 1 ordinary someBytes).getRef .delivered none) = .ok (d', es) ∧
      d'.bundles = halvesAndWholes.take 1 ++ halvesAndWholes.drop 2 ++ xs ∧
      Acts .plain (received 1 ordinary someBytes)
        (.updateBundle (received 1 ordinary someBytes).getRef .delivered none) xs := by
  have h : (storeOf halvesAndWholes 4).handle .plain
      (.updateBundle (received 1 ordinary someBytes).getRef .delivered none) =
        .ok (storeOf (halvesAndWholes.take 1 ++ halvesAndWholes.drop 2) 4,
          [.deleteBundleFile (received 1 ordinary someBytes).getFilename]) := by decide +kernel
  have hx : (storeOf halvesAndWholes 4).bundles =
      halvesAndWholes.take 1 ++ received 1 ordinary someBytes :: halvesAndWholes.drop 2 := rfl
  obtain ⟨xs, hxs, hacts⟩ := ((handle_acts reaches_halvesAndWholes h rfl rfl hx).1 rfl).mpr (by decide +kernel)
  exact ⟨_, _, xs, h, hxs, hacts⟩

/-- If a bundle was received twice, a message that refers to the second entry removes the first one. -/
theorem removes_other :
    (storeOf [] 0).run .plain [.storeReceivedBundle (encoded ordinary), .storeReceivedBundle (encoded ordinary)] =
      .ok (storeOf [received 0 ordinary someBytes, received 1 ordinary someBytes] 2) ∧
    (storeOf [received 0 ordinary someBytes, received 1 ordinary someBytes] 2).run .plain
      [.updateBundle (received 1 ordinary someBytes).getRef .delivered none] =
        .ok (storeOf [received 1 ordinary someBytes] 2) := by
  decide +kernel

end Storage

end Dtn.Dtrd
