import Mathlib.Data.List.Nodup
import Mathlib.Data.List.Perm.Subperm
import Dtn.Framework.Run
import Dtn.Impl.Dtrd.Storage
import Dtn.Proof.Bp7.Decoded

/-!
# What a storage message can do

`Change` has one constructor for each way a handler of the storage agent can
end without a panic, with the entries it adds and takes away and the effects
it has. `handle_change` says that there are no others; what holds of every
message is proved from it.
-/

namespace Dtn.Dtrd

open List Outcome Dtn.Bp7 Bundle

variable {S : Serde} {address : Nat} {bs : List UInt8} {sb : StoredBundle}

/-- The states from which an entry goes on. -/
def State.Queued (st : State) : Prop := st = .valid ∨ st = .deliveryQueued ∨ st = .forwardingQueued

/-- The states in which a bundle is done. -/
def State.Done (st : State) : Prop := st = .delivered ∨ st = .forwarded ∨ st = .invalid

/-- The cached fields of a stored bundle are those of `b`, which its data decodes to. -/
structure StoredBundle.Describes (S : Serde) (sb : StoredBundle) (b : Bundle) : Prop where
  decoded : tryFrom S sb.bundleData.bytes = .ok b
  primaryBlock : sb.primaryBlock = b.primaryBlock
  size : sb.size = UInt64.ofNat sb.bundleData.bytes.length
  payloadSize : ∃ payload, (b.payloadData : Outcome Empty (List UInt8)) = .ok payload ∧
    sb.payloadSize = UInt64.ofNat payload.length

lemma StoredBundle.ofVec_eq_ok (h : (ofVec S address bs : Outcome Empty StoredBundle) = .ok sb) :
    (∃ b, sb.Describes S b) ∧ sb.bundleData = ⟨address, bs⟩ ∧ sb.state = .received ∧ sb.minSize = none := by
  obtain ⟨b, hb, h⟩ := bind_eq_ok.mp h
  obtain ⟨payload, hp, h⟩ := bind_eq_ok.mp h
  cases h
  exact ⟨⟨b, unwrap_eq_ok.mp hb, rfl, rfl, payload, hp, rfl⟩, rfl, rfl, rfl⟩

namespace Storage

variable {pb : PrimaryBlock} {sbs rest fragments : List StoredBundle} {x : StoredBundle}
  {files : List (String × List UInt8)}

/-! ## Finding an entry -/

lemma forall₂_mem {α β : Type} {R : α → β → Prop} {as : List α} {bs : List β} (h : List.Forall₂ R as bs) {a : α}
    (ha : a ∈ as) : ∃ b ∈ bs, R a b := by
  induction h with
  | nil => cases ha
  | cons => grind

lemma forall₂_mem' {α β : Type} {R : α → β → Prop} {as : List α} {bs : List β} (h : List.Forall₂ R as bs) {b : β}
    (hb : b ∈ bs) : ∃ a ∈ as, R a b := forall₂_mem h.flip hb

lemma removeFirst_eq_some (h : removeFirst pb sbs = some (x, rest)) :
    ∃ l1 l2, sbs = l1 ++ x :: l2 ∧ rest = l1 ++ l2 ∧ x.primaryBlock = pb ∧ ∀ y ∈ l1, y.primaryBlock ≠ pb := by
  induction sbs generalizing rest with
  | nil => cases h
  | cons _ sbs =>
    rw [removeFirst] at h
    split at h
    · cases h
      exact ⟨[], sbs, rfl, rfl, ‹_›, by simp⟩
    · grind [Option.map_eq_some_iff]

lemma removeFirst_eq_none (h : removeFirst pb sbs = none) : ∀ y ∈ sbs, y.primaryBlock ≠ pb := by
  induction sbs with
  | nil => simp
  | cons => grind [Option.map_eq_none_iff, removeFirst]

lemma removeFirst_perm (h : removeFirst pb sbs = some (x, rest)) : sbs.Perm (x :: rest) := by
  grind [removeFirst_eq_some]

lemma removeFirst_perm_append (h : removeFirst pb sbs = some (x, rest)) : sbs.Perm (rest ++ [x]) :=
  (removeFirst_perm h).trans (perm_append_singleton x rest).symm

lemma removeFirst_mem (h : removeFirst pb sbs = some (x, rest)) : x ∈ sbs ∧ ∀ y ∈ rest, y ∈ sbs :=
  forall_mem_cons.mp fun _ hy => (removeFirst_perm h).mem_iff.mpr hy

lemma removeFirst_primaryBlock (h : removeFirst pb sbs = some (x, rest)) : x.primaryBlock = pb := by
  grind [removeFirst_eq_some]

/-! ## Storing -/

/-- The entry `y` holds the bundle `f` as the encoder writes it, and is valid from the start. -/
structure Holds (S : Serde) (f : Bundle) (y : StoredBundle) : Prop where
  data : f.toVec = .ok y.bundleData.bytes
  describes : ∃ b, y.Describes S b
  state : y.state = .valid

/-- What is done for an entry that is stored and persisted. -/
def announce (y : StoredBundle) : List Effect :=
  [.writeBundleToFile y.getFilename y.bundleData.bytes, .eventBundleUpdated y.getRef]

/-- The bundles that the protocol agent is told of. -/
def announced (es : List Effect) : List StoredBundleRef := es.filterMap fun
  | .eventBundleUpdated r => some r
  | _ => none

lemma announced_announce (ys sbs : List StoredBundle) :
    announced (ys.flatMap announce ++ sbs.map fun sb => .deleteBundleFile sb.getFilename) = ys.map (·.getRef) := by
  have hdeleted : announced (sbs.map fun sb => .deleteBundleFile sb.getFilename) = [] :=
    filterMap_eq_nil_iff.mpr fun e he => by
      obtain ⟨sb, -, rfl⟩ := mem_map.mp he
      rfl
  rw [announced, filterMap_append]
  rw [show List.filterMap _ (sbs.map fun sb => Effect.deleteBundleFile sb.getFilename) = [] from hdeleted,
    append_nil]
  induction ys with
  | nil => rfl
  | cons _ _ ih => rw [flatMap_cons, filterMap_append, ih]; rfl

namespace Daemon

variable {S : Serde} {d d' : Daemon} {es : List Effect}

lemma storeBundle_eq_ok (h : d.storeBundle S bs minSize state persist = .ok (d', es)) :
    ∃ y, (∃ b, y.Describes S b) ∧ y.bundleData = ⟨d.nextAddress, bs⟩ ∧ y.state = state ∧ y.minSize = minSize ∧
      d' = { d with bundles := d.bundles ++ [y], nextAddress := d.nextAddress + 1 } ∧
      es = if persist then announce y else [.eventBundleUpdated y.getRef] := by
  obtain ⟨sb, hsb, h⟩ := bind_eq_ok.mp h
  obtain ⟨⟨b, hb⟩, hdata, -, -⟩ := StoredBundle.ofVec_eq_ok hsb
  cases h
  exact ⟨{ sb with minSize, state }, ⟨b, hb.decoded, hb.primaryBlock, hb.size, hb.payloadSize⟩, hdata, rfl, rfl,
    rfl, rfl⟩

lemma storeFragments_eq_ok (h : d.storeFragments S minSize fs = .ok (d', es)) :
    ∃ ys, List.Forall₂ (Holds S) fs ys ∧ d'.bundles = d.bundles ++ ys ∧ es = ys.flatMap announce := by
  induction fs generalizing d d' es with
  | nil => cases h; exact ⟨[], .nil, (append_nil _).symm, rfl⟩
  | cons _ _ ih =>
    obtain ⟨_, hbs, h⟩ := bind_eq_ok.mp h
    obtain ⟨⟨_, _⟩, h1, h⟩ := bind_eq_ok.mp h
    obtain ⟨⟨_, _⟩, h2, h⟩ := bind_eq_ok.mp h
    cases h
    obtain ⟨y, hy, hdata, hstate, -, rfl, rfl⟩ := storeBundle_eq_ok h1
    obtain ⟨ys, hys, hbundles, rfl⟩ := ih h2
    refine ⟨y :: ys, .cons ⟨?_, hy, hstate⟩ hys, ?_, rfl⟩
    · rw [hdata]; exact unwrap_eq_ok.mp hbs
    · rw [hbundles, append_assoc]; rfl

end Daemon

/-! ## Fragments of one bundle -/

/-- Its data decodes to a bundle that is `pb`'s up to the fragment fields. -/
def isFragmentOf (S : Serde) (pb : PrimaryBlock) (sb : StoredBundle) : Bool :=
  match tryFrom S sb.bundleData.bytes with
  | .ok b => b.primaryBlock.equalsIgnoringFragmentInfo pb
  | _ => false

lemma splitFragments_eq_ok (h : Daemon.splitFragments S pb sbs = .ok (fragments, rest)) :
    (∀ sb ∈ sbs, ∃ b, tryFrom S sb.bundleData.bytes = .ok b) ∧ fragments = sbs.filter (isFragmentOf S pb) ∧
      rest = sbs.filter (!isFragmentOf S pb ·) := by
  induction sbs generalizing fragments rest with
  | nil => cases h; exact ⟨by simp, rfl, rfl⟩
  | cons sb _ ih =>
    obtain ⟨b, hb, h⟩ := bind_eq_ok.mp h
    have hb := unwrap_eq_ok.mp hb
    obtain ⟨⟨_, _⟩, hsplit, h⟩ := bind_eq_ok.mp h
    obtain ⟨hdecode, rfl, rfl⟩ := ih hsplit
    have hfragment : isFragmentOf S pb sb = b.primaryBlock.equalsIgnoringFragmentInfo pb := by rw [isFragmentOf, hb]
    refine ⟨forall_mem_cons.mpr ⟨⟨b, hb⟩, hdecode⟩, ?_⟩
    rw [filter_cons, filter_cons, hfragment]
    dsimp only at h
    split at h <;> cases h <;> simp_all

lemma getBundles_eq_ok {bs : List Bundle} (h : Daemon.getBundles S sbs = .ok bs) :
    List.Forall₂ (fun sb b => tryFrom S sb.bundleData.bytes = .ok b) sbs bs := by
  induction sbs generalizing bs with
  | nil => cases h; exact .nil
  | cons _ _ ih =>
    obtain ⟨_, hb, h⟩ := bind_eq_ok.mp h
    obtain ⟨_, hbs, h⟩ := bind_eq_ok.mp h
    cases h
    exact .cons (unwrap_eq_ok.mp hb) (ih hbs)

/-! ## The steps -/

/-- The reference that a message comes with. -/
def Message.bundleref : Message → Option StoredBundleRef
  | .storeReceivedBundle _ | .storeNewBundle _ => none
  | .updateBundle r _ _ | .fragmentBundle r _ => some r

/-- What a message does to the stored bundles, and with which effects. -/
inductive Change (S : Serde) (sbs : List StoredBundle) : Message → List StoredBundle → List Effect → Prop
  | received {bs : List UInt8} {y : StoredBundle} (hy : ∃ b, y.Describes S b)
    (hdata : y.bundleData.bytes = bs) (hstate : y.state = .received) :
    Change S sbs (.storeReceivedBundle bs) (sbs ++ [y]) [.eventBundleUpdated y.getRef]
  | created {bs : List UInt8} {b : Bundle} {n : UInt64} {y : StoredBundle}
    (hb : tryFrom S bs = .ok b) (hwhole : b.primaryBlock.fragmentOffset = none)
    (hdata : (Daemon.withSequenceNumber b n).toVec = .ok y.bundleData.bytes) (hy : ∃ b, y.Describes S b)
    (hstate : y.state = .received) :
    Change S sbs (.storeNewBundle bs) (sbs ++ [y]) [.eventBundleUpdated y.getRef]
  | missing {m : Message} {r : StoredBundleRef} (hr : m.bundleref = some r)
    (hx : removeFirst r.primaryBlock sbs = none) : Change S sbs m sbs []
  | changed {rest : List StoredBundle} {r : StoredBundleRef} {st : State} {data : Option (List UInt8)}
    {x y : StoredBundle} {address : Nat} (hx : removeFirst r.primaryBlock sbs = some (x, rest)) (hst : st.Queued)
    (hy : y = { x with state := st, bundleData := data.elim x.bundleData (⟨address, ·⟩) }) :
    Change S sbs (.updateBundle r st data) (rest ++ [y])
      (if st = .valid ∧ x.state ≠ .valid then [.writeBundleToFile x.getFilename x.bundleData.bytes,
        .eventBundleUpdated y.getRef] else [.eventBundleUpdated y.getRef])
  | finished {rest : List StoredBundle} {r : StoredBundleRef} {st : State} {data : Option (List UInt8)}
    {x : StoredBundle} (hx : removeFirst r.primaryBlock sbs = some (x, rest)) (hst : st.Done) :
    Change S sbs (.updateBundle r st data) rest [.deleteBundleFile x.getFilename]
  | waiting {rest : List StoredBundle} {r : StoredBundleRef} {data : Option (List UInt8)} {x : StoredBundle}
    {bundles bundles' : List Bundle} (hx : removeFirst r.primaryBlock sbs = some (x, rest))
    (hdecode : ∀ sb ∈ rest ++ [x], ∃ b, tryFrom S sb.bundleData.bytes = .ok b)
    (hbundles : List.Forall₂ (fun sb b => tryFrom S sb.bundleData.bytes = .ok b)
      ((rest ++ [x]).filter (isFragmentOf S x.primaryBlock)) bundles)
    (hcannot : reassembleBundles bundles = .err bundles') :
    Change S sbs (.updateBundle r .defragmentationPending data)
      ((rest ++ [x]).filter (!isFragmentOf S x.primaryBlock ·) ++
        (rest ++ [x]).filter (isFragmentOf S x.primaryBlock)) []
  | reassembled {rest : List StoredBundle} {r : StoredBundleRef} {data : Option (List UInt8)} {x y : StoredBundle}
    {bundles : List Bundle} {bs : List UInt8} (hx : removeFirst r.primaryBlock sbs = some (x, rest))
    (hdecode : ∀ sb ∈ rest ++ [x], ∃ b, tryFrom S sb.bundleData.bytes = .ok b)
    (hbundles : List.Forall₂ (fun sb b => tryFrom S sb.bundleData.bytes = .ok b)
      ((rest ++ [x]).filter (isFragmentOf S x.primaryBlock)) bundles)
    (hcan : reassembleBundles bundles = .ok bs) (hdata : y.bundleData.bytes = bs)
    (hy : ∃ b, y.Describes S b) (hstate : y.state = .valid) :
    Change S sbs (.updateBundle r .defragmentationPending data)
      ((rest ++ [x]).filter (!isFragmentOf S x.primaryBlock ·) ++ [y])
      (announce y ++ ((rest ++ [x]).filter (isFragmentOf S x.primaryBlock)).map fun sb =>
        .deleteBundleFile sb.getFilename)
  | tooSmall {rest : List StoredBundle} {r : StoredBundleRef} {n minSize : UInt64} {x : StoredBundle} {b : Bundle}
    (hx : removeFirst r.primaryBlock sbs = some (x, rest)) (hb : tryFrom S x.bundleData.bytes = .ok b)
    (hcannot : b.fragment n.toNat = .err (.canNotFragmentThatSmall minSize)) :
    Change S sbs (.fragmentBundle r n) (rest ++ [{ x with minSize := some minSize }])
      [.eventBundleUpdated { x with minSize := some minSize : StoredBundle }.getRef]
  | fragmented {rest ys : List StoredBundle} {r : StoredBundleRef} {n : UInt64} {x : StoredBundle} {b : Bundle}
    {fs : List Bundle} {sizes : UInt64 × UInt64} (hx : removeFirst r.primaryBlock sbs = some (x, rest))
    (hb : tryFrom S x.bundleData.bytes = .ok b) (hfs : b.fragment n.toNat = .ok (fs, sizes))
    (hne : fs ≠ []) (hys : List.Forall₂ (Holds S) fs ys) :
    Change S sbs (.fragmentBundle r n) (rest ++ ys) (ys.flatMap announce ++ [.deleteBundleFile x.getFilename])

/-- Where an entry comes from that is stored after a message. -/
inductive Origin (S : Serde) (sbs : List StoredBundle) (m : Message) : StoredBundle → Prop
  | kept (hy : y ∈ sbs) : Origin S sbs m y
  | fresh (hy : ∃ b, y.Describes S b) (hstate : y.state = .received ∨ y.state = .valid) : Origin S sbs m y
  | changed {rest : List StoredBundle} {r : StoredBundleRef} {st : State} {data : Option (List UInt8)}
    {x : StoredBundle} {address : Nat} (hm : m = .updateBundle r st data)
    (hx : removeFirst r.primaryBlock sbs = some (x, rest)) (hst : st.Queued) :
    Origin S sbs m { x with state := st, bundleData := data.elim x.bundleData (⟨address, ·⟩) }
  | measured {x : StoredBundle} (hx : x ∈ sbs) (minSize : UInt64) : Origin S sbs m { x with minSize := some minSize }

lemma Change.origin (h : Change S sbs m sbs' es) (hy : y ∈ sbs') : Origin S sbs m y := by
  cases h with
  | received hz _ hstate | created _ _ _ hz hstate =>
    rcases mem_append.mp hy with hy | hy
    · exact .kept hy
    · cases mem_singleton.mp hy
      exact .fresh hz (.inl hstate)
  | missing => exact .kept hy
  | changed hx hst hz =>
    rcases mem_append.mp hy with hy | hy
    · exact .kept ((removeFirst_mem hx).2 y hy)
    · cases (mem_singleton.mp hy).trans hz
      exact .changed rfl hx hst
  | finished hx => exact .kept ((removeFirst_mem hx).2 y hy)
  | waiting hx =>
    rcases mem_append.mp hy with hy | hy <;>
      exact .kept ((removeFirst_perm_append hx).mem_iff.mpr (mem_of_mem_filter hy))
  | reassembled hx _ _ _ _ hz hstate =>
    rcases mem_append.mp hy with hy | hy
    · exact .kept ((removeFirst_perm_append hx).mem_iff.mpr (mem_of_mem_filter hy))
    · cases mem_singleton.mp hy
      exact .fresh hz (.inr hstate)
  | tooSmall hx =>
    rcases mem_append.mp hy with hy | hy
    · exact .kept ((removeFirst_mem hx).2 y hy)
    · cases mem_singleton.mp hy
      exact .measured (removeFirst_mem hx).1 _
  | fragmented hx _ _ _ hys =>
    rcases mem_append.mp hy with hy | hy
    · exact .kept ((removeFirst_mem hx).2 y hy)
    · obtain ⟨_, -, hf⟩ := forall₂_mem' hys hy
      exact .fresh hf.describes (.inr hf.state)

namespace Daemon

variable {S : Serde} {d d' : Daemon} {es : List Effect}
variable {r : StoredBundleRef} {data : Option (List UInt8)}

lemma storeNewBundle_change (h : d.storeNewBundle S bs = .ok (d', es)) :
    Change S d.bundles (.storeNewBundle bs) d'.bundles es := by
  obtain ⟨b, hb, h⟩ := bind_eq_ok.mp h
  obtain ⟨_, -, h⟩ := bind_eq_ok.mp h
  split at h <;> [cases h; skip]
  split at h <;> [cases h; skip]
  rename_i hwhole
  dsimp only at h
  obtain ⟨bs', hbs', h⟩ := bind_eq_ok.mp h
  obtain ⟨y, hy, h⟩ := bind_eq_ok.mp h
  obtain ⟨hdescribes, hdata, hstate, -⟩ := StoredBundle.ofVec_eq_ok hy
  cases h
  have hbundles : (d.nextSequenceNumber b.primaryBlock.creationTimestamp.creationTime).1.bundles = d.bundles := by
    rw [nextSequenceNumber]; split <;> rfl
  simp only [hbundles]
  obtain rfl : bs' = y.bundleData.bytes := by rw [hdata]
  exact .created (unwrap_eq_ok.mp hb) (by simpa using hwhole) (unwrap_eq_ok.mp hbs') hdescribes hstate

lemma fragmentBundle_change (h : d.fragmentBundle S r n = .ok (d', es)) :
    Change S d.bundles (.fragmentBundle r n) d'.bundles es := by
  rw [fragmentBundle] at h
  split at h
  · cases h
    exact .missing rfl ‹_›
  · rename_i x rest hx
    obtain ⟨_, hb, h⟩ := bind_eq_ok.mp h
    have hb := unwrap_eq_ok.mp hb
    split at h
    · rename_i first fs firstMinSize minSize hfs
      obtain ⟨_, hbs, h⟩ := bind_eq_ok.mp h
      obtain ⟨⟨_, _⟩, h1, h⟩ := bind_eq_ok.mp h
      obtain ⟨⟨_, _⟩, h2, h⟩ := bind_eq_ok.mp h
      cases h
      obtain ⟨y, hy, hdata, hstate, -, rfl, rfl⟩ := storeBundle_eq_ok h1
      obtain ⟨_, hys, hbundles, rfl⟩ := storeFragments_eq_ok h2
      have hholds : Holds S first y := ⟨by rw [hdata]; exact unwrap_eq_ok.mp hbs, hy, hstate⟩
      rw [hbundles, append_assoc]
      exact .fragmented hx hb hfs nofun (.cons hholds hys)
    · cases h
      exact .tooSmall hx hb ‹_›
    · cases h

lemma tryDefragmentBundle_eq_ok (h : d.tryDefragmentBundle S r = .ok (d', es)) :
    (∀ sb ∈ d.bundles, ∃ b, tryFrom S sb.bundleData.bytes = .ok b) ∧
    ∃ bundles, List.Forall₂ (fun sb b => tryFrom S sb.bundleData.bytes = .ok b)
      (d.bundles.filter (isFragmentOf S r.primaryBlock)) bundles ∧
    ((∃ bundles', reassembleBundles bundles = .err bundles' ∧ es = [] ∧ d'.bundles =
        d.bundles.filter (!isFragmentOf S r.primaryBlock ·) ++ d.bundles.filter (isFragmentOf S r.primaryBlock)) ∨
      ∃ bs y, reassembleBundles bundles = .ok bs ∧ y.bundleData = ⟨d.nextAddress, bs⟩ ∧ (∃ b, y.Describes S b) ∧
        y.state = .valid ∧ d'.bundles = d.bundles.filter (!isFragmentOf S r.primaryBlock ·) ++ [y] ∧
        es = announce y ++ (d.bundles.filter (isFragmentOf S r.primaryBlock)).map
          fun sb => .deleteBundleFile sb.getFilename) := by
  obtain ⟨⟨_, _⟩, hsplit, h⟩ := bind_eq_ok.mp h
  obtain ⟨hdecode, rfl, rfl⟩ := splitFragments_eq_ok hsplit
  dsimp only at h
  split at h <;> [cases h; skip]
  obtain ⟨bundles, hbundles, h⟩ := bind_eq_ok.mp h
  refine ⟨hdecode, bundles, getBundles_eq_ok hbundles, ?_⟩
  split at h
  · grind [storeBundle_eq_ok]
  · cases h
    exact .inl ⟨_, ‹_›, rfl, rfl⟩
  · cases h

lemma tryDefragmentBundle_of_reassembled {bundles : List Bundle}
    (hsplit : splitFragments S r.primaryBlock d.bundles = .ok (fragments, rest)) (hne : fragments ≠ [])
    (hbundles : getBundles S fragments = .ok bundles) (hcan : reassembleBundles bundles = .ok bs)
    (hstore : storeBundle S { d with bundles := rest } bs none .valid true = .ok (d', es)) :
    d.tryDefragmentBundle S r = .ok (d', es ++ fragments.map fun sb => .deleteBundleFile sb.getFilename) := by
  simp_all [tryDefragmentBundle]

lemma updateBundle_defragmentationPending (hx : removeFirst r.primaryBlock d.bundles = some (x, rest)) :
    d.updateBundle S r .defragmentationPending data =
      tryDefragmentBundle S { d with bundles := rest ++ [x] } x.getRef := by
  rw [updateBundle, hx]
  dsimp only
  rw [enterState]
  cases tryDefragmentBundle S { d with bundles := rest ++ [x] } x.getRef <;> rfl

lemma updateBundle_change
    (h : d.updateBundle S r st data = .ok (d', es)) : Change S d.bundles (.updateBundle r st data) d'.bundles es := by
  rw [updateBundle] at h
  split at h
  · cases h
    exact .missing rfl ‹_›
  · rename_i x rest hx
    obtain ⟨⟨_, es1⟩, h1, h⟩ := bind_eq_ok.mp h
    cases h
    have hqueued (hst : st.Queued) (he : changeState { d with bundles := rest } x st data = (d', es1)) :
        Change S d.bundles (.updateBundle r st data) d'.bundles (if st = .valid ∧ x.state ≠ .valid
          then .writeBundleToFile x.getFilename x.bundleData.bytes :: es1 else es1) := by
      have hchanged := @Change.changed S d.bundles rest r st data x _ d.nextAddress hx hst rfl
      cases data <;> cases he <;> exact hchanged
    have hdone (hst : st.Done)
        (he : (({ d with bundles := rest }, [.deleteBundleFile x.getFilename]) : Daemon × List Effect) = (d', es1)) :
        Change S d.bundles (.updateBundle r st data) d'.bundles es1 := by
      cases he
      exact .finished hx hst
    cases st with
    | received => cases h1
    | valid => exact hqueued (.inl rfl) (Outcome.ok.inj h1)
    | deliveryQueued => exact hqueued (.inr (.inl rfl)) (Outcome.ok.inj h1)
    | forwardingQueued => exact hqueued (.inr (.inr rfl)) (Outcome.ok.inj h1)
    | delivered => exact hdone (.inl rfl) (Outcome.ok.inj h1)
    | forwarded => exact hdone (.inr (.inl rfl)) (Outcome.ok.inj h1)
    | invalid => exact hdone (.inr (.inr rfl)) (Outcome.ok.inj h1)
    | defragmentationPending =>
      obtain ⟨hdecode, _, hbundles, hcases⟩ := tryDefragmentBundle_eq_ok h1
      rcases hcases with ⟨_, hcannot, rfl, hd⟩ | ⟨_, _, hcan, hdata, hy, hstate, hd, rfl⟩
      · rw [hd]
        exact .waiting hx hdecode hbundles hcannot
      · rw [hd]
        exact .reassembled hx hdecode hbundles hcan (by rw [hdata]) hy hstate

lemma handle_change (h : d.handle S m = .ok (d', es)) : Change S d.bundles m d'.bundles es := by
  cases m with
  | storeReceivedBundle =>
    obtain ⟨_, hy, hdata, hstate, -, rfl, rfl⟩ := storeBundle_eq_ok h
    exact .received hy (by rw [hdata]) hstate
  | storeNewBundle => exact storeNewBundle_change h
  | updateBundle => exact updateBundle_change h
  | fragmentBundle => exact fragmentBundle_change h

/-! ## What every handler keeps -/

/-- What is remembered of the last new bundle. -/
def generator (d : Daemon) : Option DtnTime × UInt64 := (d.lastCreatedDtnTime, d.lastSequenceNumber)

/-- The entries have different vectors, all of them made so far. -/
structure Distinct (d : Daemon) : Prop where
  nodup : (d.bundles.map (·.bundleData.address)).Nodup
  lt : ∀ a ∈ d.bundles.map (·.bundleData.address), a < d.nextAddress

/-- Entries are moved, left out or stored, and nothing else is changed. -/
structure Edits (d d' : Daemon) : Prop where
  endpoint : d'.endpoint = d.endpoint
  generator : d'.generator = d.generator
  distinct : d.Distinct → d'.Distinct

lemma Edits.trans (h : Edits d d1) (h' : Edits d1 d') : Edits d d' :=
  ⟨h'.endpoint.trans h.endpoint, h'.generator.trans h.generator, fun hd => h'.distinct (h.distinct hd)⟩

lemma Edits.refl (d : Daemon) : Edits d d := ⟨rfl, rfl, id⟩

lemma Edits.entries (h : (sbs.map (·.bundleData.address)).Subperm (d.bundles.map (·.bundleData.address))) :
    Edits d { d with bundles := sbs } := by
  obtain ⟨as, hperm, hsub⟩ := h
  exact ⟨rfl, rfl, fun hd => ⟨hperm.nodup_iff.mp (hd.nodup.sublist hsub), fun a ha =>
    hd.lt a (hsub.subset (hperm.mem_iff.mpr ha))⟩⟩

/-- An entry is stored whose vector is new. -/
lemma Edits.store (hy : y.bundleData.address = d.nextAddress) :
    Edits d { d with bundles := d.bundles ++ [y], nextAddress := d.nextAddress + 1 } := by
  have haddresses : (d.bundles ++ [y]).map (·.bundleData.address) =
      d.bundles.map (·.bundleData.address) ++ [d.nextAddress] := by rw [map_append, map_singleton, hy]
  refine ⟨rfl, rfl, fun hd => ⟨?_, fun a ha => ?_⟩⟩
  · rw [haddresses]
    refine nodup_append.mpr ⟨hd.nodup, nodup_singleton _, fun a ha b hb => ?_⟩
    rw [mem_singleton.mp hb]
    exact Nat.ne_of_lt (hd.lt a ha)
  · rw [haddresses] at ha
    rcases mem_append.mp ha with ha | ha
    · exact Nat.lt_succ_of_lt (hd.lt a ha)
    · rw [mem_singleton.mp ha]
      exact Nat.lt_succ_self _

/-- The entries without the one that is found. -/
lemma Edits.others (hx : removeFirst pb d.bundles = some (x, rest)) : Edits d { d with bundles := rest } :=
  .entries (((sublist_cons_self x rest).map _).subperm.trans ((removeFirst_perm hx).symm.map _).subperm)

/-- The entry that is found goes to the end, with the same vector. -/
lemma Edits.moved (hx : removeFirst pb d.bundles = some (x, rest))
    (hy : y.bundleData.address = x.bundleData.address) : Edits d { d with bundles := rest ++ [y] } := by
  refine .entries (Perm.subperm ?_)
  have hperm := (removeFirst_perm_append hx).symm.map (·.bundleData.address)
  rw [map_append, map_singleton, ← hy] at hperm
  exact (Perm.of_eq map_append).trans hperm

lemma storeBundle_edits (h : d.storeBundle S bs minSize state persist = .ok (d', es)) : Edits d d' := by
  obtain ⟨y, -, hdata, -, -, rfl, -⟩ := storeBundle_eq_ok h
  exact .store (by rw [hdata])

lemma storeFragments_edits (h : d.storeFragments S minSize fs = .ok (d', es)) : Edits d d' := by
  induction fs generalizing d d' es with
  | nil => cases h; exact .refl _
  | cons _ _ ih =>
    obtain ⟨_, -, h⟩ := bind_eq_ok.mp h
    obtain ⟨⟨_, _⟩, h1, h⟩ := bind_eq_ok.mp h
    obtain ⟨⟨_, _⟩, h2, h⟩ := bind_eq_ok.mp h
    cases h
    exact (storeBundle_edits h1).trans (ih h2)

lemma fragmentBundle_edits (h : d.fragmentBundle S r n = .ok (d', es)) : Edits d d' := by
  rw [fragmentBundle] at h
  split at h
  · cases h
    exact .refl _
  · rename_i x rest hx
    obtain ⟨_, -, h⟩ := bind_eq_ok.mp h
    split at h
    · obtain ⟨_, -, h⟩ := bind_eq_ok.mp h
      obtain ⟨⟨_, _⟩, h1, h⟩ := bind_eq_ok.mp h
      obtain ⟨⟨_, _⟩, h2, h⟩ := bind_eq_ok.mp h
      cases h
      exact (Edits.others hx).trans ((storeBundle_edits h1).trans (storeFragments_edits h2))
    · cases h
      exact .moved hx rfl
    · cases h

lemma tryDefragmentBundle_edits (h : d.tryDefragmentBundle S r = .ok (d', es)) : Edits d d' := by
  obtain ⟨⟨_, _⟩, hsplit, h⟩ := bind_eq_ok.mp h
  obtain ⟨-, rfl, rfl⟩ := splitFragments_eq_ok hsplit
  dsimp only at h
  split at h <;> [cases h; skip]
  obtain ⟨_, -, h⟩ := bind_eq_ok.mp h
  split at h
  · obtain ⟨⟨_, _⟩, hstore, h⟩ := bind_eq_ok.mp h
    cases h
    exact (Edits.entries (filter_sublist.map _).subperm).trans (storeBundle_edits hstore)
  · cases h
    exact .entries ((perm_append_comm.trans (filter_append_perm ..)).map _).subperm
  · cases h

lemma updateBundle_edits (h : d.updateBundle S r st data = .ok (d', es)) : Edits d d' := by
  rw [updateBundle] at h
  split at h
  · cases h
    exact .refl _
  · rename_i x rest hx
    obtain ⟨⟨_, es1⟩, h1, h⟩ := bind_eq_ok.mp h
    cases h
    have hchanged (he : changeState { d with bundles := rest } x st data = (d', es1)) : Edits d d' := by
      cases data with
      | none => cases he; exact .moved hx rfl
      | some => cases he; exact (Edits.others hx).trans (.store rfl)
    cases st with
    | received => cases h1
    | valid | deliveryQueued | forwardingQueued => exact hchanged (Outcome.ok.inj h1)
    | delivered | forwarded | invalid => cases h1; exact .others hx
    | defragmentationPending => exact (Edits.moved hx rfl).trans (tryDefragmentBundle_edits h1)

lemma storeNewBundle_edits (h : d.storeNewBundle S bs = .ok (d', es)) : ∃ t, Edits (d.nextSequenceNumber t).1 d' := by
  obtain ⟨b, -, h⟩ := bind_eq_ok.mp h
  obtain ⟨_, -, h⟩ := bind_eq_ok.mp h
  split at h <;> [cases h; skip]
  split at h <;> [cases h; skip]
  dsimp only at h
  obtain ⟨_, -, h⟩ := bind_eq_ok.mp h
  obtain ⟨y, hy, h⟩ := bind_eq_ok.mp h
  obtain ⟨-, hdata, -, -⟩ := StoredBundle.ofVec_eq_ok hy
  cases h
  exact ⟨_, .store (by rw [hdata])⟩

lemma handle_endpoint_distinct (h : d.handle S m = .ok (d', es)) :
    d'.endpoint = d.endpoint ∧ (d.Distinct → d'.Distinct) := by
  have hedits : Edits d d' → d'.endpoint = d.endpoint ∧ (d.Distinct → d'.Distinct) := fun h => ⟨h.endpoint, h.distinct⟩
  cases m with
  | storeReceivedBundle => exact hedits (storeBundle_edits h)
  | storeNewBundle =>
    obtain ⟨t, ht⟩ := storeNewBundle_edits h
    have hnext : (d.nextSequenceNumber t).1.endpoint = d.endpoint ∧
        (d.Distinct → (d.nextSequenceNumber t).1.Distinct) := by
      rw [nextSequenceNumber]
      split <;> exact ⟨rfl, fun hd => ⟨hd.nodup, hd.lt⟩⟩
    exact ⟨ht.endpoint.trans hnext.1, fun hd => ht.distinct (hnext.2 hd)⟩
  | updateBundle => exact hedits (updateBundle_edits h)
  | fragmentBundle => exact hedits (fragmentBundle_edits h)

end Daemon

/-! ## Runs -/

/-- Every vector has a length that Rust can allocate. -/
def Daemon.Fits (d : Daemon) : Prop := ∀ sb ∈ d.bundles, FitsInMemory sb.bundleData.bytes

instance (d : Daemon) : Decidable d.Fits := inferInstanceAs (Decidable (∀ _ ∈ _, _))

/-- The files that the loader took, and what it made of them. -/
lemma load_eq_ok (h : Daemon.load S address files = .ok sbs) :
    List.Forall₂ (fun f sb => sb.getFilename = f.1 ∧ sb.bundleData.bytes = f.2 ∧ (∃ b, sb.Describes S b) ∧
      sb.state = .valid) files sbs := by
  induction files generalizing address sbs with
  | nil => cases h; exact .nil
  | cons _ _ ih =>
    obtain ⟨_, hsb, h⟩ := bind_eq_ok.mp h
    obtain ⟨⟨b, hb⟩, hdata, -⟩ := StoredBundle.ofVec_eq_ok hsb
    split at h <;> [cases h; skip]
    rename_i hname
    obtain ⟨_, hrest, h⟩ := bind_eq_ok.mp h
    cases h
    exact .cons ⟨not_not.mp hname, congrArg Data.bytes hdata,
      ⟨b, hb.decoded, hb.primaryBlock, hb.size, hb.payloadSize⟩, rfl⟩ (ih hrest)

/-- Every entry that is loaded is described by a file, and is valid. -/
lemma loaded (h : Daemon.load S address files = .ok sbs) (hsb : sb ∈ sbs) :
    (∃ b, sb.Describes S b) ∧ sb.state = .valid ∧ ∃ f ∈ files, sb.bundleData.bytes = f.2 := by
  obtain ⟨f, hf, -, hdata, hdescribes, hstate⟩ := forall₂_mem' (load_eq_ok h) hsb
  exact ⟨hdescribes, hstate, f, hf, hdata⟩

/-- The storage agent, from its start on whatever is in its directory, and then
with any messages in any order as long as no handler panics. -/
def system (S : Serde) : System Daemon Message where
  init d := d.Fits ∧ ∃ endpoint files es, Daemon.started S endpoint files = .ok (d, es)
  step d m d' := d'.Fits ∧ ∃ es, d.handle S m = .ok (d', es)

lemma started_bundles
    (h : Daemon.started S endpoint files = .ok (d, es)) : Daemon.load S 0 files = .ok d.bundles := by
  obtain ⟨_, hsbs, h⟩ := bind_eq_ok.mp h
  cases h
  exact hsbs

end Storage

end Dtn.Dtrd
