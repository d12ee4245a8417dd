import Mathlib.Algebra.Order.BigOperators.Group.List
import Dtn.Proof.Dtrd.Owned
import Dtn.Proof.Dtrd.Reports

/-!
# Stored bundles that can be read

The storage agent decodes what it has stored whenever it looks for fragments,
and panics if it cannot. `Readable` data decodes to an orderly bundle; a message
that brings only such data keeps the entries readable (`readable_of_change`). The
fragments of one bundle for this node agree on the length of its payload (`Tied`)
as long as those that arrive do (`Tied.change`). With both, and some memory, every
handler returns (`handle_of_readable`).
-/

namespace Dtn.Dtrd

open List Outcome Dtn.Bp7 Bundle

instance (endpoint : Endpoint) : DecidablePred (LocalFragment endpoint) := fun _ =>
  inferInstanceAs (Decidable (_ = _ ∧ _ = _))

namespace Storage

variable {S : Serde} {endpoint : Endpoint}
variable {bs bytes : List UInt8} {b : Bundle} {r : StoredBundleRef} {m : Message} {sbs sbs' : List StoredBundle}
  {bundles fs : List Bundle} {es : List Effect} {p q : PrimaryBlock} {y sb : StoredBundle}

/-- The bytes decode to an orderly bundle. -/
def Readable (S : Serde) (bs : List UInt8) : Prop := ∃ b, tryFrom S bs = .ok b ∧ b.Orderly

/-- The bytes decode to an orderly whole bundle from this node. -/
def Fresh (S : Serde) (endpoint : Endpoint) (bs : List UInt8) : Prop :=
  ∃ b, tryFrom S bs = .ok b ∧ b.Orderly ∧ b.primaryBlock.fragmentOffset = none ∧
    b.primaryBlock.sourceNode.matchesNode endpoint = (.ok true : Outcome Empty Bool)

instance (S : Serde) (bs : List UInt8) : Decidable (Readable S bs) :=
  match h : tryFrom S bs with
  | .ok b => decidable_of_iff' _ <| Iff.trans
      ⟨fun ⟨_, hb, ho⟩ => by cases h.symm.trans hb; exact ho, fun ho => ⟨b, h, ho⟩⟩
        (orderly_iff (tryFrom_shaped h))
  | .err _ | .panic => isFalse fun ⟨_, hb, _⟩ => by cases h.symm.trans hb

instance (S : Serde) (endpoint : Endpoint) (bs : List UInt8) : Decidable (Fresh S endpoint bs) :=
  match h : tryFrom S bs with
  | .ok b => decidable_of_iff (Readable S bs ∧ b.primaryBlock.fragmentOffset = none ∧
        b.primaryBlock.sourceNode.matchesNode endpoint = (.ok true : Outcome Empty Bool))
      ⟨fun ⟨⟨_, hb, ho⟩, hrest⟩ => by cases h.symm.trans hb; exact ⟨b, h, ho, hrest⟩,
        fun ⟨_, hb, ho, hrest⟩ => by cases h.symm.trans hb; exact ⟨⟨b, h, ho⟩, hrest⟩⟩
  | .err _ | .panic => isFalse fun ⟨_, hb, _⟩ => by cases h.symm.trans hb

lemma Fresh.readable (h : Fresh S endpoint bs) : Readable S bs := by
  obtain ⟨b, hb, ho, -, -⟩ := h
  exact ⟨b, hb, ho⟩

/-- What the encoder makes of an orderly bundle can be read. -/
lemma readable_of_toVec (hb : b.Orderly) (hv : b.toVec = .ok bs) (hfit : FitsInMemory bs) :
    Readable S bs := ⟨b, hb.tryFrom_eq hv hfit, hb⟩

lemma fresh_of_isReport (hself : endpoint.matchesNode endpoint = (.ok true : Outcome Empty Bool))
    (h : Protocol.IsReport endpoint bs) (hfit : FitsInMemory bs) : Fresh S endpoint bs := by
  obtain ⟨b, hb, hv, hwhole, hsource⟩ := h.orderly hfit
  exact ⟨b, hb.tryFrom_eq hv hfit, hb, hwhole, by rw [hsource]; exact hself⟩

/-! ## Messages that bring readable data -/

/-- The data that comes with a message can be read. -/
def Message.Brings (S : Serde) : Message → Prop
  | .storeReceivedBundle bs | .storeNewBundle bs => Readable S bs
  | .updateBundle _ st data => st.Queued → ∀ bs, data = some bs → FitsInMemory bs → Readable S bs
  | .fragmentBundle _ _ => True

/-- What a readable bundle is forwarded as can be read. -/
lemma readable_of_forwardsTo (h : ForwardsTo S endpoint r (.ok bs)) (hr : Readable S r.bundleData.bytes)
    (hfit : FitsInMemory bs) : Readable S bs := by
  obtain ⟨_, _, -, hforward⟩ := h
  obtain ⟨_, hb, ho⟩ := hr
  obtain ⟨hb0, h1, h2, hv⟩ := Protocol.forwardBundle_eq_ok hforward
  cases hb.symm.trans hb0
  rename_i b1 b2
  have ho1 : b1.Orderly := by
    rcases h1 with rfl | h1
    · exact ho
    · exact h1.orderly ho
  exact readable_of_toVec (h2.orderly ho1) hv hfit

lemma brings_of_ok (hr : m.bundleref = some r) (hm : m.Ok S endpoint r)
    (hread : Readable S r.bundleData.bytes) : m.Brings S := by
  cases m with
  | storeReceivedBundle | storeNewBundle => cases hr
  | fragmentBundle => trivial
  | updateBundle =>
    intro hst bs hbs hfit
    obtain ⟨rfl, hm⟩ := hm
    rcases hst with rfl | rfl | rfl
    · cases hm.2.symm.trans hbs
    · cases hm.2.2.2.symm.trans hbs
    · grind [readable_of_forwardsTo]

/-! ## Entries -/

lemma orderly_withSequenceNumber (hb : b.Orderly) (n : UInt64) : (Daemon.withSequenceNumber b n).Orderly :=
  ⟨⟨hb.shaped.nonempty, hb.shaped.fragment, hb.shaped.flags, hb.shaped.proper⟩, hb.noCRC, hb.payload,
    ⟨hb.fields.offset, hb.fields.total⟩, hb.bound⟩

lemma orderly_of_forall₂ (h : List.Forall₂ (fun sb b => tryFrom S sb.bundleData.bytes = .ok b) sbs bundles)
    (hread : ∀ y ∈ sbs, Readable S y.bundleData.bytes) : ∀ b ∈ bundles, b.Orderly := by
  intro b hb
  obtain ⟨sb, hsb, hdecoded⟩ := forall₂_mem' h hb
  obtain ⟨_, hb', ho⟩ := hread sb hsb
  cases hdecoded.symm.trans hb'
  exact ho

lemma readable_of_change (h : Change S sbs m sbs' es) (hm : m.Brings S)
    (hfit : ∀ y ∈ sbs', FitsInMemory y.bundleData.bytes)
    (hread : ∀ y ∈ sbs, Readable S y.bundleData.bytes) : ∀ y ∈ sbs', Readable S y.bundleData.bytes := by
  have hsplit {pb x rest} (hx : removeFirst pb sbs = some (x, rest)) :
      Readable S x.bundleData.bytes ∧ ∀ y ∈ rest, Readable S y.bundleData.bytes :=
    forall_mem_cons.mp fun y hy => hread y ((removeFirst_perm hx).mem_iff.mpr hy)
  have hall {pb x rest} (hx : removeFirst pb sbs = some (x, rest)) :
      ∀ y ∈ rest ++ [x], Readable S y.bundleData.bytes :=
    forall_mem_append.mpr ⟨(hsplit hx).2, forall_mem_singleton.mpr (hsplit hx).1⟩
  cases h with
  | received _ hdata =>
    refine forall_mem_append.mpr ⟨hread, forall_mem_singleton.mpr ?_⟩
    rw [hdata]
    exact hm
  | @created _ _ n y hb _ hdata =>
    obtain ⟨hold, hnew⟩ := forall_mem_append.mp hfit
    refine forall_mem_append.mpr ⟨hread, forall_mem_singleton.mpr ?_⟩
    obtain ⟨b', hb', ho⟩ := hm
    cases hb.symm.trans hb'
    exact readable_of_toVec (orderly_withSequenceNumber ho n) hdata (hnew y (mem_singleton_self _))
  | missing => exact hread
  | @changed _ _ _ data _ y _ hx hst hy =>
    obtain ⟨hold, hnew⟩ := forall_mem_append.mp hfit
    refine forall_mem_append.mpr ⟨(hsplit hx).2, forall_mem_singleton.mpr ?_⟩
    have hfits := hnew y (mem_singleton_self _)
    rw [hy] at hfits ⊢
    cases data with
    | none => exact (hsplit hx).1
    | some bs => exact hm hst bs rfl hfits
  | finished hx => exact (hsplit hx).2
  | waiting => grind
  | @reassembled _ _ _ _ y _ _ hx _ hbundles hcan hdata =>
    obtain ⟨hold, hnew⟩ := forall_mem_append.mp hfit
    refine forall_mem_append.mpr ⟨fun y hy => hall hx y (mem_of_mem_filter hy),
      forall_mem_singleton.mpr ?_⟩
    have hfits := hnew y (mem_singleton_self _)
    rw [hdata] at hfits ⊢
    obtain ⟨-, main, hmain, _, hv⟩ := reassembleBundles_eq_ok hcan
    have ho := orderly_of_forall₂ hbundles (fun y hy => hall hx y (mem_of_mem_filter hy)) main hmain
    have hlen := Nat.le_trans (length_data_le main ho hv) hfits
    exact readable_of_toVec (rebuild_orderly ho (Nat.lt_of_le_of_lt hlen (by decide))) hv hfits
  | tooSmall hx => exact forall_mem_append.mpr ⟨(hsplit hx).2, forall_mem_singleton.mpr (hsplit hx).1⟩
  | @fragmented _ _ _ _ _ _ _ _ hx hb hfs _ hys =>
    obtain ⟨_, hnew⟩ := forall_mem_append.mp hfit
    refine forall_mem_append.mpr ⟨(hsplit hx).2, fun y hy => ?_⟩
    obtain ⟨_, hf, hholds⟩ := forall₂_mem' hys hy
    obtain ⟨_, hb', ho⟩ := (hsplit hx).1
    cases hb.symm.trans hb'
    exact readable_of_toVec (fragment_orderly ho hfs hf) hholds.data (hnew y hy)

/-! ## Fragments of one bundle -/

/-- Fragments of one bundle for this node agree on the length of its payload. -/
def Tied (endpoint : Endpoint) (sbs : List StoredBundle) : Prop :=
  ∀ x ∈ sbs, ∀ y ∈ sbs, LocalFragment endpoint x.primaryBlock →
    x.primaryBlock.equalsIgnoringFragmentInfo y.primaryBlock = true →
    x.primaryBlock.totalDataLength = y.primaryBlock.totalDataLength

/-- A bundle that arrives agrees with the fragments that are there. -/
def Message.Agrees (S : Serde) (endpoint : Endpoint) (sbs : List StoredBundle) : Message → Prop
  | .storeReceivedBundle bs => match tryFrom S bs with
    | .ok b => LocalFragment endpoint b.primaryBlock → ∀ y ∈ sbs,
      b.primaryBlock.equalsIgnoringFragmentInfo y.primaryBlock = true →
        b.primaryBlock.totalDataLength = y.primaryBlock.totalDataLength
    | _ => True
  | _ => True

instance (S : Serde) (endpoint : Endpoint) (sbs : List StoredBundle) (m : Message) :
    Decidable (m.Agrees S endpoint sbs) := by
  unfold Message.Agrees
  repeat' split
  all_goals infer_instance

lemma equalsIgnoringFragmentInfo_symm (h : p.equalsIgnoringFragmentInfo q = true) :
    q.equalsIgnoringFragmentInfo p = true := beq_iff_eq.mpr (beq_iff_eq.mp h).symm

lemma equalsIgnoringFragmentOffset_of_info (h : p.equalsIgnoringFragmentInfo q = true)
    (htotal : p.totalDataLength = q.totalDataLength) : p.equalsIgnoringFragmentOffset q = true := by
  have heq := beq_iff_eq.mp h
  obtain ⟨⟩ := p
  obtain ⟨⟩ := q
  simp only [PrimaryBlock.mk.injEq] at heq
  dsimp only at htotal
  simp only [PrimaryBlock.equalsIgnoringFragmentOffset, heq, htotal, beq_self_eq_true]

/-- What belongs to a fragment for this node is one. -/
lemma localFragment_of_equals (hl : LocalFragment endpoint p) (hp : Bundle.Consistent p) (hq : Bundle.Consistent q)
    (h : p.equalsIgnoringFragmentInfo q = true) : LocalFragment endpoint q := by
  have heq := beq_iff_eq.mp h
  have hflags := congrArg PrimaryBlock.bundleProcessingFlags heq
  have hdestination := congrArg PrimaryBlock.destinationEndpoint heq
  obtain ⟨hlocal, hfragment⟩ := hl
  refine ⟨by rw [IsLocal, ← hdestination]; exact hlocal, ?_⟩
  rw [hq.offset, ← hflags, ← hp.offset]
  exact hfragment

lemma Tied.push (ht : Tied endpoint sbs) (hcons : ∀ x ∈ sbs ++ [y], Bundle.Consistent x.primaryBlock)
    (hy : LocalFragment endpoint y.primaryBlock → ∀ x ∈ sbs,
      y.primaryBlock.equalsIgnoringFragmentInfo x.primaryBlock = true →
        y.primaryBlock.totalDataLength = x.primaryBlock.totalDataLength) : Tied endpoint (sbs ++ [y]) := by
  obtain ⟨_, hnew⟩ := forall_mem_append.mp hcons
  intro a ha b hb hl heq
  rcases mem_append.mp ha with ha | ha <;> rcases mem_append.mp hb with hb | hb
  · exact ht a ha b hb hl heq
  · grind [localFragment_of_equals, equalsIgnoringFragmentInfo_symm]
  · cases mem_singleton.mp ha
    exact hy hl b hb heq
  · grind

/-- Entries with the primary block of an old one, and entries that are no fragments for this node. -/
lemma Tied.of_old (ht : Tied endpoint sbs) (hcons : ∀ x ∈ sbs', Bundle.Consistent x.primaryBlock)
    (h : ∀ y ∈ sbs', (∃ x ∈ sbs, x.primaryBlock = y.primaryBlock) ∨ ¬ LocalFragment endpoint y.primaryBlock) :
    Tied endpoint sbs' := by
  intro a ha b hb hl heq
  rcases h a ha with ⟨x, hx, hxa⟩ | hn
  · rcases h b hb with ⟨y, hy, hyb⟩ | hn
    · rw [← hxa] at hl heq ⊢
      rw [← hyb] at heq ⊢
      exact ht x hx y hy hl heq
    · grind [localFragment_of_equals]
  · exact absurd hl hn

lemma consistent_of_readable (hread : Readable S y.bundleData.bytes) (hr : RefOk S endpoint y.getRef) :
    Bundle.Consistent y.primaryBlock := by
  obtain ⟨b, hb, ho⟩ := hread
  have hpb : b.primaryBlock = y.primaryBlock := hr.decoded b hb
  rw [← hpb]
  exact ho.fields

/-- An entry has the primary block of the bundle that it is the encoding of. -/
lemma describes_primaryBlock {f : Bundle} (hy : ∃ b, y.Describes S b) (hv : f.toVec = .ok y.bundleData.bytes)
    (hf : f.Orderly) (hfit : FitsInMemory y.bundleData.bytes) : y.primaryBlock = f.primaryBlock := by
  obtain ⟨_, hb⟩ := hy
  cases hb.decoded.symm.trans (hf.tryFrom_eq hv hfit)
  exact hb.primaryBlock

lemma created_whole {n : UInt64} (hb : b.Orderly) (hwhole : b.primaryBlock.fragmentOffset = none)
    (hdata : (Daemon.withSequenceNumber b n).toVec = .ok y.bundleData.bytes) (hy : ∃ b, y.Describes S b)
    (hfit : FitsInMemory y.bundleData.bytes) : y.primaryBlock.fragmentOffset = none := by
  rw [describes_primaryBlock hy hdata (orderly_withSequenceNumber hb n) hfit]
  exact hwhole

lemma reassembled_whole (hbundles : ∀ b ∈ bundles, b.Orderly)
    (hcan : reassembleBundles bundles = .ok y.bundleData.bytes) (hy : ∃ b, y.Describes S b)
    (hfit : FitsInMemory y.bundleData.bytes) : y.primaryBlock.fragmentOffset = none := by
  obtain ⟨-, main, hmain, _, hv⟩ := reassembleBundles_eq_ok hcan
  have ho := hbundles main hmain
  have hlen := Nat.le_trans (length_data_le main ho hv) hfit
  rw [describes_primaryBlock hy hv (rebuild_orderly ho (Nat.lt_of_le_of_lt hlen (by decide))) hfit]
  rfl

/-- A bundle and its fragments have one destination. -/
lemma fragmented_destination {f : Bundle} {maxSize : Nat} {sizes : UInt64 × UInt64} (hb : b.Orderly)
    (hfs : b.fragment maxSize = .ok (fs, sizes)) (hf : f ∈ fs) (hy : Holds S f y)
    (hfit : FitsInMemory y.bundleData.bytes) :
    y.primaryBlock.destinationEndpoint = b.primaryBlock.destinationEndpoint := by
  obtain ⟨_, _, -, htiled⟩ := fragment_tiled hfs
  obtain ⟨_, _, hcut, -, -⟩ := htiled.of_mem hf
  rw [describes_primaryBlock hy.describes hy.data (fragment_orderly hb hfs hf) hfit, hcut.eq]
  rfl

lemma Tied.change (ht : Tied endpoint sbs) (h : Change S sbs m sbs' es)
    (hm : ∀ r, m.bundleref = some r → RefOk S endpoint r ∧ m.Ok S endpoint r) (hagrees : m.Agrees S endpoint sbs)
    (hbrings : m.Brings S) (hfit : ∀ y ∈ sbs', FitsInMemory y.bundleData.bytes)
    (hread : ∀ y ∈ sbs, Readable S y.bundleData.bytes) (hentries : ∀ y ∈ sbs, RefOk S endpoint y.getRef) :
    Tied endpoint sbs' := by
  have hread' := readable_of_change h hbrings hfit hread
  have hentries' := refOk_of_change h hm hfit hentries
  have hcons : ∀ y ∈ sbs', Bundle.Consistent y.primaryBlock := fun y hy => consistent_of_readable (hread' y hy)
    (hentries' y hy)
  have hsame {y : StoredBundle} (hy : y ∈ sbs) :
      (∃ x ∈ sbs, x.primaryBlock = y.primaryBlock) ∨ ¬ LocalFragment endpoint y.primaryBlock := .inl ⟨y, hy, rfl⟩
  have hwhole {y : StoredBundle} (hy : y.primaryBlock.fragmentOffset = none) :
      (∃ x ∈ sbs, x.primaryBlock = y.primaryBlock) ∨ ¬ LocalFragment endpoint y.primaryBlock :=
    .inr fun hl => by have := hl.2; rw [hy] at this; cases this
  cases h with
  | @received _ _ hy hdata =>
    refine ht.push hcons ?_
    obtain ⟨b, hb⟩ := hy
    rw [Message.Agrees, ← hdata, hb.decoded] at hagrees
    rw [hb.primaryBlock]
    exact hagrees
  | @created _ _ _ y hb hnone hdata hy =>
    refine ht.of_old hcons
      (forall_mem_append.mpr ⟨fun y hy => hsame hy, forall_mem_singleton.mpr (hwhole ?_)⟩)
    obtain ⟨b', hb', ho⟩ := hbrings
    cases hb.symm.trans hb'
    exact created_whole ho hnone hdata hy (hfit y (by simp))
  | missing => exact ht
  | @changed _ _ _ _ x y _ hx _ hy =>
    refine ht.of_old hcons (forall_mem_append.mpr ⟨fun y hy => hsame ((removeFirst_mem hx).2 y hy),
      forall_mem_singleton.mpr (.inl ⟨x, (removeFirst_mem hx).1, by rw [hy]⟩)⟩)
  | finished hx => exact ht.of_old hcons fun y hy => hsame ((removeFirst_mem hx).2 y hy)
  | @waiting rest _ _ x _ _ hx =>
    have hall : ∀ y ∈ rest ++ [x], y ∈ sbs :=
      forall_mem_append.mpr ⟨(removeFirst_mem hx).2, forall_mem_singleton.mpr (removeFirst_mem hx).1⟩
    refine ht.of_old hcons (forall_mem_append.mpr ⟨fun y hy => ?_, fun y hy => ?_⟩) <;>
      exact hsame (hall y (mem_of_mem_filter hy))
  | @reassembled rest _ _ x y _ _ hx _ hbundles hcan hdata hy =>
    have hall : ∀ y ∈ rest ++ [x], y ∈ sbs :=
      forall_mem_append.mpr ⟨(removeFirst_mem hx).2, forall_mem_singleton.mpr (removeFirst_mem hx).1⟩
    refine ht.of_old hcons (forall_mem_append.mpr ⟨fun y hy => hsame (hall y (mem_of_mem_filter hy)),
      forall_mem_singleton.mpr (hwhole ?_)⟩)
    have ho := orderly_of_forall₂ hbundles fun y hy => hread y (hall y (mem_of_mem_filter hy))
    exact reassembled_whole ho (hdata ▸ hcan) hy (hfit y (by simp))
  | @tooSmall _ _ _ _ x _ hx =>
    exact ht.of_old hcons (forall_mem_append.mpr ⟨fun y hy => hsame ((removeFirst_mem hx).2 y hy),
      forall_mem_singleton.mpr (.inl ⟨x, (removeFirst_mem hx).1, rfl⟩)⟩)
  | @fragmented _ _ r _ x b _ _ hx hb hfs _ hys =>
    refine ht.of_old hcons
      (forall_mem_append.mpr ⟨fun y hy => hsame ((removeFirst_mem hx).2 y hy), fun y hy => .inr fun hl => ?_⟩)
    -- a bundle that is cut is for another node, and so are its fragments
    obtain ⟨hr, -, hst, -⟩ := hm r rfl
    have hremote := hr.forwardingQueued hst
    obtain ⟨_, hf, hholds⟩ := forall₂_mem' hys hy
    obtain ⟨_, hb', ho⟩ := hread x (removeFirst_mem hx).1
    cases hb.symm.trans hb'
    have hpb : b.primaryBlock = x.primaryBlock := (hentries x (removeFirst_mem hx).1).decoded b hb
    have hlocal := hl.1
    rw [IsLocal, fragmented_destination ho hfs hf hholds (hfit y (by simp [hy])), hpb,
      removeFirst_primaryBlock hx] at hlocal
    cases hlocal.symm.trans hremote

/-! ## Handlers that return -/

/-- The memory for a vector and for what the encoder makes of its bundle. -/
def space (S : Serde) (bs : List UInt8) : Nat :=
  bs.length + match tryFrom S bs with
    | .ok b => (b.toVec.toOption.getD []).length
    | _ => 0

def Message.space (S : Serde) : Message → Nat
  | .storeReceivedBundle bs | .storeNewBundle bs => Storage.space S bs
  | _ => 0

lemma length_le_space (hb : tryFrom S bs = .ok b) (hv : b.toVec = .ok bytes) : bytes.length ≤ space S bs := by
  rw [space, hb]
  dsimp only
  rw [hv]
  exact Nat.le_add_left ..

/-- A new number does not make the encoding much longer. -/
lemma length_withSequenceNumber_le (hb : b.Orderly) (n : UInt64) (hv : b.toVec = .ok bytes)
    (hv' : (Daemon.withSequenceNumber b n).toVec = .ok bytes') : bytes'.length ≤ bytes.length + 9 := by
  have hp := serialize_primaryBlock hb.noCRC.1 hb.shaped.fragment
  have hp' := serialize_primaryBlock (p := (Daemon.withSequenceNumber b n).primaryBlock) hb.noCRC.1 hb.shaped.fragment
  have hlen := length_toVec hv hp
  have hlen' := length_toVec hv' hp'
  have helements : (Daemon.withSequenceNumber b n).primaryBlock.elements = b.primaryBlock.elements := rfl
  have hnumber : (Cbor.encU64 n).length ≤ 9 := length_head_le 0 _
  rw [helements] at hlen'
  simp only [Daemon.withSequenceNumber, CreationTimestamp.serialize, length_append] at hlen hlen'
  omega

lemma ofVec_of_readable (h : Readable S bs) (address : Nat) :
    ∃ sb, (StoredBundle.ofVec S address bs : Outcome Empty StoredBundle) = .ok sb := by
  obtain ⟨_, hb, ho⟩ := h
  rw [StoredBundle.ofVec, hb, unwrap_ok, ok_bind, ho.payloadData, ok_bind]
  exact ⟨_, rfl⟩

lemma getBundle_of_readable (hb : tryFrom S sb.bundleData.bytes = .ok b) :
    (sb.getBundle S : Outcome Empty Bundle) = .ok b := by
  rw [StoredBundle.getBundle, hb, unwrap_ok]

lemma splitFragments_of_readable (hread : ∀ y ∈ sbs, Readable S y.bundleData.bytes)
    (pb : PrimaryBlock) : ∃ x, Daemon.splitFragments S pb sbs = .ok x := by
  induction sbs with
  | nil => exact ⟨_, rfl⟩
  | cons _ _ ih =>
    obtain ⟨⟨_, hb, -⟩, hsbs⟩ := forall_mem_cons.mp hread
    obtain ⟨_, hx⟩ := ih hsbs
    rw [Daemon.splitFragments, getBundle_of_readable hb, ok_bind, hx, ok_bind]
    exact ⟨_, rfl⟩

lemma getBundles_of_readable (hread : ∀ y ∈ sbs, Readable S y.bundleData.bytes) :
    ∃ bundles, Daemon.getBundles S sbs = .ok bundles := by
  induction sbs with
  | nil => exact ⟨_, rfl⟩
  | cons _ _ ih =>
    obtain ⟨⟨_, hb, -⟩, hsbs⟩ := forall_mem_cons.mp hread
    obtain ⟨_, hbundles⟩ := ih hsbs
    rw [Daemon.getBundles, getBundle_of_readable hb, ok_bind, hbundles, ok_bind]
    exact ⟨_, rfl⟩

/-- The payloads of the bundles that entries decode to take less memory than the entries. -/
lemma sum_payloads_le (h : List.Forall₂ (fun sb b => tryFrom S sb.bundleData.bytes = .ok b) sbs bundles)
    (ho : ∀ b ∈ bundles, b.Orderly) :
    (bundles.map (·.range.2)).sum ≤ (sbs.map fun sb => space S sb.bundleData.bytes).sum := by
  induction h with
  | nil => exact Nat.le_refl _
  | @cons sb b _ _ hb _ ih =>
    obtain ⟨hob, hos⟩ := forall_mem_cons.mp ho
    obtain ⟨bytes, hv⟩ := hob.shaped.toVec
    have hle : b.range.2 ≤ space S sb.bundleData.bytes :=
      Nat.le_trans (hob.length_payloadBytes_le hv) (length_le_space hb hv)
    simp only [map_cons, sum_cons]
    exact Nat.add_le_add hle (ih hos)

namespace Daemon

variable {d : Daemon}
variable {x : StoredBundle}

def space (S : Serde) (d : Daemon) : Nat := (d.bundles.map fun sb => Storage.space S sb.bundleData.bytes).sum

lemma space_le (h : sb ∈ d.bundles) : Storage.space S sb.bundleData.bytes ≤ d.space S :=
  le_sum_of_mem (mem_map_of_mem h)

lemma storeBundle_of_readable (h : Readable S bs) (minSize : Option UInt64) (st : State) (persist : Bool) :
    ∃ x, d.storeBundle S bs minSize st persist = .ok x := by
  obtain ⟨_, hsb⟩ := ofVec_of_readable h d.nextAddress
  rw [storeBundle, hsb, ok_bind]
  exact ⟨_, rfl⟩

lemma storeNewBundle_of_fresh (h : Fresh S d.endpoint bs) (hroom : Storage.space S bs + 9 ≤ isizeMax) :
    ∃ x, d.storeNewBundle S bs = .ok x := by
  obtain ⟨b, hb, ho, hwhole, hsource⟩ := h
  rw [storeNewBundle, hb, unwrap_ok, ok_bind, hsource, ok_bind, Bool.not_true,
    if_neg Bool.false_ne_true, hwhole, Option.isSome_none, if_neg Bool.false_ne_true]
  generalize d.nextSequenceNumber b.primaryBlock.creationTimestamp.creationTime = x
  obtain ⟨d', n⟩ := x
  have ho' := orderly_withSequenceNumber ho n
  obtain ⟨_, hv⟩ := ho.shaped.toVec
  obtain ⟨bytes', hv'⟩ := ho'.shaped.toVec
  have hlen := length_withSequenceNumber_le ho n hv hv'
  have hspace := length_le_space hb hv
  obtain ⟨_, hsb⟩ := ofVec_of_readable (S := S) (readable_of_toVec ho' hv' (show bytes'.length ≤ isizeMax by omega))
    d'.nextAddress
  dsimp only
  rw [hv', unwrap_ok, ok_bind, hsb, ok_bind]
  exact ⟨_, rfl⟩

lemma storeFragments_of_orderly (minSize : UInt64)
    (h : ∀ f ∈ fs, f.Orderly ∧ ∃ bytes, f.toVec = .ok bytes ∧ FitsInMemory bytes) (d : Daemon) :
    ∃ x, d.storeFragments S minSize fs = .ok x := by
  induction fs generalizing d with
  | nil => exact ⟨_, rfl⟩
  | cons _ _ ih =>
    obtain ⟨⟨ho, _, hv, hfit⟩, hfs⟩ := forall_mem_cons.mp h
    obtain ⟨x, hx⟩ := d.storeBundle_of_readable (readable_of_toVec (S := S) ho hv hfit) (some minSize) .valid true
    obtain ⟨_, hy⟩ := ih hfs x.1
    rw [storeFragments, hv, unwrap_ok, ok_bind, hx, ok_bind]
    dsimp only
    rw [hy, ok_bind]
    exact ⟨_, rfl⟩

lemma fragmentBundle_of_readable (hx : removeFirst r.primaryBlock d.bundles = some (x, rest))
    (hb : tryFrom S x.bundleData.bytes = .ok b) (ho : b.Orderly) (hdivisible : b.Divisible n.toNat)
    (hmay : b.primaryBlock.bundleProcessingFlags.contains .mustNotFragment = false)
    (hroom : Storage.space S x.bundleData.bytes ≤ isizeMax) : ∃ y, d.fragmentBundle S r n = .ok y := by
  rw [fragmentBundle, hx]
  dsimp only
  rw [getBundle_of_readable hb, ok_bind]
  rcases ho.fragment_cases hdivisible hmay with ⟨_, hk⟩ | ⟨f, fs, ⟨firstMinSize, minSize⟩, _, hfs, hv, hsmall⟩
  · rw [hk]
    exact ⟨_, rfl⟩
  · have hspace := length_le_space hb hv
    have hpieces : ∀ f' ∈ f :: fs, f'.Orderly ∧ ∃ bytes', f'.toVec = .ok bytes' ∧ FitsInMemory bytes' :=
      fun f' hf' => by
      obtain ⟨bytes', hv', _⟩ := hsmall f' hf'
      exact ⟨fragment_orderly ho hfs hf', bytes', hv', show bytes'.length ≤ isizeMax by omega⟩
    obtain ⟨⟨hof, _, hv', hfit⟩, hrest⟩ := forall_mem_cons.mp hpieces
    rw [hfs]
    dsimp only
    obtain ⟨y, hy⟩ := storeBundle_of_readable (d := { d with bundles := rest })
      (readable_of_toVec (S := S) hof hv' hfit)
      (some firstMinSize) .valid true
    obtain ⟨_, hz⟩ := storeFragments_of_orderly (S := S) minSize hrest y.1
    rw [hv', unwrap_ok, ok_bind, hy, ok_bind, hz, ok_bind]
    exact ⟨_, rfl⟩

/-- The fragments that belong to one for this node, as the reassembly sees them. -/
lemma fragmentSet_of_tied (hx : x ∈ sbs) (hread : ∀ y ∈ sbs, Readable S y.bundleData.bytes)
    (hentries : ∀ y ∈ sbs, RefOk S endpoint y.getRef) (htied : Tied endpoint sbs)
    (hlocal : LocalFragment endpoint x.primaryBlock)
    (hbundles : List.Forall₂ (fun sb b => tryFrom S sb.bundleData.bytes = .ok b)
      (sbs.filter (isFragmentOf S x.primaryBlock)) bundles) : ∃ total, Bundle.FragmentSet total bundles := by
  have hxcons := consistent_of_readable (hread x hx) (hentries x hx)
  have hflag : x.primaryBlock.bundleProcessingFlags.contains .fragment = true := by
    rw [← hxcons.offset]
    exact hlocal.2
  obtain ⟨total, htotal⟩ : ∃ total, x.primaryBlock.totalDataLength = some total := by
    rw [← Option.isSome_iff_exists, hxcons.total]
    exact hflag
  -- what a member of the group is
  have hmember : ∀ b ∈ bundles, b.Orderly ∧ b.primaryBlock.equalsIgnoringFragmentInfo x.primaryBlock = true ∧
      b.primaryBlock.totalDataLength = some total := by
    intro b hb
    obtain ⟨y, hy, hdecoded⟩ := forall₂_mem' hbundles hb
    obtain ⟨hy, hfragment⟩ := mem_filter.mp hy
    obtain ⟨b', hb', ho⟩ := hread y hy
    cases hdecoded.symm.trans hb'
    rw [isFragmentOf, hdecoded] at hfragment
    dsimp only at hfragment
    have hpb : b.primaryBlock = y.primaryBlock := (hentries y hy).decoded b hdecoded
    refine ⟨ho, hfragment, ?_⟩
    rw [hpb] at hfragment ⊢
    rw [← htied x hx y hy hlocal (equalsIgnoringFragmentInfo_symm hfragment)]
    exact htotal
  have hflags : ∀ b ∈ bundles, b.primaryBlock.bundleProcessingFlags.contains .fragment = true := fun b hb => by
    have heq := congrArg PrimaryBlock.bundleProcessingFlags (beq_iff_eq.mp (hmember b hb).2.1)
    rw [heq]
    exact hflag
  refine ⟨total, ?_, hflags, fun b hb b' hb' => ?_, fun b hb => ?_, fun b hb => (hmember b hb).2.2,
    fun b hb => (hmember b hb).1.ranged⟩
  · rintro rfl
    have hnil := forall₂_nil_right_iff.mp hbundles
    have hmem : x ∈ sbs.filter (isFragmentOf S x.primaryBlock) := by
      obtain ⟨b, hb, -⟩ := hread x hx
      have hpb : b.primaryBlock = x.primaryBlock := (hentries x hx).decoded b hb
      refine mem_filter.mpr ⟨hx, ?_⟩
      rw [isFragmentOf, hb, ← hpb]
      exact beq_self_eq_true _
    rw [hnil] at hmem
    cases hmem
  · have heq := (beq_iff_eq.mp (hmember b hb).2.1).trans (beq_iff_eq.mp (hmember b' hb').2.1).symm
    exact equalsIgnoringFragmentOffset_of_info (beq_iff_eq.mpr heq) ((hmember b hb).2.2.trans (hmember b' hb').2.2.symm)
  · rw [(hmember b hb).1.fields.offset]
    exact hflags b hb

lemma tryDefragmentBundle_of_tied (hx : x ∈ d.bundles) (hread : ∀ y ∈ d.bundles, Readable S y.bundleData.bytes)
    (hentries : ∀ y ∈ d.bundles, RefOk S endpoint y.getRef) (htied : Tied endpoint d.bundles)
    (hlocal : LocalFragment endpoint x.primaryBlock)
    (hroom : 2 * d.space S + 128 ≤ isizeMax) : ∃ y, d.tryDefragmentBundle S x.getRef = .ok y := by
  obtain ⟨⟨fragments, rest⟩, hsplit⟩ := splitFragments_of_readable hread x.primaryBlock
  obtain ⟨-, hfragments, -⟩ := splitFragments_eq_ok hsplit
  have hfrom : ∀ y ∈ fragments, y ∈ d.bundles := fun y hy => mem_of_mem_filter (hfragments ▸ hy)
  obtain ⟨bundles, hbundles⟩ := getBundles_of_readable fun y hy => hread y (hfrom y hy)
  have hdecoded := getBundles_eq_ok hbundles
  have horderly := orderly_of_forall₂ hdecoded fun y hy => hread y (hfrom y hy)
  obtain ⟨total, hset⟩ := fragmentSet_of_tied hx hread hentries htied hlocal (hfragments ▸ hdecoded)
  have hne : fragments ≠ [] := by
    rintro rfl
    cases hdecoded
    exact hset.nonempty rfl
  rw [tryDefragmentBundle, show x.getRef.primaryBlock = x.primaryBlock from rfl, hsplit, ok_bind]
  dsimp only
  rw [if_neg (by simpa using hne), hbundles, ok_bind]
  by_cases hcover : Bundle.Covered total bundles
  · -- the payload is not longer than the fragments are together
    have hsum : (bundles.map (·.range.2)).sum ≤ d.space S := by
      refine Nat.le_trans (sum_payloads_le hdecoded horderly) ?_
      rw [hfragments]
      exact ((filter_sublist).map _).sum_le_sum fun _ _ => Nat.zero_le _
    have htotal := Nat.le_trans hcover.total_le_sum hsum
    obtain ⟨main, hmain, -, _, bytes, hbytes, hv, hlen, -⟩ := hset.reassembleBundles_eq hcover (by omega)
    obtain ⟨sb, hsb, hdecodes⟩ := forall₂_mem' hdecoded hmain
    obtain ⟨_, hencoded⟩ := (horderly main hmain).shaped.toVec
    have hspace := Nat.le_trans (length_le_space hdecodes hencoded) (space_le (hfrom sb hsb))
    have hgrows := length_rebuild_le (horderly main hmain) hencoded hv
    have hreadable : Readable S bytes := readable_of_toVec
      (rebuild_orderly (horderly main hmain) (by rw [hlen]; exact UInt64.toNat_lt _)) hv
      (show bytes.length ≤ isizeMax by omega)
    obtain ⟨_, hy⟩ := storeBundle_of_readable (d := { d with bundles := rest }) hreadable none .valid true
    rw [hbytes]
    dsimp only
    rw [hy, ok_bind]
    exact ⟨_, rfl⟩
  · rw [hset.reassembleBundles_eq_err hcover]
    exact ⟨_, rfl⟩

/-! ## One message -/

/-- A bundle that is to be cut can be. -/
def Divides (S : Serde) (d : Daemon) : Message → Prop
  | .fragmentBundle r n => match removeFirst r.primaryBlock d.bundles with
    | some (x, _) => match tryFrom S x.bundleData.bytes with
      | .ok b => b.Divisible n.toNat
      | _ => True
    | none => True
  | _ => True

instance (S : Serde) (d : Daemon) (m : Message) : Decidable (d.Divides S m) := by
  unfold Divides
  repeat' split
  all_goals infer_instance

/-- Every handler returns, if the entries can be read and there is memory. -/
lemma handle_of_readable (hread : ∀ y ∈ d.bundles, Readable S y.bundleData.bytes)
    (hentries : ∀ y ∈ d.bundles, RefOk S endpoint y.getRef) (htied : Tied endpoint d.bundles)
    (hm : ∀ r, m.bundleref = some r → m.Ok S endpoint r) (hbrings : m.Brings S)
    (hnew : ∀ bs, m = .storeNewBundle bs → Fresh S d.endpoint bs) (hdivides : d.Divides S m)
    (hroom : 2 * (d.space S + m.space S) + 128 ≤ isizeMax) : ∃ x, d.handle S m = .ok x := by
  cases m with
  | storeReceivedBundle => exact storeBundle_of_readable hbrings ..
  | storeNewBundle bs =>
    simp only [Message.space] at hroom
    exact storeNewBundle_of_fresh (hnew bs rfl) (by omega)
  | updateBundle r st =>
    obtain ⟨-, hok⟩ := hm r rfl
    rw [handle]
    cases hx : removeFirst r.primaryBlock d.bundles with
    | none =>
      rw [updateBundle, hx]
      exact ⟨_, rfl⟩
    | some found =>
      obtain ⟨x, rest⟩ := found
      by_cases hst : st = .defragmentationPending
      · subst hst
        have hpb := removeFirst_primaryBlock hx
        have hperm := removeFirst_perm_append hx
        have hmem {y} : y ∈ rest ++ [x] ↔ y ∈ d.bundles := hperm.symm.mem_iff
        rw [updateBundle_defragmentationPending hx]
        have hspace : space S { d with bundles := rest ++ [x] } = d.space S := (hperm.symm.map _).sum_nat
        have hlocal : LocalFragment endpoint x.primaryBlock := by
          rw [hpb]
          exact ⟨hok.2.1, hok.2.2⟩
        refine tryDefragmentBundle_of_tied (hmem.mpr ((removeFirst_perm hx).mem_iff.mpr mem_cons_self))
          (fun y hy => hread y (hmem.mp hy)) (fun y hy => hentries y (hmem.mp hy))
          (fun a ha b hb => htied a (hmem.mp ha) b (hmem.mp hb)) hlocal ?_
        rw [hspace]
        omega
      · rw [updateBundle, hx]
        cases st with
        | defragmentationPending => exact absurd rfl hst
        | received => exact hok.elim
        | _ => exact ⟨_, rfl⟩
  | fragmentBundle r =>
    obtain ⟨-, -, -, hmay, -⟩ := hm r rfl
    rw [handle]
    cases hx : removeFirst r.primaryBlock d.bundles with
    | none =>
      rw [fragmentBundle, hx]
      exact ⟨_, rfl⟩
    | some found =>
      obtain ⟨x, _⟩ := found
      have hmem : x ∈ d.bundles := (removeFirst_perm hx).mem_iff.mpr mem_cons_self
      obtain ⟨b, hb, ho⟩ := hread x hmem
      have hpb : b.primaryBlock = x.primaryBlock := (hentries x hmem).decoded b hb
      rw [Divides, hx] at hdivides
      dsimp only at hdivides
      rw [hb] at hdivides
      refine fragmentBundle_of_readable hx hb ho hdivides ?_ ?_
      · rw [hpb, removeFirst_primaryBlock hx]
        exact hmay
      · have hspace := space_le (S := S) hmem
        omega

end Daemon

end Storage

end Dtn.Dtrd
