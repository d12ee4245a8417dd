import Dtn.Proof.Dtrd.Readable

/-!
# The fragments of one bundle in the store

`group p` is what is stored of one bundle: the entries whose primary block is `p`
up to the fragment fields. A message to the storage agent adds a fragment that
arrives to them, or it keeps their data, or it looks whether they can be put
together; then it leaves them as they are or replaces them by the whole bundle
(`gathers_of_change`).
-/

namespace Dtn.Dtrd.Storage

open List Dtn.Bp7 Bundle Bool

/-- The entry is for the bundle that `p` is a fragment of. -/
def Belongs (p : PrimaryBlock) (y : StoredBundle) : Bool := y.primaryBlock.equalsIgnoringFragmentInfo p

def group (p : PrimaryBlock) (sbs : List StoredBundle) : List StoredBundle := sbs.filter (Belongs p)

def contents (sbs : List StoredBundle) : List (List UInt8) := sbs.map (·.bundleData.bytes)

/-- The bytes are those of a bundle of the group. -/
def isPart (S : Serde) (p : PrimaryBlock) (bs : List UInt8) : Bool :=
  match tryFrom S bs with
  | .ok b => b.primaryBlock.equalsIgnoringFragmentInfo p
  | _ => false

/-- What a message brings of the group. -/
def Message.arrival (S : Serde) (p : PrimaryBlock) : Message → Option (List UInt8)
  | .storeReceivedBundle bs => if isPart S p bs then some bs else none
  | _ => none

lemma arrival_updateBundle (st : State) (data : Option (List UInt8)) :
    (Message.updateBundle r st data).arrival S p = none := rfl

/-- The bundles that are stored and announced when the fragments are to be put together. -/
def made (p : PrimaryBlock) (m : Message) (sbs' : List StoredBundle) (es : List Effect) : List StoredBundleRef :=
  match m with
  | .updateBundle r .defragmentationPending _ =>
    if r.primaryBlock.equalsIgnoringFragmentInfo p then (announced es).filter (· ∈ sbs'.map (·.getRef)) else []
  | _ => []

/-- What a message does to the fragments of one bundle. -/
inductive Gathers (S : Serde) (p : PrimaryBlock) (sbs : List StoredBundle) (m : Message) :
    List StoredBundle → List Effect → Prop
  | arrives (hm : m.arrival S p = some y.bundleData.bytes) (hy : Belongs p y = true) :
    Gathers S p sbs m (sbs ++ [y]) [.eventBundleUpdated y.getRef]
  | keeps (hm : m.arrival S p = none) (hdata : (contents (group p sbs')).Perm (contents (group p sbs)))
    (hmade : made p m sbs' es = []) (hnext : ∀ y ∈ group p sbs, (y ∈ sbs' ∧ m.bundleref ≠ some y.getRef) ∨
      ∃ y' ∈ group p sbs', .eventBundleUpdated y'.getRef ∈ es) : Gathers S p sbs m sbs' es
  | waits (hm : m = .updateBundle r .defragmentationPending data) (hne : group p sbs ≠ []) (hperm : sbs'.Perm sbs)
    (hperm1 : sbs1.Perm sbs)
    (hbundles : List.Forall₂ (fun sb b => tryFrom S sb.bundleData.bytes = .ok b) (group p sbs1) bundles)
    (hcannot : reassembleBundles bundles = .err bundles') : Gathers S p sbs m sbs' []
  | joins {y : StoredBundle} (hm : m = .updateBundle r .defragmentationPending data) (hne : group p sbs ≠ [])
    (hperm1 : sbs1.Perm sbs)
    (hbundles : List.Forall₂ (fun sb b => tryFrom S sb.bundleData.bytes = .ok b) (group p sbs1) bundles)
    (hcan : reassembleBundles bundles = .ok y.bundleData.bytes) (hgone : group p sbs' = [])
    (hmade : made p m sbs' es = [y.getRef]) : Gathers S p sbs m sbs' es

/-! ## Belonging together -/

variable {S : Serde} {endpoint : Endpoint} {p : PrimaryBlock} {sbs sbs' rest : List StoredBundle} {x y : StoredBundle}
  {m : Message} {r : StoredBundleRef} {es : List Effect}
variable {data : Option (List UInt8)}

lemma belongs_iff : Belongs p y = true ↔
    { y.primaryBlock with fragmentOffset := none, totalDataLength := none } =
      { p with fragmentOffset := none, totalDataLength := none } := beq_iff_eq

lemma belongs_congr (h : x.primaryBlock = y.primaryBlock) : Belongs p x = Belongs p y := by
  rw [Belongs, Belongs, h]

/-- What the storage agent collects for an entry of the group is the group. -/
lemma isFragmentOf_eq (hx : Belongs p x = true) (hread : Readable S y.bundleData.bytes)
    (hy : RefOk S endpoint y.getRef) : isFragmentOf S x.primaryBlock y = Belongs p y := by
  obtain ⟨b, hb, -⟩ := hread
  have hpb : b.primaryBlock = y.primaryBlock := hy.decoded b hb
  rw [isFragmentOf, hb, Belongs]
  dsimp only
  rw [hpb, PrimaryBlock.equalsIgnoringFragmentInfo, PrimaryBlock.equalsIgnoringFragmentInfo, belongs_iff.mp hx]

/-- What it collects for another entry has nothing of the group. -/
lemma not_isFragmentOf (hx : Belongs p x = false) (hy : RefOk S endpoint y.getRef)
    (hb : Belongs p y = true) : isFragmentOf S x.primaryBlock y = false := by
  refine eq_false_iff.mpr fun hfragment => ?_
  rw [isFragmentOf] at hfragment
  split at hfragment <;> [skip; cases hfragment]
  rename_i b hdecoded
  have hpb : b.primaryBlock = y.primaryBlock := hy.decoded b hdecoded
  rw [hpb] at hfragment
  have hsame := beq_iff_eq.mp hfragment
  rw [belongs_iff.mpr (hsame.symm.trans (belongs_iff.mp hb))] at hx
  cases hx

lemma group_append (sbs sbs' : List StoredBundle) : group p (sbs ++ sbs') = group p sbs ++ group p sbs' :=
  filter_append ..

lemma group_eq_nil : group p sbs = [] ↔ ∀ y ∈ sbs, Belongs p y = false := by
  simp [group, filter_eq_nil_iff]

lemma contents_perm (h : sbs.Perm sbs') : (contents (group p sbs)).Perm (contents (group p sbs')) :=
  (h.filter _).map _

section

variable (hp : LocalFragment endpoint p) (hfields : Bundle.Consistent p) (hread : Readable S y.bundleData.bytes)
  (hy : RefOk S endpoint y.getRef)

include hp hfields hread hy

lemma localFragment_of_belongs (h : Belongs p y = true) : LocalFragment endpoint y.primaryBlock :=
  localFragment_of_equals hp hfields (consistent_of_readable hread hy) (equalsIgnoringFragmentInfo_symm h)

lemma not_belongs_of_whole (h : y.primaryBlock.fragmentOffset = none) : Belongs p y = false := by
  refine eq_false_iff.mpr fun hb => ?_
  have hsome := (localFragment_of_belongs hp hfields hread hy hb).2
  rw [h] at hsome
  cases hsome

lemma not_belongs_of_remote (h : IsRemote endpoint y.primaryBlock) : Belongs p y = false :=
  eq_false_iff.mpr fun hb => by cases (localFragment_of_belongs hp hfields hread hy hb).1.symm.trans h

end

/-! ## Messages -/

/-- Entries of other bundles come and go. -/
lemma Gathers.elsewhere (gone stay new : List StoredBundle) (hm : m.arrival S p = none)
    (hbefore : sbs.Perm (gone ++ stay)) (hafter : sbs'.Perm (stay ++ new)) (hgone : ∀ x ∈ gone, Belongs p x = false)
    (hnew : ∀ y ∈ new, Belongs p y = false) (hmade : made p m sbs' es = [])
    (hr : ∀ y ∈ group p sbs, m.bundleref ≠ some y.getRef) : Gathers S p sbs m sbs' es := by
  refine .keeps hm ?_ hmade fun y hy => .inl ⟨?_, hr y hy⟩
  · have hcut := contents_perm (p := p) hbefore
    have hjoined := contents_perm (p := p) hafter
    rw [group_append, group_eq_nil.mpr hgone, nil_append] at hcut
    rw [group_append, group_eq_nil.mpr hnew, append_nil] at hjoined
    exact hjoined.trans hcut.symm
  · obtain ⟨hmem, hbelongs⟩ := mem_filter.mp hy
    rcases mem_append.mp (hbefore.mem_iff.mp hmem) with hmem | hmem
    · rw [hgone y hmem] at hbelongs
      cases hbelongs
    · exact hafter.mem_iff.mpr (mem_append_left _ hmem)

lemma bundleref_ne (hr : m.bundleref = some r) (hx : removeFirst r.primaryBlock sbs = some (x, rest))
    (hb : Belongs p x = false) : ∀ y ∈ group p sbs, m.bundleref ≠ some y.getRef := fun y hy heq => by
  cases hr.symm.trans heq
  rw [belongs_congr (removeFirst_primaryBlock hx), (mem_filter.mp hy).2] at hb
  cases hb

lemma made_eq_nil (hx : removeFirst r.primaryBlock sbs = some (x, rest))
    (hb : Belongs p x = false) : made p (.updateBundle r .defragmentationPending data) sbs' es = [] := by
  rw [Belongs, removeFirst_primaryBlock hx] at hb
  rw [made, hb]
  rfl

lemma made_announce (hx : removeFirst r.primaryBlock sbs = some (x, rest)) (hb : Belongs p x = true) (hy : y ∈ sbs')
    (fragments : List StoredBundle) :
    made p (.updateBundle r .defragmentationPending data) sbs'
      (announce y ++ fragments.map fun sb => .deleteBundleFile sb.getFilename) = [y.getRef] := by
  rw [Belongs, removeFirst_primaryBlock hx] at hb
  have hannounced : announced (announce y ++ fragments.map fun sb => .deleteBundleFile sb.getFilename) = [y.getRef] :=
    announced_announce [y] fragments
  rw [made, if_pos hb, hannounced]
  exact filter_cons_of_pos (decide_eq_true (mem_map_of_mem hy))

/-- Of a fragment for this node the storage agent is asked only to make it valid and to put it together. -/
lemma asked_of_localFragment (hr : m.bundleref = some r) (hok : RefOk S endpoint r ∧ m.Ok S endpoint r)
    (hl : LocalFragment endpoint r.primaryBlock) :
    m = .updateBundle r .valid none ∨ ∃ data, m = .updateBundle r .defragmentationPending data := by
  obtain ⟨href, hok⟩ := hok
  have hforwarding (h : r.state = .forwardingQueued) : False := by
    cases hl.1.symm.trans (href.forwardingQueued h)
  have hwhole (h : r.primaryBlock.fragmentOffset = none) : False := by
    have hsome := hl.2
    rw [h] at hsome
    cases hsome
  cases m with
  | storeReceivedBundle | storeNewBundle => cases hr
  | fragmentBundle => exact (hforwarding (by cases hr; exact hok.2.1)).elim
  | updateBundle _ st data =>
    cases hr
    obtain ⟨-, hok⟩ := hok
    cases st with
    | valid => exact .inl (by rw [hok.2])
    | defragmentationPending => exact .inr ⟨data, rfl⟩
    | deliveryQueued => exact (hwhole hok.2.2.1).elim
    | forwardingQueued | invalid => cases hl.1.symm.trans hok.2.1
    | delivered => exact (hwhole (href.deliveryQueued hok).2).elim
    | forwarded => exact (hforwarding hok).elim
    | received => exact hok.elim

section

variable (hp : LocalFragment endpoint p) (hfields : Bundle.Consistent p)
  (hm : ∀ r, m.bundleref = some r → RefOk S endpoint r ∧ m.Ok S endpoint r)
  (hread : ∀ y ∈ sbs, Readable S y.bundleData.bytes) (hentries : ∀ y ∈ sbs, RefOk S endpoint y.getRef)

include hp hfields hm hread hentries

lemma asked_of_belongs (hr : m.bundleref = some r) (hx : removeFirst r.primaryBlock sbs = some (x, rest))
    (hb : Belongs p x = true) :
    m = .updateBundle r .valid none ∨ ∃ data, m = .updateBundle r .defragmentationPending data := by
  obtain ⟨hmem, -⟩ := removeFirst_mem hx
  refine asked_of_localFragment hr (hm r hr) ?_
  rw [← removeFirst_primaryBlock hx]
  exact localFragment_of_belongs hp hfields (hread x hmem) (hentries x hmem) hb

omit hm in
lemma gathers_changed (hm : ∀ r', (Message.updateBundle r st data).bundleref = some r' →
      RefOk S endpoint r' ∧ (Message.updateBundle r st data).Ok S endpoint r')
    (hx : removeFirst r.primaryBlock sbs = some (x, rest)) (hst : st.Queued)
    (hy : y = { x with state := st, bundleData := data.elim x.bundleData (⟨address, ·⟩) })
    (hes : .eventBundleUpdated y.getRef ∈ es) : Gathers S p sbs (.updateBundle r st data) (rest ++ [y]) es := by
  have hsame : Belongs p y = Belongs p x := belongs_congr (by rw [hy])
  by_cases hb : Belongs p x = true
  · rcases asked_of_belongs hp hfields hm hread hentries rfl hx hb with h | ⟨data', h⟩
    · cases h
      have hdata : y.bundleData = x.bundleData := by rw [hy]; rfl
      refine .keeps rfl ?_ rfl fun _ _ =>
        .inr ⟨y, mem_filter.mpr ⟨by simp, hsame.trans hb⟩, hes⟩
      refine .trans (.of_eq ?_) (contents_perm (removeFirst_perm_append hx).symm)
      simp only [group, contents, filter_append, filter_singleton, hsame, hb, cond_true, map_append,
        map_cons, map_nil, hdata]
    · cases h
      rcases hst with h | h | h <;> cases h
  · have hb := eq_false_iff.mpr hb
    refine .elsewhere [x] rest [y] rfl (removeFirst_perm hx) (.refl _) (forall_mem_singleton.mpr hb)
      (forall_mem_singleton.mpr (hsame.trans hb)) ?_ (bundleref_ne rfl hx hb)
    rcases hst with rfl | rfl | rfl <;> rfl

omit hm in
lemma not_belongs_of_cut (hm : ∀ r', (Message.fragmentBundle r n).bundleref = some r' →
      RefOk S endpoint r' ∧ (Message.fragmentBundle r n).Ok S endpoint r')
    (hx : removeFirst r.primaryBlock sbs = some (x, rest)) : Belongs p x = false :=
  eq_false_iff.mpr fun hb => by
    rcases asked_of_belongs hp hfields hm hread hentries rfl hx hb with h | ⟨data, h⟩ <;> cases h

end

/-- What the storage agent collects, when it looks for the fragments that belong to an entry of the group. -/
lemma filter_isFragmentOf (hread : ∀ y ∈ sbs, Readable S y.bundleData.bytes)
    (hentries : ∀ y ∈ sbs, RefOk S endpoint y.getRef) (hb : Belongs p x = true) :
    sbs.filter (isFragmentOf S x.primaryBlock) = group p sbs :=
  filter_congr fun y hy => isFragmentOf_eq hb (hread y hy) (hentries y hy)

lemma gathers_received (hy : ∃ b, y.Describes S b) (hdata : y.bundleData.bytes = bs) :
    Gathers S p sbs (.storeReceivedBundle bs) (sbs ++ [y]) [.eventBundleUpdated y.getRef] := by
  obtain ⟨_, hb⟩ := hy
  have hpart : isPart S p bs = Belongs p y := by
    rw [isPart, ← hdata, hb.decoded, Belongs, hb.primaryBlock]
  by_cases hbelongs : Belongs p y = true
  · refine .arrives ?_ hbelongs
    rw [Message.arrival, hpart, if_pos hbelongs, hdata]
  · have hnone : (Message.storeReceivedBundle bs).arrival S p = none := by
      rw [Message.arrival, hpart, if_neg hbelongs]
    exact .elsewhere [] sbs [y] hnone (.refl _) (.refl _) (forall_mem_nil _)
      (forall_mem_singleton.mpr (eq_false_iff.mpr hbelongs)) rfl fun _ _ => by rintro ⟨⟩

lemma gathers_missing (hr : m.bundleref = some r) (hx : removeFirst r.primaryBlock sbs = none) :
    Gathers S p sbs m sbs [] := by
  refine .elsewhere [] sbs [] ?_ (.refl _) (by rw [append_nil])
    (forall_mem_nil _) (forall_mem_nil _) ?_ fun y hy heq => ?_
  · cases m <;> first | rfl | cases hr
  · unfold made
    split
    · split <;> rfl
    · rfl
  · cases hr.symm.trans heq
    exact removeFirst_eq_none hx y (mem_of_mem_filter hy) rfl

section

variable {data : Option (List UInt8)} {bundles bundles' : List Bundle}
  (hread : ∀ y ∈ sbs, Readable S y.bundleData.bytes) (hentries : ∀ y ∈ sbs, RefOk S endpoint y.getRef)
  (hx : removeFirst r.primaryBlock sbs = some (x, rest))
  (hbundles : List.Forall₂ (fun sb b => tryFrom S sb.bundleData.bytes = .ok b)
    ((rest ++ [x]).filter (isFragmentOf S x.primaryBlock)) bundles)

include hread hentries hx hbundles

/-- The fragments that there are do not make a whole bundle. -/
lemma gathers_waiting (hcannot : reassembleBundles bundles = .err bundles') :
    Gathers S p sbs (.updateBundle r .defragmentationPending data)
      ((rest ++ [x]).filter (!isFragmentOf S x.primaryBlock ·) ++
        (rest ++ [x]).filter (isFragmentOf S x.primaryBlock)) [] := by
  have hperm1 := (removeFirst_perm_append hx).symm
  have hperm := perm_append_comm.trans
    ((filter_append_perm (isFragmentOf S x.primaryBlock) (rest ++ [x])).trans hperm1)
  by_cases hb : Belongs p x = true
  · rw [filter_isFragmentOf (fun y hy => hread y (hperm1.mem_iff.mp hy))
      (fun y hy => hentries y (hperm1.mem_iff.mp hy)) hb] at hbundles
    have hne : group p sbs ≠ [] := ne_nil_of_mem (mem_filter.mpr ⟨(removeFirst_mem hx).1, hb⟩)
    exact .waits rfl hne hperm hperm1 hbundles hcannot
  · have hb := eq_false_iff.mpr hb
    exact .elsewhere [] sbs [] rfl (.refl _) (by rw [append_nil]; exact hperm) (forall_mem_nil _)
      (forall_mem_nil _) (made_eq_nil hx hb) (bundleref_ne rfl hx hb)

/-- The fragments are replaced by the bundle they make, which is none of them. -/
lemma gathers_reassembled (hcan : reassembleBundles bundles = .ok y.bundleData.bytes)
    (hby : Belongs p y = false) : Gathers S p sbs (.updateBundle r .defragmentationPending data)
      ((rest ++ [x]).filter (!isFragmentOf S x.primaryBlock ·) ++ [y])
      (announce y ++ ((rest ++ [x]).filter (isFragmentOf S x.primaryBlock)).map fun sb =>
        .deleteBundleFile sb.getFilename) := by
  have hperm1 := (removeFirst_perm_append hx).symm
  have hread1 : ∀ z ∈ rest ++ [x], Readable S z.bundleData.bytes := fun z hz => hread z (hperm1.mem_iff.mp hz)
  have hentries1 : ∀ z ∈ rest ++ [x], RefOk S endpoint z.getRef := fun z hz => hentries z (hperm1.mem_iff.mp hz)
  by_cases hb : Belongs p x = true
  · rw [filter_isFragmentOf hread1 hentries1 hb] at hbundles
    have hne : group p sbs ≠ [] := ne_nil_of_mem (mem_filter.mpr ⟨(removeFirst_mem hx).1, hb⟩)
    refine .joins rfl hne hperm1 hbundles hcan
      (group_eq_nil.mpr (forall_mem_append.mpr ⟨fun z hz => ?_, forall_mem_singleton.mpr hby⟩))
      (made_announce hx hb (mem_append_right _ mem_cons_self) _)
    obtain ⟨hz, hnot⟩ := mem_filter.mp hz
    rw [isFragmentOf_eq hb (hread1 z hz) (hentries1 z hz)] at hnot
    simpa using hnot
  · have hb := eq_false_iff.mpr hb
    refine .elsewhere ((rest ++ [x]).filter (isFragmentOf S x.primaryBlock)) _ [y] rfl
      (hperm1.symm.trans (filter_append_perm ..).symm) (.refl _) (fun z hz => ?_)
      (forall_mem_singleton.mpr hby) (made_eq_nil hx hb) (bundleref_ne rfl hx hb)
    obtain ⟨hz, hfragment⟩ := mem_filter.mp hz
    refine eq_false_iff.mpr fun hbz => ?_
    rw [not_isFragmentOf hb (hentries1 z hz) hbz] at hfragment
    cases hfragment

end

lemma gathers_of_change (h : Change S sbs m sbs' es) (hp : LocalFragment endpoint p) (hfields : Bundle.Consistent p)
    (hm : ∀ r, m.bundleref = some r → RefOk S endpoint r ∧ m.Ok S endpoint r) (hbrings : m.Brings S)
    (hfit : ∀ y ∈ sbs', FitsInMemory y.bundleData.bytes) (hread : ∀ y ∈ sbs, Readable S y.bundleData.bytes)
    (hentries : ∀ y ∈ sbs, RefOk S endpoint y.getRef) : Gathers S p sbs m sbs' es := by
  have hread' := readable_of_change h hbrings hfit hread
  have hentries' := refOk_of_change h hm hfit hentries
  cases h with
  | received hy hdata => exact gathers_received hy hdata
  | @created _ _ _ y hb hnone hdata hy =>
    obtain ⟨b', hb', ho⟩ := hbrings
    cases hb.symm.trans hb'
    have hmem : y ∈ sbs ++ [y] := by simp
    have hwhole := created_whole ho hnone hdata hy (hfit y hmem)
    exact .elsewhere [] sbs [y] rfl (.refl _) (.refl _) (forall_mem_nil _)
      (forall_mem_singleton.mpr (not_belongs_of_whole hp hfields (hread' y hmem) (hentries' y hmem) hwhole)) rfl
      fun _ _ => nofun
  | missing hr hx => exact gathers_missing hr hx
  | changed => grind [gathers_changed]
  | @finished _ _ _ _ x hx hst =>
    have hb : Belongs p x = false := eq_false_iff.mpr fun hb => by
      rcases asked_of_belongs hp hfields hm hread hentries rfl hx hb with h | ⟨data', h⟩ <;> cases h <;>
        rcases hst with h | h | h <;> cases h
    refine .elsewhere [x] sbs' [] rfl (removeFirst_perm hx) (by rw [append_nil])
      (forall_mem_singleton.mpr hb) (forall_mem_nil _) ?_ (bundleref_ne rfl hx hb)
    rcases hst with rfl | rfl | rfl <;> rfl
  | waiting hx _ hbundles hcannot => exact gathers_waiting hread hentries hx hbundles hcannot
  | @reassembled rest _ _ x y _ _ hx _ hbundles hcan hdata hy =>
    have ho := orderly_of_forall₂ hbundles fun z hz =>
      hread z ((removeFirst_perm_append hx).mem_iff.mpr (mem_of_mem_filter hz))
    have hmem : y ∈ (rest ++ [x]).filter (!isFragmentOf S x.primaryBlock ·) ++ [y] := by simp
    exact gathers_reassembled hread hentries hx hbundles (hdata ▸ hcan)
      (not_belongs_of_whole hp hfields (hread' y hmem) (hentries' y hmem)
        (reassembled_whole ho (hdata ▸ hcan) hy (hfit y hmem)))
  | @tooSmall rest _ _ _ x _ hx =>
    have hb := not_belongs_of_cut hp hfields hread hentries hm hx
    exact .elsewhere [x] rest _ rfl (removeFirst_perm hx) (.refl _) (forall_mem_singleton.mpr hb)
      (forall_mem_singleton.mpr hb) rfl (bundleref_ne rfl hx hb)
  | @fragmented rest ys r _ x b _ _ hx hb hfs _ hys =>
    have hbx := not_belongs_of_cut hp hfields hread hentries hm hx
    refine .elsewhere [x] rest ys rfl (removeFirst_perm hx) (.refl _) (forall_mem_singleton.mpr hbx)
      (fun y hy => ?_) rfl (bundleref_ne rfl hx hbx)
    -- a bundle that is cut is for another node, and so are its fragments
    have hmem : y ∈ rest ++ ys := mem_append_right _ hy
    obtain ⟨hr, -, hst, -⟩ := hm r rfl
    obtain ⟨_, hf, hholds⟩ := forall₂_mem' hys hy
    obtain ⟨_, hb', ho⟩ := hread x (removeFirst_mem hx).1
    cases hb.symm.trans hb'
    have hpb : b.primaryBlock = x.primaryBlock := (hentries x (removeFirst_mem hx).1).decoded b hb
    refine not_belongs_of_remote hp hfields (hread' y hmem) (hentries' y hmem) ?_
    rw [IsRemote, fragmented_destination ho hfs hf hholds (hfit y hmem), hpb, removeFirst_primaryBlock hx]
    exact hr.forwardingQueued hst

end Dtn.Dtrd.Storage
