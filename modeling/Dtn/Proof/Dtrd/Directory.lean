import Dtn.Impl.Dtrd.Directory
import Dtn.Proof.Bp7.Endpoints
import Dtn.Proof.Dtrd.Sizes

/-!
# The files of the stored bundles

`Turnover` says what a message does to the entries and to the files: which
entries leave and have their files deleted, which come and are written, and
what is written of those that stay. From it come the two results on whole runs:
every file can be loaded again (`files_load`), and the files are those of the
bundles that have been valid (`files_agree`), as long as no two bundles agree in
all the parts that a file name is made of (`getFilename_eq_iff`).
-/

namespace Dtn.Dtrd.Storage

open List Outcome Dtn.Bp7 Effect StoredBundle Daemon Table

variable {S : Serde}
variable {x y : StoredBundle} {es : List Effect} {sbs sbs' : List StoredBundle} {data : List UInt8} {s s' : Disk}

/-- What is written for an entry. -/
def file (sb : StoredBundle) : String × List UInt8 := (sb.getFilename, sb.bundleData.bytes)

lemma getFilename_congr (hpb : y.primaryBlock = x.primaryBlock) (hsize : y.size = x.size) :
    y.getFilename = x.getFilename := by grind [getFilename, getId]

/-! ## Names -/

/-- `replace('/', "_")`. -/
def replaceSlash (cs : List Char) : List Char := cs.map fun c => if c = '/' then '_' else c

/-- What the name of a file is made of: the source as it is written there, the creation time, the sequence number, the
offset or 0, and the size. -/
def nameParts (sb : StoredBundle) : List Char × UInt64 × UInt64 × UInt64 × UInt64 :=
  (replaceSlash sb.primaryBlock.sourceNode.display.toList,
    sb.primaryBlock.creationTimestamp.creationTime.timestamp, sb.primaryBlock.creationTimestamp.sequenceNumber,
    sb.primaryBlock.fragmentOffset.getD 0, sb.size)

lemma not_mem_toString (hc : c.isDigit = false) (n : UInt64) : c ∉ (toString n).toList := fun h =>
  Bool.false_ne_true (hc.symm.trans (isDigit_of_mem_toString h))

lemma replaceSlash_toString (n : UInt64) : replaceSlash (toString n).toList = (toString n).toList := by
  conv_rhs => rw [← map_id (toString n).toList]
  refine map_congr_left fun c hc => if_neg ?_
  rintro rfl
  exact not_mem_toString rfl n hc

lemma toList_toString_inj {n k : UInt64} : (toString n).toList = (toString k).toList ↔ n = k := by
  rw [toList_toString, toList_toString]
  refine ⟨fun h => UInt64.toNat_inj.mp ?_, by rintro rfl; rfl⟩
  have hparsed := congrArg parseDigits h
  rw [parseDigits_toDigits, parseDigits_toDigits] at hparsed
  exact Option.some.inj hparsed

lemma toList_getFilename (sb : StoredBundle) : sb.getFilename.toList =
    (((replaceSlash sb.primaryBlock.sourceNode.display.toList ++
      ':' :: (toString sb.primaryBlock.creationTimestamp.creationTime.timestamp).toList) ++
      ':' :: (toString sb.primaryBlock.creationTimestamp.sequenceNumber).toList) ++
      ':' :: (toString (sb.primaryBlock.fragmentOffset.getD 0)).toList) ++ ':' :: (toString sb.size).toList := by
  have hcolon : replaceSlash ":".toList = [':'] := rfl
  have happend (as cs : List Char) : replaceSlash (as ++ cs) = replaceSlash as ++ replaceSlash cs := map_append
  rw [getFilename, String.toList_ofList]
  change replaceSlash sb.getId.toList = _
  simp only [getId, idFromPb, String.toList_append, happend, hcolon, replaceSlash_toString, append_assoc,
    cons_append, nil_append]

/-- Two bundles have the same file name if and only if these parts are the same. -/
lemma getFilename_eq_iff : x.getFilename = y.getFilename ↔ nameParts x = nameParts y := by
  have hcolon (n : UInt64) : ':' ∉ (toString n).toList := not_mem_toString rfl n
  rw [← String.toList_inj, toList_getFilename, toList_getFilename]
  simp only [append_cons_inj (hcolon _) (hcolon _), toList_toString_inj, nameParts, Prod.mk.injEq, and_assoc]

/-! ## Messages -/

/-- `y` is the entry `x` after a message that left it in the store. -/
structure Stays (S : Serde) (es : List Effect) (x y : StoredBundle) : Prop where
  primaryBlock : y.primaryBlock = x.primaryBlock
  size : y.size = x.size
  received : y.state = .received → x.state = .received ∧ ∀ b, x.Describes S b → y.Describes S b
  valid : y.state = .valid → x.state = .valid ∨ file x ∈ es.filterMap write

lemma Stays.name (h : Stays S es x y) : y.getFilename = x.getFilename :=
  getFilename_congr h.primaryBlock h.size

lemma Stays.refl (es : List Effect) (x : StoredBundle) : Stays S es x x :=
  ⟨rfl, rfl, fun h => ⟨h, fun _ h => h⟩, .inl⟩

/-- A message that is to make an entry valid finds one that is new, or valid already. -/
def FirstValid (sbs : List StoredBundle) : Message → Prop
  | .updateBundle r .valid _ => ∀ x rest, removeFirst r.primaryBlock sbs = some (x, rest) →
    x.state = .received ∨ x.state = .valid
  | _ => True

/-- The entries that leave, those that stay, with what becomes of them, and those that come. -/
structure Turnover (S : Serde) (sbs : List StoredBundle) (m : Message) (sbs' : List StoredBundle) (es : List Effect)
    (gone stay stay' new : List StoredBundle) : Prop where
  before : sbs.Perm (gone ++ stay)
  after : sbs'.Perm (stay' ++ new)
  stays : List.Forall₂ (Stays S es) stay stay'
  deleted : es.filterMap delete = gone.map (·.getFilename)
  describes : ∀ y ∈ new, ∃ b, y.Describes S b
  added : ∀ y ∈ new, y.state = .valid ∧ file y ∈ es.filterMap write ∨ y.state = .received ∧ gone = []
  written : ∀ f ∈ es.filterMap write, (∃ y ∈ new, y.state = .valid ∧ f = file y) ∨
    ∃ x ∈ stay, f = file x ∧ (FirstValid sbs m → x.state = .received) ∧ ∃ y ∈ stay', y.state = .valid ∧ Stays S es x y

lemma forall₂_stays (es : List Effect) (sbs : List StoredBundle) : List.Forall₂ (Stays S es) sbs sbs := by
  induction sbs with
  | nil => exact .nil
  | cons x _ ih => exact .cons (.refl es x) ih

lemma writes_announce (ys : List StoredBundle) : (ys.flatMap announce).filterMap write = ys.map file := by
  rw [filterMap_flatMap]
  exact flatMap_pure_eq_map file ys

lemma deletes_announce (ys : List StoredBundle) : (ys.flatMap announce).filterMap delete = [] := by
  rw [filterMap_flatMap]
  exact flatMap_eq_nil_iff.mpr fun _ _ => rfl

lemma writes_deleted (sbs : List StoredBundle) :
    (sbs.map fun sb => deleteBundleFile sb.getFilename).filterMap write = [] := by
  rw [filterMap_map]
  exact filterMap_eq_nil_iff.mpr fun _ _ => rfl

lemma deletes_deleted (sbs : List StoredBundle) :
    (sbs.map fun sb => deleteBundleFile sb.getFilename).filterMap delete = sbs.map (·.getFilename) := by
  rw [filterMap_map]
  exact congrFun filterMap_eq_map sbs

/-- A message that only changes the entry it finds, or moves entries, and writes and deletes nothing. -/
lemma Turnover.quiet (before : sbs.Perm stay) (after : sbs'.Perm stay') (stays : List.Forall₂ (Stays S es) stay stay')
    (hwrite : es.filterMap write = []) (hdelete : es.filterMap delete = []) :
    Turnover S sbs m sbs' es [] stay stay' [] where
  before := before
  after := by rw [append_nil]; exact after
  stays := stays
  deleted := hdelete
  describes := forall_mem_nil _
  added := forall_mem_nil _
  written := by rw [hwrite]; exact forall_mem_nil _

/-- A new entry is stored behind the others, and is not written yet. -/
lemma Turnover.received (hy : ∃ b, y.Describes S b) (hstate : y.state = .received) :
    Turnover S sbs m (sbs ++ [y]) [.eventBundleUpdated y.getRef] [] sbs sbs [y] where
  before := .refl _
  after := .refl _
  stays := forall₂_stays ..
  deleted := rfl
  describes := forall_mem_singleton.mpr hy
  added := forall_mem_singleton.mpr (.inr ⟨hstate, rfl⟩)
  written := forall_mem_nil _

/-- Some entries are replaced by new ones, which are valid and written. -/
lemma Turnover.replaced (before : sbs.Perm (gone ++ stay))
    (hy : ∀ y ∈ ys, (∃ b, y.Describes S b) ∧ y.state = .valid) :
    Turnover S sbs m (stay ++ ys)
      (ys.flatMap announce ++ gone.map fun sb => .deleteBundleFile sb.getFilename) gone stay stay ys := by
  have hwrites : (ys.flatMap announce ++
      gone.map fun sb => deleteBundleFile sb.getFilename).filterMap write = ys.map file := by
    rw [filterMap_append, writes_announce, writes_deleted, append_nil]
  refine ⟨before, .refl _, forall₂_stays .., ?_, fun y h => (hy y h).1, fun y h => ?_, fun f hf => ?_⟩
  · rw [filterMap_append, deletes_announce, deletes_deleted, nil_append]
  · grind
  · grind

/-- The entry that is found goes on in another state. Only on its way to `Valid` it is written. -/
lemma Turnover.changed {data : Option (List UInt8)} (hx : removeFirst r.primaryBlock sbs = some (x, rest))
    (hst : st.Queued)
    (hy : y = { x with state := st, bundleData := data.elim x.bundleData (⟨address, ·⟩) }) :
    Turnover S sbs (.updateBundle r st data) (rest ++ [y])
      (if st = .valid ∧ x.state ≠ .valid then [.writeBundleToFile x.getFilename x.bundleData.bytes,
        .eventBundleUpdated y.getRef] else [.eventBundleUpdated y.getRef]) [] (x :: rest) (y :: rest) [] := by
  have hstate : y.state ≠ .received := by rw [hy]; rintro rfl; simp [State.Queued] at hst
  have hafter : (rest ++ [y]).Perm (y :: rest ++ []) := by rw [append_nil]; exact perm_append_comm
  by_cases hwrite : st = .valid ∧ x.state ≠ .valid
  · rw [if_pos hwrite]
    obtain ⟨rfl, hvalid⟩ := hwrite
    have hstays : Stays S [.writeBundleToFile x.getFilename x.bundleData.bytes, .eventBundleUpdated y.getRef] x y :=
      ⟨by rw [hy], by rw [hy], fun h => absurd h hstate, fun _ => .inr mem_cons_self⟩
    refine ⟨removeFirst_perm hx, hafter, .cons hstays (forall₂_stays ..), rfl,
      forall_mem_nil _, forall_mem_nil _,
      fun f hf => ?_⟩
    obtain rfl := mem_singleton.mp hf
    exact .inr ⟨x, mem_cons_self, rfl, fun h => (h x rest hx).resolve_right hvalid, y, mem_cons_self,
      by rw [hy], hstays⟩
  · rw [if_neg hwrite]
    refine .quiet (removeFirst_perm hx) perm_append_comm (.cons ?_ (forall₂_stays ..)) rfl rfl
    refine ⟨by rw [hy], by rw [hy], fun h => absurd h hstate, fun h => .inl ?_⟩
    rw [hy] at h
    exact Decidable.of_not_not fun hx => hwrite ⟨h, hx⟩

lemma turnover_of_change
    (h : Change S sbs m sbs' es) : ∃ gone stay stay' new, Turnover S sbs m sbs' es gone stay stay' new := by
  cases h with
  | received hy _ hstate | created _ _ _ hy hstate => exact ⟨_, _, _, _, .received hy hstate⟩
  | missing => exact ⟨_, _, _, _, .quiet (.refl _) (.refl _) (forall₂_stays ..) rfl rfl⟩
  | changed hx hst hy => exact ⟨_, _, _, _, .changed hx hst hy⟩
  | @finished _ r st data x hx =>
    have h := @Turnover.replaced S sbs [x] _ [] (.updateBundle r st data) (removeFirst_perm hx) (forall_mem_nil _)
    rw [append_nil] at h
    exact ⟨_, _, _, _, h⟩
  | waiting hx =>
    refine ⟨_, _, _, _, .quiet (.refl _) ?_ (forall₂_stays ..) rfl rfl⟩
    exact perm_append_comm.trans ((filter_append_perm ..).trans (removeFirst_perm_append hx).symm)
  | @reassembled _ _ _ x _ _ _ hx _ _ _ _ hy hstate =>
    have hperm := (removeFirst_perm_append hx).trans (filter_append_perm (isFragmentOf S x.primaryBlock) _).symm
    exact ⟨_, _, _, _, .replaced hperm (forall_mem_singleton.mpr ⟨hy, hstate⟩)⟩
  | @tooSmall _ _ _ _ _ b hx =>
    refine ⟨_, _, _, _, .quiet (removeFirst_perm hx) perm_append_comm (.cons ?_ (forall₂_stays ..)) rfl rfl⟩
    exact ⟨rfl, rfl, fun h => ⟨h, fun b hb => ⟨hb.decoded, hb.primaryBlock, hb.size, hb.payloadSize⟩⟩, .inl⟩
  | @fragmented rest ys _ _ x _ _ _ hx _ _ _ hys =>
    refine ⟨_, _, _, _, @Turnover.replaced S sbs [x] rest ys _ (removeFirst_perm hx) fun y hy => ?_⟩
    obtain ⟨_, -, hf⟩ := forall₂_mem' hys hy
    exact ⟨hf.describes, hf.state⟩

/-! ## Files that can be loaded -/

/-- `data` is the data of the bundle in this entry, perhaps from before it was changed for forwarding. -/
def Saves (S : Serde) (x : StoredBundle) (data : List UInt8) : Prop :=
  ∀ address, ∃ sb, (ofVec S address data : Outcome Empty StoredBundle) = .ok sb ∧
    sb.primaryBlock = x.primaryBlock ∧ sb.size = x.size

/-- The startup loader takes this file. -/
def Loadable (S : Serde) (f : String × List UInt8) : Prop :=
  ∀ address, ∃ sb, (ofVec S address f.2 : Outcome Empty StoredBundle) = .ok sb ∧ sb.getFilename = f.1

lemma saves_of_describes (h : ∃ b, x.Describes S b) : Saves S x x.bundleData.bytes := by
  obtain ⟨_, hb⟩ := h
  obtain ⟨_, hp, -⟩ := hb.payloadSize
  intro address
  rw [ofVec, hb.decoded, unwrap_ok, ok_bind, hp, ok_bind]
  exact ⟨_, rfl, hb.primaryBlock.symm, hb.size.symm⟩

lemma Saves.loadable (h : Saves S x data) : Loadable S (x.getFilename, data) :=
  fun address => by
    obtain ⟨sb, hsb, hpb, hsize⟩ := h address
    exact ⟨sb, hsb, getFilename_congr hpb hsize⟩

lemma Saves.congr (h : Saves S x data) (hpb : y.primaryBlock = x.primaryBlock)
    (hsize : y.size = x.size) : Saves S y data := by
  unfold Saves
  rw [hpb, hsize]
  exact h

lemma load_of_loadable (h : ∀ f ∈ files, Loadable S f) (address : Nat) :
    ∃ sbs, load S address files = .ok sbs ∧ ∀ f ∈ files, ∃ a sb,
      (ofVec S a f.2 : Outcome Empty StoredBundle) = .ok sb ∧ { sb with state := .valid } ∈ sbs := by
  induction files generalizing address with
  | nil => exact ⟨[], rfl, forall_mem_nil _⟩
  | cons f _ ih =>
    obtain ⟨sb, hsb, _⟩ := h f mem_cons_self address
    obtain ⟨sbs, _, _⟩ := ih (fun f hf => h f (mem_cons_of_mem _ hf)) (address + 1)
    refine ⟨{ sb with state := .valid } :: sbs, ?_, forall_mem_cons.mpr ⟨?_, fun f hf => ?_⟩⟩
    · grind [load]
    · exact ⟨address, sb, hsb, mem_cons_self⟩
    · grind

lemma Disk.message_eq_ok (h : s.message S m = .ok s') :
    ∃ es, Change S s.daemon.bundles m s'.daemon.bundles es ∧ s'.files = s.files ∧
      s'.writes = es.filterMap Effect.write ∧ s'.deletes = s.deletes ++ es.filterMap Effect.delete ∧
      s'.everValid = Disk.validNames s.everValid s'.daemon.bundles := by
  obtain ⟨⟨_, es⟩, hd, h⟩ := bind_eq_ok.mp h
  cases h
  exact ⟨es, handle_change hd, rfl, rfl, rfl, rfl⟩

/-- The events that can happen in a state. -/
inductive Disk.Step (S : Serde) : Disk → DiskEvent → Disk → Prop
  | message {s s' : Disk} {m : Message} (hw : s.writes = []) (h : s.message S m = .ok s') : Step S s (.message m) s'
  | write {s : Disk} {name : String} {data : List UInt8} (h : (name, data) ∈ s.writes) :
    Step S s (.write name data) (s.write name data)
  | delete {s : Disk} {name : String} (h : name ∈ s.deletes) : Step S s (.delete name) (s.delete name)

lemma Disk.next_step (h : s.next S e = some s') : Disk.Step S s e s' := by
  cases e with
  | message =>
    rw [next] at h
    split at h <;> [skip; cases h]
    split at h <;> cases h
    exact .message ‹_› ‹_›
  | write =>
    rw [next] at h
    split at h <;> cases h
    exact .write ‹_›
  | delete =>
    rw [next] at h
    split at h <;> cases h
    exact .delete ‹_›

lemma Disk.reaches_run (hs : (directory S).Reaches (fun _ _ => True) s)
    (h : foldlM (Disk.next S) s events = some s') : (directory S).Reaches (fun _ _ => True) s' :=
  hs.foldlM (fun _ _ _ h => ⟨trivial, h⟩) h

/-- Everything that is on disk, or will be, can be loaded. -/
structure Clean (S : Serde) (s : Disk) : Prop where
  received : ∀ sb ∈ s.daemon.bundles, sb.state = .received → ∃ b, sb.Describes S b
  files : ∀ f ∈ s.files.entries, Loadable S f
  writes : ∀ f ∈ s.writes, Loadable S f

/-- What an event must be like: a message meets `FirstValid`. -/
def FirstValidEvent (s : Disk) : DiskEvent → Prop
  | .message m => FirstValid s.daemon.bundles m
  | _ => True

variable {sbs sbs' gone stay stay' new : List StoredBundle} {m : Message} {es : List Effect}

/-- Entries that were not handled yet have the data that they were made of. -/
lemma Turnover.received_describes (h : Turnover S sbs m sbs' es gone stay stay' new)
    (hi : ∀ sb ∈ sbs, sb.state = .received → ∃ b, sb.Describes S b) :
    ∀ sb ∈ sbs', sb.state = .received → ∃ b, sb.Describes S b := by
  intro y hy hstate
  rcases mem_append.mp (h.after.mem_iff.mp hy) with hy | hy
  · obtain ⟨x, hx, hxy⟩ := forall₂_mem' h.stays hy
    obtain ⟨hreceived, hdescribes⟩ := hxy.received hstate
    obtain ⟨b, hb⟩ := hi x (h.before.mem_iff.mpr (mem_append_right _ hx)) hreceived
    exact ⟨b, hdescribes b hb⟩
  · exact h.describes y hy

/-- What is written for an entry saves it. -/
lemma Turnover.written_saves (h : Turnover S sbs m sbs' es gone stay stay' new)
    (hi : ∀ sb ∈ sbs, sb.state = .received → ∃ b, sb.Describes S b) (hm : FirstValid sbs m)
    (hf : f ∈ es.filterMap write) : ∃ y ∈ sbs', y.state = .valid ∧ f.1 = y.getFilename ∧ Saves S y f.2 := by
  rcases h.written f hf with ⟨y, hy, hstate, rfl⟩ | ⟨x, hx, rfl, hfirst, y, hy, hstate, hxy⟩
  · exact ⟨y, h.after.mem_iff.mpr (mem_append_right _ hy), hstate, rfl, saves_of_describes (h.describes y hy)⟩
  · have hmem := h.before.mem_iff.mpr (mem_append_right gone hx)
    have hsaves := saves_of_describes (hi x hmem (hfirst hm))
    exact ⟨y, h.after.mem_iff.mpr (mem_append_left _ hy), hstate, hxy.name.symm,
      hsaves.congr hxy.primaryBlock hxy.size⟩

lemma Clean.message (hi : Clean S s) (hm : FirstValid s.daemon.bundles m)
    (h : s.message S m = .ok s') : Clean S s' := by
  obtain ⟨_, hchange, hfiles, hwrites, -, -⟩ := Disk.message_eq_ok h
  obtain ⟨_, _, _, _, ht⟩ := turnover_of_change hchange
  refine ⟨ht.received_describes hi.received, by rw [hfiles]; exact hi.files, fun f hf => ?_⟩
  rw [hwrites] at hf
  obtain ⟨_, -, -, hname, hsaves⟩ := ht.written_saves hi.received hm hf
  have := hsaves.loadable
  rwa [← hname] at this

lemma Clean.step (hi : Clean S s) (he : FirstValidEvent s e) (h : s.next S e = some s') : Clean S s' := by
  cases Disk.next_step h with
  | message _ hm => exact hi.message he hm
  | write hwrite =>
    refine ⟨hi.received, fun f hf => ?_, fun f hf => hi.writes f (mem_of_mem_erase hf)⟩
    rcases mem_insert hf with rfl | hf
    · exact hi.writes _ hwrite
    · exact hi.files f hf
  | delete => exact ⟨hi.received, fun f hf => hi.files f (mem_remove.mp hf).1, hi.writes⟩

/-- In every state reached, every file decodes to a bundle that has the file's name, and the loader takes them all. -/
theorem files_load {s : Disk} (h : (directory S).Reaches FirstValidEvent s) :
    (∀ f ∈ s.files.entries, ∃ sb, (ofVec S 0 f.2 : Outcome Empty StoredBundle) = .ok sb ∧
      sb.getFilename = f.1) ∧ ∃ sbs, load S 0 s.files.entries = .ok sbs := by
  have hclean : Clean S s := by
    refine h.invariant (Clean S) ?_ fun s e s' hi he hstep => hi.step he hstep
    rintro s ⟨-, hw, -, -, endpoint, es, hstart⟩
    have hload := load_eq_ok (started_bundles hstart)
    refine ⟨fun sb hsb hstate => ?_, fun f hf => ?_, by rw [hw]; exact forall_mem_nil _⟩
    · obtain ⟨f, -, -, -, hdescribes, -⟩ := forall₂_mem' hload hsb
      exact hdescribes
    · obtain ⟨sb, -, hname, hdata, hdescribes, -⟩ := forall₂_mem hload hf
      have := (saves_of_describes hdescribes).loadable
      rwa [hname, hdata] at this
  obtain ⟨sbs, hsbs, -⟩ := load_of_loadable hclean.files 0
  exact ⟨fun f hf => hclean.files f hf 0, sbs, hsbs⟩

/-- A directory without files. -/
def emptyDisk : Disk := ⟨storeOf [] 0, .empty, [], [], []⟩

lemma init_emptyDisk : (directory .plain).init emptyDisk :=
  ⟨nodup_nil, rfl, rfl, rfl, .ipn ⟨1, 0⟩, [], rfl⟩

/-- `ordinary` is received and found valid. -/
def ordinaryDisk : Disk :=
  ⟨storeOf [{ ordinaryEntry with state := .valid }] 1, ⟨[file ordinaryEntry]⟩, [], [], [ordinaryEntry.getFilename]⟩

/-- A message that is to make an entry valid finds one that is new, or valid already. -/
def Message.findsNew (sbs : List StoredBundle) : Message → Bool
  | .updateBundle r .valid _ => (removeFirst r.primaryBlock sbs).all fun p => p.1.state = .received ∨ p.1.state = .valid
  | _ => true

def DiskEvent.findsNew (sbs : List StoredBundle) : DiskEvent → Bool
  | .message m => m.findsNew sbs
  | _ => true

/-- The state after an event that can happen and meets `FirstValid`. -/
def Disk.firstNext (s : Disk) (e : DiskEvent) : Option Disk :=
  if e.findsNew s.daemon.bundles then s.next .plain e else none

lemma Disk.firstNext_eq_some (h : s.firstNext e = some s') : FirstValidEvent s e ∧ (directory .plain).step s e s' := by
  rw [firstNext] at h
  split at h <;> [rename_i hfirst; cases h]
  refine ⟨?_, h⟩
  cases e with
  | message m =>
    rw [FirstValidEvent]
    unfold FirstValid
    split
    · intro x rest hx
      simpa [DiskEvent.findsNew, Message.findsNew, hx] using hfirst
    · trivial
  | _ => trivial

theorem files_load_ordinary :
    ∃ sbs, load .plain 0 ordinaryDisk.files.entries = .ok sbs ∧ ordinaryDisk.files.entries.length = 1 := by
  have h0 : (directory .plain).Reaches FirstValidEvent emptyDisk := .init init_emptyDisk
  have h : (directory .plain).Reaches FirstValidEvent ordinaryDisk :=
    h0.foldlM (fun _ _ _ => Disk.firstNext_eq_some) (show foldlM Disk.firstNext emptyDisk
      [.message (.storeReceivedBundle (encoded ordinary)), .message (.updateBundle ordinaryEntry.getRef .valid none),
        .write (file ordinaryEntry).1 (file ordinaryEntry).2] = _ by decide +kernel)
  obtain ⟨-, sbs, hsbs⟩ := files_load h
  exact ⟨sbs, hsbs, rfl⟩

/-- `ordinary` is forwarded, which makes it longer, and received again before it is sent. -/
def receivedAgain (data : List UInt8) : List DiskEvent :=
  [.message (.storeReceivedBundle (encoded ordinary)),
    .message (.updateBundle ordinaryEntry.getRef .valid none),
    .write (file ordinaryEntry).1 (file ordinaryEntry).2,
    .message (.updateBundle ordinaryEntry.getRef .forwardingQueued (some data)),
    .message (.storeReceivedBundle (encoded ordinary)),
    .message (.updateBundle ordinaryEntry.getRef .valid none),
    .write (file ordinaryEntry).1 data]

/-- The new data is written under the name of the old one, and the loader panics. -/
theorem load_receivedAgain :
    ∃ s, (directory .plain).Reaches (fun _ _ => True) s ∧ s.writes = [] ∧ s.deletes = [] ∧
      load .plain 0 s.files.entries = .panic := by
  have hrun : foldlM (Disk.next .plain) emptyDisk (receivedAgain (forwarded (.ipn ⟨1, 0⟩) ordinaryEntry)) =
      some ⟨storeOf [received 2 ordinary someBytes, { queued ordinaryEntry 1
          (forwarded (.ipn ⟨1, 0⟩) ordinaryEntry) with state := .valid }] 3,
        ⟨[(ordinaryEntry.getFilename, forwarded (.ipn ⟨1, 0⟩) ordinaryEntry)]⟩, [], [],
        [ordinaryEntry.getFilename, ordinaryEntry.getFilename]⟩ := by decide +kernel
  exact ⟨_, Disk.reaches_run (.init init_emptyDisk) hrun, rfl, rfl, by decide +kernel⟩

/-! ## Files and entries -/

/-- Two stored bundles never agree in all the parts of a name, nor does one that is to be written with one whose file
is to be deleted. -/
structure Separate (s : Disk) : Prop where
  stored : (s.daemon.bundles.map nameParts).Nodup
  writes : ∀ y ∈ s.daemon.bundles, y.getFilename ∈ s.writes.map Prod.fst →
    ∀ x : StoredBundle, x.getFilename ∈ s.deletes → nameParts x ≠ nameParts y

lemma nodup_names_iff : (sbs.map (·.getFilename)).Nodup ↔ (sbs.map nameParts).Nodup := by
  simp only [Nodup, pairwise_map, ne_eq, getFilename_eq_iff]

lemma Separate.names (h : Separate s) : (s.daemon.bundles.map (·.getFilename)).Nodup := nodup_names_iff.mpr h.stored

lemma Separate.not_deleted (h : Separate s) (hy : y ∈ s.daemon.bundles) (hw : (y.getFilename, data) ∈ s.writes) :
    y.getFilename ∉ s.deletes := fun hdelete => h.writes y hy (mem_map_of_mem hw) y hdelete rfl

/-- The condition on a state and the next event. -/
def SafeEvent (s : Disk) (e : DiskEvent) : Prop := Separate s ∧ FirstValidEvent s e

/-- The file with this name has these data, or will have them. -/
def HasFile (s : Disk) (name : String) (data : List UInt8) : Prop :=
  (name, data) ∈ s.files.entries ∨ (name, data) ∈ s.writes

/-- Once everything is done, the files are those of the entries that have been valid. -/
structure Agrees (S : Serde) (s : Disk) : Prop where
  received : ∀ sb ∈ s.daemon.bundles, sb.state = .received → ∃ b, sb.Describes S b
  valid : ∀ sb ∈ s.daemon.bundles, sb.state = .valid → sb.getFilename ∈ s.everValid
  stored : ∀ name ∈ s.everValid, ∃ sb ∈ s.daemon.bundles, sb.getFilename = name
  kept : ∀ name ∈ s.everValid, name ∉ s.deletes ∧ ∃ data, HasFile s name data
  saved : ∀ sb ∈ s.daemon.bundles, sb.getFilename ∈ s.everValid → ∀ data, HasFile s sb.getFilename data →
    Saves S sb data
  known : ∀ name data, HasFile s name data → name ∉ s.deletes → name ∈ s.everValid
  writing : ∀ f ∈ s.writes, ∃ sb ∈ s.daemon.bundles, sb.getFilename = f.1

lemma mem_validNames :
    name ∈ Disk.validNames before sbs ↔
      ∃ sb ∈ sbs, (sb.state = .valid ∨ sb.getFilename ∈ before) ∧ sb.getFilename = name := by
  simp [Disk.validNames, and_assoc]

lemma eq_of_name (h : (sbs.map (·.getFilename)).Nodup) (hx : x ∈ sbs) (hy : y ∈ sbs)
    (hname : x.getFilename = y.getFilename) : x = y := inj_on_of_nodup_map h hx hy hname

lemma Turnover.new_ne_stay (h : Turnover S sbs m sbs' es gone stay stay' new)
    (hnames : (sbs'.map (·.getFilename)).Nodup) (hx : x ∈ stay) (hy : y ∈ new) : x.getFilename ≠ y.getFilename := by
  obtain ⟨_, hx', hstays⟩ := forall₂_mem h.stays hx
  have hnodup := (h.after.map _).nodup_iff.mp hnames
  rw [map_append] at hnodup
  rw [← hstays.name]
  exact (nodup_append.mp hnodup).2.2 _ (mem_map_of_mem hx') _ (mem_map_of_mem hy)

lemma Turnover.stay_ne_gone (h : Turnover S sbs m sbs' es gone stay stay' new)
    (hnames : (sbs.map (·.getFilename)).Nodup) (hx : x ∈ stay) (hy : y ∈ gone) : x.getFilename ≠ y.getFilename := by
  have hnodup := (h.before.map _).nodup_iff.mp hnames
  rw [map_append] at hnodup
  exact ((nodup_append.mp hnodup).2.2 _ (mem_map_of_mem hy) _ (mem_map_of_mem hx)).symm

/-- An entry that has been valid was so before, or its file is written now. -/
lemma Agrees.origin (hi : Agrees S s) (hsep' : Separate s')
    (ht : Turnover S s.daemon.bundles m s'.daemon.bundles es gone stay stay' new)
    (hw' : s'.writes = es.filterMap write) (hd' : s'.deletes = s.deletes ++ es.filterMap delete)
    (hy : y ∈ s'.daemon.bundles) (hv : y.state = .valid ∨ y.getFilename ∈ s.everValid) :
    (∃ x ∈ stay, Stays S es x y ∧ x.getFilename ∈ s.everValid) ∨
      (∃ data, (y.getFilename, data) ∈ s'.writes) ∧ y.getFilename ∉ s.everValid := by
  rcases mem_append.mp (ht.after.mem_iff.mp hy) with hy | hy
  · obtain ⟨x, hx, hxy⟩ := forall₂_mem' ht.stays hy
    by_cases hmem : x.getFilename ∈ s.everValid
    · exact .inl ⟨x, hx, hxy, hmem⟩
    · rw [hxy.name] at hv ⊢
      rcases hxy.valid (hv.resolve_right hmem) with hvalid | hwrite
      · exact absurd (hi.valid x (ht.before.mem_iff.mpr (mem_append_right _ hx)) hvalid) hmem
      · exact .inr ⟨⟨_, by rw [hw']; exact hwrite⟩, hmem⟩
  · -- a new entry cannot have the name of an old one
    have hnew : y.getFilename ∈ s.everValid → ∃ x ∈ gone, x.getFilename = y.getFilename := fun hmem => by
      obtain ⟨x, hx, hname⟩ := hi.stored _ hmem
      rcases mem_append.mp (ht.before.mem_iff.mp hx) with hx | hx
      · exact ⟨x, hx, hname⟩
      · exact absurd hname (ht.new_ne_stay hsep'.names hx hy)
    rcases ht.added y hy with ⟨_, hwrite⟩ | ⟨_, rfl⟩
    · refine .inr ⟨⟨_, by rw [hw']; exact hwrite⟩, fun hmem => ?_⟩
      obtain ⟨x, hx, hname⟩ := hnew hmem
      refine hsep'.not_deleted (ht.after.mem_iff.mpr (mem_append_right _ hy)) (hw' ▸ hwrite) ?_
      rw [hd', ht.deleted]
      exact mem_append_right _ (mem_map.mpr ⟨x, hx, hname⟩)
    · rename_i hreceived
      obtain ⟨x, hx, -⟩ := hnew (hv.resolve_left (by rw [hreceived]; rintro ⟨⟩))
      exact absurd hx not_mem_nil

lemma Agrees.message (hi : Agrees S s) (hsep : Separate s) (hsep' : Separate s') (hm : FirstValid s.daemon.bundles m)
    (h : s.message S m = .ok s') (hw : s.writes = []) : Agrees S s' := by
  obtain ⟨es, hchange, hfiles, hw', hd', hvalid'⟩ := Disk.message_eq_ok h
  obtain ⟨gone, stay, _, _, ht⟩ := turnover_of_change hchange
  have hold {name data} : HasFile s name data ↔ (name, data) ∈ s'.files.entries := by
    simp [HasFile, hw, hfiles]
  have hmem {name} (h : name ∈ s'.everValid) : ∃ y ∈ s'.daemon.bundles, y.getFilename = name ∧
      ((∃ x ∈ stay, Stays S es x y ∧ x.getFilename ∈ s.everValid) ∨
        (∃ data, (y.getFilename, data) ∈ s'.writes) ∧ y.getFilename ∉ s.everValid) := by
    rw [hvalid'] at h
    obtain ⟨y, hy, hv, hname⟩ := mem_validNames.mp h
    exact ⟨y, hy, hname, hi.origin hsep' ht hw' hd' hy hv⟩
  have hdeleted {name} (h : name ∉ s'.deletes) : name ∉ s.deletes ∧ ∀ x ∈ gone, x.getFilename ≠ name := by
    rw [hd', ht.deleted, mem_append, not_or] at h
    exact ⟨h.1, fun x hx hname => h.2 (mem_map.mpr ⟨x, hx, hname⟩)⟩
  refine ⟨ht.received_describes hi.received, fun y hy hstate => ?_, fun name hname => ?_, fun name hname => ?_,
    fun y hy hname data hdata => ?_, fun name data hdata hname => ?_, fun f hf => ?_⟩
  · rw [hvalid']
    exact mem_validNames.mpr ⟨y, hy, .inl hstate, rfl⟩
  · obtain ⟨y, hy, hyname, -⟩ := hmem hname
    exact ⟨y, hy, hyname⟩
  · obtain ⟨y, hy, hyname, horigin⟩ := hmem hname
    rw [← hyname]
    rcases horigin with ⟨x, hx, hxy, hxv⟩ | ⟨⟨data, hdata⟩, -⟩
    · obtain ⟨hnot, data, hdata⟩ := hi.kept _ hxv
      rw [hxy.name]
      refine ⟨fun hdel => ?_, data, .inl (hold.mp hdata)⟩
      rw [hd', ht.deleted] at hdel
      rcases mem_append.mp hdel with hdel | hdel
      · exact hnot hdel
      · obtain ⟨z, hz, hzname⟩ := mem_map.mp hdel
        exact ht.stay_ne_gone hsep.names hx hz hzname.symm
    · exact ⟨hsep'.not_deleted hy hdata, data, .inr hdata⟩
  · rcases hdata with hdata | hdata
    · obtain ⟨z, hz, hzname, horigin⟩ := hmem hname
      obtain rfl := eq_of_name hsep'.names hz hy hzname
      rcases horigin with ⟨x, hx, hxy, hxv⟩ | ⟨⟨_, hwrite⟩, hnot⟩
      · rw [hxy.name] at hdata
        exact (hi.saved x (ht.before.mem_iff.mpr (mem_append_right _ hx)) hxv data (hold.mpr hdata)).congr
          hxy.primaryBlock hxy.size
      · have hnames := hdeleted (hsep'.not_deleted hz hwrite)
        exact absurd (hi.known _ data (hold.mpr hdata) hnames.1) hnot
    · obtain ⟨_, hz, -, hzname, hsaves⟩ := ht.written_saves hi.received hm (by rw [← hw']; exact hdata)
      obtain rfl := eq_of_name hsep'.names hy hz hzname
      exact hsaves
  · rw [hvalid']
    rcases hdata with hdata | hdata
    · obtain ⟨hnot, hgone⟩ := hdeleted hname
      have hv := hi.known name data (hold.mpr hdata) hnot
      obtain ⟨x, hx, rfl⟩ := hi.stored name hv
      rcases mem_append.mp (ht.before.mem_iff.mp hx) with hx | hx
      · exact absurd rfl (hgone x hx)
      · obtain ⟨y, hy, hxy⟩ := forall₂_mem ht.stays hx
        exact mem_validNames.mpr ⟨y, ht.after.mem_iff.mpr (mem_append_left _ hy),
          .inr (by rw [hxy.name]; exact hv), hxy.name⟩
    · obtain ⟨y, hy, hstate, hyname, -⟩ := ht.written_saves hi.received hm (by rw [← hw']; exact hdata)
      exact mem_validNames.mpr ⟨y, hy, .inl hstate, hyname.symm⟩
  · obtain ⟨y, hy, -, hyname, -⟩ := ht.written_saves hi.received hm (by rw [← hw']; exact hf)
    exact ⟨y, hy, hyname.symm⟩

/-- A write that ends moves data from the pending writes to the files. -/
lemma Agrees.write (hi : Agrees S s) (h : (name, data) ∈ s.writes) : Agrees S (s.write name data) := by
  have hback {n d} (hd : HasFile (s.write name data) n d) : HasFile s n d := by
    rcases hd with hd | hd
    · rcases mem_insert hd with heq | hd
      · rw [heq.symm] at h
        exact .inr h
      · exact .inl hd
    · exact .inr (mem_of_mem_erase hd)
  refine ⟨hi.received, hi.valid, hi.stored, fun n hn => ?_, fun sb hsb hn d hd => hi.saved sb hsb hn d (hback hd),
    fun n d hd => hi.known n d (hback hd), fun f hf => hi.writing f (mem_of_mem_erase hf)⟩
  obtain ⟨hnot, d, hd⟩ := hi.kept n hn
  refine ⟨hnot, ?_⟩
  by_cases heq : n = name
  · exact ⟨data, .inl (by rw [heq]; exact mem_insert_self ..)⟩
  · rcases hd with hd | hd
    · exact ⟨d, .inl (mem_insert_of_ne hd heq)⟩
    · exact ⟨d, .inr ((mem_erase_of_ne fun h => heq (congrArg Prod.fst h)).mpr hd)⟩

lemma Agrees.delete (hi : Agrees S s) (hsep : Separate s) (h : name ∈ s.deletes) : Agrees S (s.delete name) := by
  have hback {n d} (hd : HasFile (s.delete name) n d) : HasFile s n d ∧ n ≠ name := by
    rcases hd with hd | hd
    · exact ⟨.inl (mem_remove.mp hd).1, (mem_remove.mp hd).2⟩
    · obtain ⟨sb, hsb, rfl⟩ := hi.writing _ hd
      exact ⟨.inr hd, fun heq => hsep.not_deleted hsb hd (by rw [heq]; exact h)⟩
  refine ⟨hi.received, hi.valid, hi.stored, fun n hn => ?_, fun sb hsb hn d hd => hi.saved sb hsb hn d (hback hd).1,
    fun n d hd hn => ?_, hi.writing⟩
  · obtain ⟨hnot, d, hd⟩ := hi.kept n hn
    refine ⟨fun hdel => hnot (mem_of_mem_erase hdel), d, ?_⟩
    exact hd.imp_left fun hd => mem_remove.mpr ⟨hd, fun heq => hnot (by rw [← heq] at h; exact h)⟩
  · obtain ⟨hd, hne⟩ := hback hd
    exact hi.known n d hd fun hdel => hn ((mem_erase_of_ne hne).mpr hdel)

lemma Agrees.init (h : (directory S).init s) : Separate s ∧ Agrees S s := by
  obtain ⟨hkeys, hw, hd, hvalid, _, _, hstart⟩ := h
  have hload := load_eq_ok (started_bundles hstart)
  have hnames : s.daemon.bundles.map (·.getFilename) = s.files.keys := by
    unfold Table.keys
    generalize s.daemon.bundles = sbs at hload
    generalize s.files.entries = files at hload
    induction hload with
    | nil => rfl
    | cons hf _ ih => rw [map_cons, map_cons, ih, hf.1]
  have hfile {sb} (hsb : sb ∈ s.daemon.bundles) : file sb ∈ s.files.entries ∧ ∃ b, sb.Describes S b := by
    obtain ⟨_, hf, hname, hdata, hdescribes, -⟩ := forall₂_mem' hload hsb
    exact ⟨by rw [file, hname, hdata]; exact hf, hdescribes⟩
  have hsep : Separate s := ⟨nodup_names_iff.mp (by rw [hnames]; exact hkeys), fun y _ hy => by rw [hw] at hy; cases hy⟩
  refine ⟨hsep, fun sb hsb _ => (hfile hsb).2, fun sb hsb _ => by rw [hvalid]; exact mem_map_of_mem hsb,
    fun name hname => ?_, fun name hname => ?_, fun sb hsb hname data hdata => ?_, fun name data hdata hname => ?_,
    by rw [hw]; exact forall_mem_nil _⟩
  · rw [hvalid] at hname
    exact mem_map.mp hname
  · rw [hvalid] at hname
    obtain ⟨sb, hsb, rfl⟩ := mem_map.mp hname
    exact ⟨by rw [hd]; exact not_mem_nil, _, .inl (hfile hsb).1⟩
  · -- there is one file with this name, the one the entry was loaded from
    rw [HasFile, hw] at hdata
    have heq := inj_on_of_nodup_map hkeys (hdata.resolve_right not_mem_nil) (hfile hsb).1 rfl
    obtain rfl : data = sb.bundleData.bytes := congrArg Prod.snd heq
    exact saves_of_describes (hfile hsb).2
  · rw [HasFile, hw] at hdata
    rw [hvalid, hnames]
    exact mem_map_of_mem (hdata.resolve_right not_mem_nil)

/-- In every run in which the names are separate and messages meet `FirstValid`, once nothing is left to be done, the
stored bundles that have been valid are those that have a file, and a restart loads them all. -/
theorem files_agree {s : Disk} (h : (directory S).Reaches SafeEvent s) (hsep : Separate s) (hw : s.writes = [])
    (hd : s.deletes = []) :
    (∀ sb ∈ s.daemon.bundles, sb.getFilename ∈ s.everValid → ∃ data, (sb.getFilename, data) ∈ s.files.entries) ∧
      (∀ f ∈ s.files.entries, f.1 ∈ s.everValid ∧ ∃ sb ∈ s.daemon.bundles, sb.getFilename = f.1) ∧
      ∃ sbs, load S 0 s.files.entries = .ok sbs ∧ ∀ sb ∈ s.daemon.bundles, sb.getFilename ∈ s.everValid →
        ∃ y ∈ sbs, y.primaryBlock = sb.primaryBlock ∧ y.size = sb.size ∧ y.state = .valid := by
  have hi : Separate s → Agrees S s := by
    refine h.invariant (fun s => Separate s → Agrees S s) (fun s hs _ => (Agrees.init hs).2) ?_
    rintro s e s' hi ⟨hsep, he⟩ hstep hsep'
    cases Disk.next_step hstep with
    | message hw hm => exact (hi hsep).message hsep hsep' he hm hw
    | write hwrite => exact (hi hsep).write hwrite
    | delete hdelete => exact (hi hsep).delete hsep hdelete
  have hi := hi hsep
  have hall {f : String × List UInt8} (hf : f ∈ s.files.entries) : f.1 ∈ s.everValid :=
    hi.known f.1 f.2 (.inl hf) (by rw [hd]; exact not_mem_nil)
  have hfile {sb : StoredBundle} (hname : sb.getFilename ∈ s.everValid) :
      ∃ data, (sb.getFilename, data) ∈ s.files.entries := by
    obtain ⟨-, data, hdata⟩ := hi.kept _ hname
    rw [HasFile, hw] at hdata
    exact ⟨data, hdata.resolve_right not_mem_nil⟩
  obtain ⟨sbs, hsbs, hloaded⟩ : ∃ sbs, load S 0 s.files.entries = .ok sbs ∧ ∀ f ∈ s.files.entries, ∃ a sb,
      (ofVec S a f.2 : Outcome Empty StoredBundle) = .ok sb ∧ { sb with state := .valid } ∈ sbs := by
    refine load_of_loadable (fun f hf => ?_) 0
    obtain ⟨sb, hsb, hname⟩ := hi.stored f.1 (hall hf)
    have := (hi.saved sb hsb (by rw [hname]; exact hall hf) f.2 (.inl (by rw [hname]; exact hf))).loadable
    rwa [hname] at this
  refine ⟨fun sb _ hname => hfile hname, fun f hf => ⟨hall hf, hi.stored f.1 (hall hf)⟩, sbs, hsbs,
    fun sb hsb hname => ?_⟩
  obtain ⟨data, hdata⟩ := hfile hname
  obtain ⟨a, y, hy, hmem⟩ := hloaded _ hdata
  obtain ⟨y', hy', hpb, hsize⟩ := hi.saved sb hsb hname data (.inl hdata) a
  cases hy.symm.trans hy'
  exact ⟨_, hmem, hpb, hsize, rfl⟩

/-! ### Fragments that are put together -/

/-- The first fragment of `ordinary`, cut behind `k` bytes of its payload. -/
def firstFragment (k : Nat) : Bundle := ordinaryFragment 0 (someBytes.take k)

def lastFragment (k : Nat) : Bundle := ordinaryFragment (.ofNat k) (someBytes.drop k)

def firstEntry (k : Nat) : StoredBundle := received 0 (firstFragment k) (someBytes.take k)

def lastEntry (k : Nat) : StoredBundle := received 1 (lastFragment k) (someBytes.drop k)

/-- Both fragments are received and found valid. -/
def receivedFragments (k : Nat) : List DiskEvent :=
  [.message (.storeReceivedBundle (encoded (firstFragment k))),
    .message (.storeReceivedBundle (encoded (lastFragment k))),
    .message (.updateBundle (firstEntry k).getRef .valid none), .write (file (firstEntry k)).1 (file (firstEntry k)).2,
    .message (.updateBundle (lastEntry k).getRef .valid none), .write (file (lastEntry k)).1 (file (lastEntry k)).2]

def fragmentsDisk (k : Nat) : Disk :=
  ⟨storeOf [{ firstEntry k with state := .valid }, { lastEntry k with state := .valid }] 2,
    ⟨[file (firstEntry k), file (lastEntry k)]⟩, [], [], [(firstEntry k).getFilename, (lastEntry k).getFilename]⟩

/-- The whole bundle takes their place. -/
def wholeEntry : StoredBundle := { received 2 ordinary someBytes with state := .valid }

/-- They have been put together, with the files as they were. -/
def reassembledDisk (k : Nat) : Disk :=
  ⟨storeOf [wholeEntry] 3, ⟨[file (firstEntry k), file (lastEntry k)]⟩, [file wholeEntry],
    [(firstEntry k).getFilename, (lastEntry k).getFilename], [wholeEntry.getFilename]⟩

/-- What is left to be done to the files. -/
def completed (k : Nat) : List DiskEvent :=
  [.write (file wholeEntry).1 (file wholeEntry).2, .delete (firstEntry k).getFilename,
    .delete (lastEntry k).getFilename]

lemma reassemble_fragments (hk : k = 100 ∨ k = 197) :
    Bundle.reassembleBundles [firstFragment k, lastFragment k] = .ok (encoded ordinary) := by
  have hsort : Bundle.sortByOffset [firstFragment k, lastFragment k] = [firstFragment k, lastFragment k] :=
    Bundle.sortByOffset_of_pairwise (by rcases hk with rfl | rfl <;> decide +kernel)
  simp only [Bundle.reassembleBundles, Bundle.canReassembleBundles, hsort]
  rcases hk with rfl | rfl <;> decide +kernel

lemma next_reassembled (hk : k = 100 ∨ k = 197) : (fragmentsDisk k).next .plain
    (.message (.updateBundle (lastEntry k).getRef .defragmentationPending none)) = some (reassembledDisk k) := by
  have hsplit : splitFragments .plain (lastEntry k).primaryBlock (fragmentsDisk k).daemon.bundles =
      .ok ((fragmentsDisk k).daemon.bundles, []) := by rcases hk with rfl | rfl <;> decide +kernel
  have hbundles : getBundles .plain (fragmentsDisk k).daemon.bundles =
      .ok [firstFragment k, lastFragment k] := by
    rcases hk with rfl | rfl <;> decide +kernel
  have hstore : storeBundle .plain { (fragmentsDisk k).daemon with bundles := [] } (encoded ordinary) none .valid
      true = .ok (storeOf [wholeEntry] 3, announce wholeEntry) := by rcases hk with rfl | rfl <;> decide +kernel
  have hfound : removeFirst (lastEntry k).getRef.primaryBlock (fragmentsDisk k).daemon.bundles =
      some ({ lastEntry k with state := .valid }, [{ firstEntry k with state := .valid }]) := by
    rcases hk with rfl | rfl <;> decide +kernel
  have hhandle :
      (fragmentsDisk k).daemon.updateBundle .plain (lastEntry k).getRef .defragmentationPending none = .ok _ :=
    (updateBundle_defragmentationPending hfound).trans
      (tryDefragmentBundle_of_reassembled hsplit nofun hbundles (reassemble_fragments hk) hstore)
  rw [Disk.next, Disk.message, handle, hhandle]
  rcases hk with rfl | rfl <;> decide +kernel

/-- The state after an event that can happen and meets the condition. -/
def Disk.safeNext (s : Disk) (e : DiskEvent) : Option Disk :=
  if (s.daemon.bundles.map (·.getFilename)).Nodup ∧ ∀ f ∈ s.writes, f.1 ∉ s.deletes then s.firstNext e else none

lemma separate_of_names (hnames : (s.daemon.bundles.map (·.getFilename)).Nodup) (hw : ∀ f ∈ s.writes, f.1 ∉ s.deletes) :
    Separate s := by
  refine ⟨nodup_names_iff.mp hnames, fun y _ hy x hx heq => ?_⟩
  obtain ⟨f, hf, hname⟩ := mem_map.mp hy
  exact hw f hf (by rw [hname, ← getFilename_eq_iff.mpr heq]; exact hx)

lemma Disk.safeNext_eq_some (h : s.safeNext e = some s') : SafeEvent s e ∧ (directory .plain).step s e s' := by
  rw [safeNext] at h
  split at h <;> [rename_i hsafe; cases h]
  obtain ⟨hfirst, hstep⟩ := firstNext_eq_some h
  exact ⟨⟨separate_of_names hsafe.1 hsafe.2, hfirst⟩, hstep⟩

/-- Both halves of `ordinary` are received, written, put together and deleted, and the whole is loaded again. -/
theorem files_agree_halves :
    ∃ s, (directory .plain).Reaches SafeEvent s ∧ s.daemon.bundles = [wholeEntry] ∧
      s.files.entries = [file wholeEntry] ∧
      ∃ sbs, load .plain 0 s.files.entries = .ok sbs ∧ ∃ y ∈ sbs, y.primaryBlock = ordinary.primaryBlock := by
  have hsafe (s : Disk) (e : DiskEvent) (s' : Disk) : s.safeNext e = some s' → _ := Disk.safeNext_eq_some
  have h0 : (directory .plain).Reaches SafeEvent emptyDisk := .init init_emptyDisk
  have h1 : (directory .plain).Reaches SafeEvent (fragmentsDisk 100) :=
    h0.foldlM hsafe (show (receivedFragments 100).foldlM Disk.safeNext emptyDisk = _ by decide +kernel)
  have h2 : (directory .plain).Reaches SafeEvent (reassembledDisk 100) :=
    h1.step (a := .message (.updateBundle (lastEntry 100).getRef .defragmentationPending none))
      ⟨separate_of_names (by decide +kernel) (by decide +kernel), trivial⟩ (next_reassembled (.inl rfl))
  have h3 : (directory .plain).Reaches SafeEvent
      ⟨storeOf [wholeEntry] 3, ⟨[file wholeEntry]⟩, [], [], [wholeEntry.getFilename]⟩ :=
    h2.foldlM hsafe (show (completed 100).foldlM Disk.safeNext _ = _ by decide +kernel)
  obtain ⟨-, -, sbs, hsbs, hall⟩ :=
    files_agree h3 (separate_of_names (by decide +kernel) (forall_mem_nil _)) rfl rfl
  obtain ⟨y, hy, hpb, -⟩ := hall _ mem_cons_self mem_cons_self
  exact ⟨_, h3, rfl, rfl, sbs, hsbs, y, hy, hpb⟩

/-- A first fragment that is as long as the whole bundle: the whole is written under its name, and then the file with
this name is deleted. The bundle is stored and valid, and not on disk. -/
theorem files_reassembled :
    ∃ s, (directory .plain).Reaches (fun _ _ => True) s ∧ s.writes = [] ∧ s.deletes = [] ∧
      s.daemon.bundles = [wholeEntry] ∧ wholeEntry.state = .valid ∧ s.files.entries = [] := by
  have hbefore : foldlM (Disk.next .plain) emptyDisk (receivedFragments 197) = some (fragmentsDisk 197) := by
    decide +kernel
  have hafter : foldlM (Disk.next .plain) (reassembledDisk 197) (completed 197) =
      some ⟨storeOf [wholeEntry] 3, .empty, [], [], [wholeEntry.getFilename]⟩ := by decide +kernel
  have h := (Disk.reaches_run (.init init_emptyDisk) hbefore).step trivial (next_reassembled (.inr rfl))
  exact ⟨_, Disk.reaches_run h hafter, rfl, rfl, rfl, rfl, rfl⟩

end Dtn.Dtrd.Storage
