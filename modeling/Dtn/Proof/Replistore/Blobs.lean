import Dtn.Framework.Histories
import Dtn.Proof.Replistore.Refines

/-!
# Objects and their blobs

The requests of the backend run side by side (`service`): of each one it is noted
under which sum it has stored a blob that it has not entered yet. A blob is shared
by all objects with its content, and `deleteObject` removes it whoever else has
entered it (`blob_lost`). While no blob is removed that an object or a running
request still needs, and no bucket has a NUL in its name, each object has its blob
in every state (`objects_backed`).
-/

namespace Dtn.Replistore

open List S3 KeyValueStore

variable {bucket : String} {files : Files}

/-! ## Requests side by side -/

/-- The blob that a request has stored and not entered yet. -/
def Call.noted : {β : Type} → Call β → β → Option String → Option String
  | _, .rename _ sum, some (), _ => some sum
  | _, .multiSet _ _ _, _, _ => none
  | _, _, _, stored => stored

def service (D : Digests) : Service Call Backend (Option String) Request Response where
  machine := machine D
  program := S3.handle
  start := none
  note := Call.noted
  passes s s' := ∃ clock, s' = { s with clock }

abbrev Requests := Pool Call Backend (Option String) Response

/-- Each object of each bucket has a blob under its sum. -/
def Backend.Backed (s : Backend) : Prop :=
  ∀ bucket key, (s.db.get (getPath rootStore (bucketPath bucket))).isSome = true →
    (s.db.get (getPath (bucketStore bucket) (objectPath bucket key))).isSome = true →
    ∃ sum, s.db.get (getPath (bucketStore bucket) (objectmetaPath bucket key "sha256sum")) = some (utf8 sum) ∧
      (s.files.blobs.get sum).isSome = true

/-- No object has this sum, and no request has stored a blob under it that it has not entered yet. -/
def Unused (p : Requests) (sum : String) : Prop :=
  (∀ bucket key, NulFree bucket →
    (p.state.db.get (getPath (bucketStore bucket) (objectPath bucket key))).isSome = true →
    p.state.db.get (getPath (bucketStore bucket) (objectmetaPath bucket key "sha256sum")) ≠ some (utf8 sum)) ∧
  ∀ t ∈ p.tasks, t.note ≠ some sum

def Request.bucketName : Request → Option String
  | .listBuckets => none
  | .createBucket name | .headBucket name => some name
  | .listObject bucket _ | .headObject bucket _ | .putObject bucket _ _ | .getObject bucket _
  | .deleteObject bucket _ =>
    some bucket
  | .eventReplicationReceived storeEvent => some storeEvent.bucketName

/-- Names of buckets have no NUL, and a blob is removed only if it is unused. -/
def Careful (p : Requests) : PoolEvent Call Request Response → Prop
  | .request r => ∀ name ∈ r.bucketName, NulFree name
  | .call (.removeFile sum) => Unused p sum
  | _ => True

/-! ## The invariant -/

structure Kept (s : Backend) (stored : List (Option String)) : Prop where
  ok : s.db.Ok
  names : ∀ name, (s.db.text (.bucket name)).isSome = true → NulFree name
  backed : ∀ bucket key, NulFree bucket → (s.db.text (.object bucket key)).isSome = true →
    ∃ sum, s.db.text (.objectmeta bucket key "sha256sum") = some sum ∧ (s.files.blobs.get sum).isSome = true
  held : ∀ sum, some sum ∈ stored → (s.files.blobs.get sum).isSome = true

lemma nulFree_sha256sum : NulFree "sha256sum" := by decide

variable {D : Digests} {s s' : Backend} {stored us vs : List (Option String)} {g : Option String}

lemma Kept.of_same (h : Kept s stored) (hok : s'.db.Ok)
    (htext : ∀ e : Entry, e.Ok → e.isText = true → s'.db.text e = s.db.text e)
    (hblobs : s'.files.blobs = s.files.blobs) : Kept s' stored where
  ok := hok
  names name := by
    rw [htext (.bucket name) trivial rfl]
    exact h.names name
  backed bucket key hb := by
    rw [htext (.object bucket key) hb rfl, htext (.objectmeta bucket key "sha256sum") ⟨hb, nulFree_sha256sum⟩ rfl,
      hblobs]
    exact h.backed bucket key hb
  held := by
    rw [hblobs]
    exact h.held

lemma Kept.createBucket (h : Kept s stored) (hn : NulFree name) (n : UInt64) :
    Kept { s with db := s.db.createBucket name n } stored where
  ok := h.ok.createBucket name n
  names name' hname := by
    rw [Db.text_createBucket name n (e := .bucket name') trivial rfl] at hname
    split at hname
    · rename_i heq
      cases heq
      exact hn
    · exact h.names name' hname
  backed bucket key hb hobj := by
    rw [Db.text_createBucket name n (e := .object bucket key) hb rfl, if_neg nofun] at hobj
    rw [Db.text_createBucket name n (e := .objectmeta bucket key "sha256sum") ⟨hb, nulFree_sha256sum⟩ rfl, if_neg nofun]
    exact h.backed bucket key hb hobj
  held := h.held

/-- The object that is entered has the blob that its request has stored. -/
lemma Kept.putObject (hb : NulFree bucket) (key : String) (info : BlobInfo) (lastModified : OffsetDateTime)
    (n : UInt64) (h : Kept s (us ++ some info.sha256sum :: vs)) :
    Kept { s with db := s.db.putObject bucket key info lastModified n } (us ++ none :: vs) := by
  have hother {e : Entry} (he : e.Ok) (ht : e.isText = true) :=
    Db.text_putObject_of_ne hb key info lastModified n s.db he ht
  refine ⟨h.ok.putObject hb key info lastModified n, fun name hname => ?_,
    fun bucket' key' hb' hobj => ?_, fun sum hsum => ?_⟩
  · rw [hother (e := .bucket name) trivial rfl (fun heq => by cases heq) (fun _ heq => by cases heq)] at hname
    exact h.names name hname
  · by_cases heq : bucket' = bucket ∧ key' = key
    · obtain ⟨rfl, rfl⟩ := heq
      refine ⟨info.sha256sum, ?_, h.held _ (mem_append_right us mem_cons_self)⟩
      exact Db.text_putObject_of_mem hb key' info lastModified n
        (r := (.objectmeta bucket' key' "sha256sum", info.sha256sum)) (by simp [objectRecords])
    · have hobjne : Entry.object bucket' key' ≠ .object bucket key := fun h => by cases h; exact heq ⟨rfl, rfl⟩
      have hmetane (suffix : String) : Entry.objectmeta bucket' key' "sha256sum" ≠ .objectmeta bucket key suffix :=
        fun h => by cases h; exact heq ⟨rfl, rfl⟩
      rw [hother (e := .object bucket' key') hb' rfl hobjne (fun _ heq => by cases heq)] at hobj
      rw [hother (e := .objectmeta bucket' key' "sha256sum") ⟨hb', nulFree_sha256sum⟩ rfl (fun heq => by cases heq)
        hmetane]
      exact h.backed bucket' key' hb' hobj
  · grind [h.held]

lemma Kept.deleteObject (h : Kept s stored) (hb : NulFree bucket) (key : String) (n : UInt64) :
    Kept { s with db := s.db.deleteObject bucket key n } stored where
  ok := h.ok.deleteObject hb key n
  names name hname := by
    have hnot : ¬ Under (bucketStore bucket) [objectPath bucket key, objectmetaPath bucket key ""]
      (Entry.bucket name).key := by
      rw [under_object_iff hb key (e := .bucket name) trivial]
      rintro (⟨r, heq⟩ | ⟨key', suffix, r, heq, -⟩) <;> cases heq
    rw [Db.text_deleteObject_of_not_under hb key n (e := .bucket name) trivial rfl hnot] at hname
    exact h.names name hname
  backed bucket' key' hb' hobj := by
    by_cases hunder : Under (bucketStore bucket) [objectPath bucket key, objectmetaPath bucket key ""]
        (Entry.object bucket' key').key
    · rw [Db.text_deleteObject_of_under hb key n (e := .object bucket' key') hb' rfl hunder] at hobj
      cases hobj
    · rw [Db.text_deleteObject_of_not_under hb key n (e := .object bucket' key') hb' rfl hunder] at hobj
      rw [Db.text_deleteObject_of_not_under hb key n (e := .objectmeta bucket' key' "sha256sum")
        ⟨hb', nulFree_sha256sum⟩ rfl (not_under_objectmeta hb key hb' nulFree_sha256sum hunder)]
      exact h.backed bucket' key' hb' hobj
  held := h.held

lemma Kept.insertBlob (h : Kept s (us ++ g :: vs)) {sum : String}
    (hblobs : files.blobs = s.files.blobs.insert sum content) : Kept { s with files } (us ++ some sum :: vs) := by
  refine ⟨h.ok, h.names, fun bucket key hb hobj => ?_, fun sum' hsum => ?_⟩
  · grind [h.backed]
  · grind [h.held]

lemma Kept.removeBlob (h : Kept s stored) {sum : String} (hblobs : files.blobs = s.files.blobs.remove sum)
    (hobjects : ∀ bucket key, NulFree bucket → (s.db.text (.object bucket key)).isSome = true →
      s.db.text (.objectmeta bucket key "sha256sum") ≠ some sum)
    (hstored : some sum ∉ stored) : Kept { s with files } stored := by
  refine ⟨h.ok, h.names, fun bucket key hb hobj => ?_, fun sum' hsum => ?_⟩
  all_goals grind [h.backed, h.held]

/-! ## Outlines of the handlers -/

/-- What the calls that change the database are, and what has been stored before an object is entered. -/
def Expected : {β : Type} → Option String → Call β → Prop
  | _, _, .set store key value versionPath => ∃ name, NulFree name ∧ store = rootStore ∧ key = bucketPath name ∧
      value = "" ∧ versionPath = bucketVersionPath name
  | _, stored, .multiSet store data versionPath => ∃ bucket key info lastModified, NulFree bucket ∧
      store = bucketStore bucket ∧ data = objectEntries bucket key info lastModified ∧
      versionPath = bucketVersionPath bucket ∧ stored = some info.sha256sum
  | _, _, .multiDelete store data versionPath => ∃ bucket key, NulFree bucket ∧ store = bucketStore bucket ∧
      data = [objectPath bucket key, objectmetaPath bucket key ""] ∧ versionPath = bucketVersionPath bucket
  | _, _, .getOrCreateKeyValueStore name => ∃ bucket, name = bucketStore bucket
  | _, _, .getOrCreateContentAddressableBlobStore _ => False
  | _, _, _ => True

/-- The store that is opened is the one that was asked for. -/
def Possible : {β : Type} → Call β → β → Prop
  | _, .getOrCreateKeyValueStore name, answer => answer = .ok name
  | _, _, _ => True

abbrev Outlined {ε α : Type} (Post : Option String → α → Prop) (g : Option String) (p : Async Call ε α) : Prop :=
  p.Outline Call.noted Expected Possible Post g

section outlines

variable {ε α : Type} {Post : Option String → α → Prop} {bucket : String} (hb : NulFree bucket)

lemma outlined_withBucketStore (bucket : String) (e : ε)
    (h : Outlined Post g (handler (bucketStore bucket))) : Outlined Post g (withBucketStore bucket e handler) := by
  refine .call trivial fun found _ => ?_
  split
  · trivial
  · refine .call ⟨bucket, rfl⟩ fun store hstore => ?_
    obtain rfl : store = .ok (bucketStore bucket) := hstore
    exact h

lemma outlined_ok {β : Type} (e : ε) (b : Option β) {f : β → Async Call ε α}
    (h : ∀ b', b = some b' → Outlined Post g (f b')) : Outlined Post g (ok e b >>= f) := by
  cases b with
  | none => trivial
  | some b' => exact h b' rfl

lemma outlined_metaToObj (store bucket obj : String) :
    Outlined (fun g' _ => g' = g) g (metaToObj (ε := ε) store bucket obj) := by
  refine .call trivial fun entries _ => ?_
  dsimp only
  split
  · trivial
  · rfl

lemma outlined_forward (tmpfile : Nat) (data : List (Except String Bytes)) :
    Outlined (fun g' _ => g' = g) g (forward tmpfile data) := by
  induction data with
  | nil => rfl
  | cons item _ ih =>
    cases item with
    | ok => exact .call trivial fun _ _ => ih
    | error => trivial

/-- The blob is stored under the sum that is returned. -/
lemma outlined_putBlob (data : List (Except String Bytes)) :
    Outlined (fun g' info => g' = some info.sha256sum) g (putBlob data) := by
  refine .call trivial fun tmpfile _ => (outlined_forward tmpfile data).bind fun g' _ _ => ?_
  refine .call trivial fun sums _ => outlined_ok _ sums fun sums' _ => ?_
  refine .call trivial fun renamed _ => outlined_ok _ renamed ?_
  rintro ⟨⟩ rfl
  refine .call trivial fun metadata _ => outlined_ok _ metadata fun metadata' _ => ?_
  rfl

lemma outlined_getBlob (sha256sum : String) : Outlined (fun _ _ => True) g (getBlob sha256sum) := by
  refine .call trivial fun metadata _ => outlined_ok _ metadata fun metadata' _ => ?_
  split
  · trivial
  · exact .call trivial fun content _ => by cases content <;> trivial

lemma outlined_deleteBlob (sha256sum : String) : Outlined (fun _ _ => True) g (deleteBlob sha256sum) := by
  refine .call trivial fun metadata _ => outlined_ok _ metadata fun metadata' _ => ?_
  split
  · trivial
  · exact .call trivial fun removed _ => by cases removed <;> trivial

lemma outlined_createBucket (hn : NulFree name) : Outlined (fun _ _ => True) g (createBucket name) := by
  refine .call trivial fun found _ => ?_
  split
  · trivial
  · exact .call ⟨name, hn, rfl, rfl, rfl, rfl⟩ fun _ _ => trivial

lemma outlined_listed (store bucket : String) (objs : List String) :
    Outlined (fun _ _ => True) g (S3.listed store bucket objs) := by
  induction objs generalizing g with
  | nil => trivial
  | cons obj _ ih => exact (outlined_metaToObj store bucket obj).bind fun _ _ _ => ih.bind fun _ _ _ => trivial

lemma outlined_listObject (bucket start : String) : Outlined (fun _ _ => True) g (listObject bucket start) :=
  outlined_withBucketStore bucket _ (.call trivial fun _ _ => outlined_listed _ bucket _)

lemma outlined_headObject (bucket key : String) : Outlined (fun _ _ => True) g (headObject bucket key) := by
  refine outlined_withBucketStore bucket _ (.call trivial fun found _ => ?_)
  split
  · trivial
  · exact (outlined_metaToObj _ bucket key).mono fun _ _ _ => trivial

lemma outlined_getObject (bucket key : String) : Outlined (fun _ _ => True) g (getObject bucket key) := by
  refine outlined_withBucketStore bucket _ (.call trivial fun found _ => ?_)
  split
  · trivial
  · exact (outlined_metaToObj _ bucket key).bind fun _ _ _ =>
      ((outlined_getBlob _).mapErr _).bind fun _ _ _ => trivial

include hb

lemma outlined_putObject (key : String) (data : List (Except String Bytes)) :
    Outlined (fun _ _ => True) g (putObject bucket key data) := by
  refine outlined_withBucketStore bucket _ (((outlined_putBlob data).mapErr _).bind fun g' info hinfo => ?_)
  refine .call trivial fun lastModified _ => ?_
  refine .call ⟨bucket, key, info, lastModified, hb, rfl, rfl, rfl, hinfo⟩ fun version _ => ?_
  exact .call trivial fun _ _ => trivial

lemma outlined_deleteObject (key : String) : Outlined (fun _ _ => True) g (deleteObject bucket key) := by
  refine outlined_withBucketStore bucket _ (.call trivial fun found _ => ?_)
  split
  · trivial
  · refine (outlined_metaToObj _ bucket key).bind fun g' metadata _ => ?_
    refine .call ⟨bucket, key, hb, rfl, rfl, rfl⟩ fun version _ => ?_
    exact .call trivial fun _ _ => (outlined_deleteBlob _).mapErr _

end outlines

lemma outlined_compareVersions (store bucket : String) (events : List Event) :
    Outlined (fun _ _ => True) g (compareVersions store bucket events) := by
  induction events with
  | nil => trivial
  | cons _ _ ih => exact .call trivial fun _ _ => ih

lemma outlined_handle (hr : ∀ name ∈ r.bucketName, NulFree name) : Outlined (fun _ _ => True) none (S3.handle r) := by
  cases r with
  | listBuckets | headBucket => exact .call trivial fun _ _ => trivial
  | createBucket name => exact (outlined_createBucket (hr name rfl)).attempt.map _
  | listObject bucket start => exact (outlined_listObject bucket start).attempt.map _
  | headObject bucket key => exact (outlined_headObject bucket key).attempt.map _
  | putObject bucket key data => exact (outlined_putObject (hr bucket rfl) key data).attempt.map _
  | getObject bucket key => exact (outlined_getObject bucket key).attempt.map _
  | deleteObject bucket key => exact (outlined_deleteObject (hr bucket rfl) key).attempt.map _
  | eventReplicationReceived storeEvent =>
    exact (outlined_withBucketStore _ _ (outlined_compareVersions _ _ storeEvent.events)).attempt.map _

/-! ## Runs -/

lemma possible_of_perform {β : Type} {c : Call β} {b : β} (h : s.db.Ok) (hc : Expected g c)
    (hperform : perform D c s = some (b, s')) : Possible c b := by
  cases c with
  | getOrCreateKeyValueStore =>
    obtain ⟨bucket, rfl⟩ := hc
    obtain ⟨_, hopen, -⟩ := perform_getOrCreateKeyValueStore (D := D) h bucket
    cases hopen.symm.trans hperform
    rfl
  | _ => trivial

lemma Kept.call {β : Type} {c : Call β} {b : β} (h : Kept p.state (us ++ g :: vs))
    (hnotes : p.tasks.map Task.note = us ++ g :: vs) (hc : Expected g c) (hcareful : Careful p (.call c))
    (hperform : perform D c p.state = some (b, s')) : Kept s' (us ++ c.noted b g :: vs) := by
  cases c with
  | get | list =>
    obtain ⟨_, _, heq⟩ := Option.map_eq_some_iff.mp hperform
    cases heq
    exact h
  | set =>
    obtain ⟨name, hn, rfl, rfl, rfl, rfl⟩ := hc
    cases (perform_setBucket h.ok name).symm.trans hperform
    exact h.createBucket hn _
  | multiSet =>
    obtain ⟨bucket, key, info, lastModified, hb, rfl, rfl, rfl, rfl⟩ := hc
    cases (perform_multiSet h.ok hb key info lastModified).symm.trans hperform
    exact h.putObject hb key info lastModified _
  | multiDelete =>
    obtain ⟨bucket, key, hb, rfl, rfl, rfl⟩ := hc
    cases (perform_multiDelete h.ok hb key).symm.trans hperform
    exact h.deleteObject hb key _
  | getOrCreateKeyValueStore =>
    obtain ⟨bucket, rfl⟩ := hc
    obtain ⟨_, hopen, hok, hsame⟩ := perform_getOrCreateKeyValueStore (D := D) h.ok bucket
    cases hopen.symm.trans hperform
    exact h.of_same hok (fun _ he ht => Db.text_of_value hsame he ht) rfl
  | getOrCreateContentAddressableBlobStore => exact hc.elim
  | create | write | replicateEvent => cases hperform; exact h.of_same h.ok (fun _ _ _ => rfl) rfl
  | hashFile | metadata | openFile | nowUtc => cases hperform; exact h
  | rename tmpfile sum =>
    cases htmp : p.state.files.tmp.get tmpfile with
    | none =>
      have hnone : p.state.files.rename tmpfile sum = none := by
        rw [Files.rename, htmp]
        rfl
      rw [perform, hnone] at hperform
      cases hperform
      exact h
    | some content =>
      have hsome : p.state.files.rename tmpfile sum = some { p.state.files with
          tmp := p.state.files.tmp.remove tmpfile, blobs := p.state.files.blobs.insert sum content } := by
        rw [Files.rename, htmp]
        rfl
      rw [perform, hsome] at hperform
      cases hperform
      exact h.insertBlob rfl
  | removeFile sum =>
    cases hblob : p.state.files.blobs.get sum with
    | none =>
      have hnone : p.state.files.remove sum = none := by
        rw [Files.remove, hblob]
        rfl
      rw [perform, hnone] at hperform
      cases hperform
      exact h
    | some =>
      have hsome : p.state.files.remove sum =
          some { p.state.files with blobs := p.state.files.blobs.remove sum } := by
        rw [Files.remove, hblob]
        rfl
      rw [perform, hsome] at hperform
      cases hperform
      refine h.removeBlob rfl (fun bucket key hb hobj hsum => ?_) fun hin => ?_
      · refine hcareful.1 bucket key hb ?_ ?_
        · exact (h.ok.isSome_value (e := .object bucket key) hb rfl).trans hobj
        · have hvalue := h.ok.value_eq_text (e := .objectmeta bucket key "sha256sum") ⟨hb, nulFree_sha256sum⟩ rfl
          rwa [hsum] at hvalue
      · rw [← hnotes] at hin
        obtain ⟨t, ht, hnote⟩ := mem_map.mp hin
        exact hcareful.2 t ht hnote

lemma service_keeps (D : Digests) : (service D).Keeps Expected Possible Kept Careful where
  request _ _ hr := outlined_handle hr
  start s gs h := by
    refine ⟨h.ok, h.names, h.backed, fun sum hsum => h.held sum ?_⟩
    obtain hin | hin := mem_append.mp hsum
    · exact hin
    · cases mem_singleton.mp hin
  answer c b s s' gs g h hc hperform := possible_of_perform h.ok hc hperform
  call p _ c b s' gs hs g h hnotes hc hcareful hperform := h.call hnotes hc hcareful hperform
  finish s gs g hs h := by
    refine ⟨h.ok, h.names, h.backed, fun sum hsum => h.held sum ?_⟩
    obtain hin | hin := mem_append.mp hsum
    · exact mem_append_left _ hin
    · exact mem_append_right _ (mem_cons_of_mem _ hin)
  pass s s' gs hs h := by
    obtain ⟨_, rfl⟩ := hs
    exact h.of_same h.ok (fun _ _ _ => rfl) rfl

lemma Represents.kept (h : Represents D s .empty) : Kept s [] where
  ok := h.ok
  names name hname := by
    rw [h.bucket] at hname
    cases hname
  backed bucket key hb hobj := by
    rw [h.object bucket key hb] at hobj
    cases hobj
  held _ hsum := by cases hsum

lemma Kept.backend_backed (h : Kept s stored) : s.Backed := by
  intro bucket key hbucket hobj
  have hb : NulFree bucket := h.names bucket ((h.ok.isSome_value (e := .bucket bucket) trivial rfl).symm.trans hbucket)
  obtain ⟨sum, hsum, hblob⟩ :=
    h.backed bucket key hb ((h.ok.isSome_value (e := .object bucket key) hb rfl).symm.trans hobj)
  refine ⟨sum, ?_, hblob⟩
  have hvalue := h.ok.value_eq_text (e := .objectmeta bucket key "sha256sum") ⟨hb, nulFree_sha256sum⟩ rfl
  rwa [hsum] at hvalue

/-- Each object has its blob, in every state of a run in which blobs are removed only if they are unused. -/
theorem objects_backed (D : Digests) (clock : OffsetDateTime) {p : Requests}
    (h : ((service D).system (startedBackend D clock)).Reaches Careful p) : p.state.Backed :=
  (Service.reaches_invariant (service_keeps D) (startedBackend_represents D clock).kept h).inv.backend_backed

def startTime : OffsetDateTime := ⟨0, 0, by decide⟩

/-- Nothing in the database is the sum of a blob that is removed, nor has the request stored it. -/
def removesUnused : {β : Type} → Backend → Option String → Call β → Bool
  | _, s, stored, .removeFile sum => s.db.table.entries.all (·.2 ≠ utf8 sum) && stored ≠ some sum
  | _, _, _, _ => true

lemma careful_of_removesUnused (s : Backend) (stored : Option String) {β : Type} (c : Call β)
    (k : β → Async Call Empty Response) (h : removesUnused s stored c = true) :
    Careful ⟨s, [] ++ [⟨.await c k, stored⟩]⟩ (.call c) := by
  cases c with
  | removeFile sum =>
    simp only [removesUnused, Bool.and_eq_true, all_eq_true, decide_eq_true_eq] at h
    refine ⟨fun _ _ _ _ hget => h.1 _ (Table.mem_of_get hget) rfl, fun t ht => ?_⟩
    cases mem_singleton.mp ht
    exact h.2
  | _ => trivial

/-- One of two objects is deleted with its blob. -/
theorem objects_backed_deleted : ∃ p : Requests,
    ((service byteDigests).system (startedBackend byteDigests startTime)).Reaches Careful p ∧
      (p.state.db.text (.object "bucket" "a")).isSome = true ∧ p.state.files.blobs.entries.length = 1 ∧
      p.state.Backed := by
  let requests : List Request := [.createBucket "bucket", .putObject "bucket" "a" [.ok [1]],
    .putObject "bucket" "b" [.ok [2]], .deleteObject "bucket" "b"]
  have hserved : ((service byteDigests).served removesUnused (startedBackend byteDigests startTime) requests).any
      (fun s => (s.db.text (.object "bucket" "a")).isSome && s.files.blobs.entries.length = 1) = true := by
    decide +kernel
  obtain ⟨s, hs, hcheck⟩ := (Option.any_eq_true _ _).mp hserved
  simp only [Bool.and_eq_true, decide_eq_true_eq] at hcheck
  have hnames : ∀ r ∈ requests, ∀ name ∈ r.bucketName, NulFree name := by decide
  have hreaches : ((service byteDigests).system (startedBackend byteDigests startTime)).Reaches Careful ⟨s, []⟩ :=
    Service.reaches_served careful_of_removesUnused (fun _ _ => trivial) (fun r hr _ => hnames r hr) (.init rfl) hs
  exact ⟨_, hreaches, hcheck.1, hcheck.2, objects_backed byteDigests startTime hreaches⟩

/-- The object is there, and its blob is not. -/
def Backend.lost (s : Backend) (bucket key : String) : Bool :=
  (s.db.get (getPath rootStore (bucketPath bucket))).isSome &&
    (s.db.get (getPath (bucketStore bucket) (objectPath bucket key))).isSome &&
    ((s.db.get (getPath (bucketStore bucket) (objectmetaPath bucket key "sha256sum"))).bind fromUtf8).all
      fun sum => (s.files.blobs.get sum).isNone

lemma not_backed_of_lost (h : s.lost bucket key = true) : ¬ s.Backed := by
  intro hbacked
  simp only [Backend.lost, Bool.and_eq_true] at h
  obtain ⟨_, hsum, hblob⟩ := hbacked bucket key h.1.1 h.1.2
  have hlost := h.2
  rw [hsum, Option.bind_some, fromUtf8_utf8] at hlost
  rw [Option.isSome_iff_ne_none] at hblob
  exact hblob (Option.isNone_iff_eq_none.mp hlost)

/-- One of two objects with the same content is deleted, and takes the blob of the other one with it. -/
theorem blob_lost : ∃ p : Requests,
    ((service byteDigests).system (startedBackend byteDigests startTime)).Reaches (fun _ _ => True) p ∧
      p.tasks = [] ∧ ¬ p.state.Backed := by
  have hserved : ((service byteDigests).served (fun _ _ _ => true) (startedBackend byteDigests startTime)
      [.createBucket "bucket", .putObject "bucket" "a" [.ok [1]], .putObject "bucket" "b" [.ok [1]],
        .deleteObject "bucket" "b"]).any (Backend.lost · "bucket" "a") = true := by decide +kernel
  obtain ⟨s, hs, hlost⟩ := (Option.any_eq_true _ _).mp hserved
  refine ⟨⟨s, []⟩, ?_, rfl, not_backed_of_lost hlost⟩
  exact Service.reaches_served (fun _ _ _ _ _ _ => trivial) (fun _ _ => trivial) (fun _ _ _ => trivial) (.init rfl) hs

end Dtn.Replistore
