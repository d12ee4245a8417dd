import Dtn.Proof.Replistore.Calls
import Dtn.Spec.Replistore.Objects

/-!
# The object store refines the map

A backend `Represents` a map if its database has an entry for each bucket and
object of the map and nothing else, with the metadata of what was stored, and the
files have the blobs. Each request that stores or reads keeps this and is answered
as the map says (`handle_represents`), so a sequence of requests that are
processed one at a time is (`responses_eq_answers`).
-/

namespace Dtn.Replistore

open List S3 KeyValueStore Machine

variable {D : Digests} {m : ObjectMap} {s : Backend} {ε α : Type}
variable {bucket key : String} {st : Stored} {s' : Backend} {data : List (Except String Bytes)} {content : Bytes}
  {p : Async Call ε α}

/-! ## The backend and the map -/

/-- The metadata that is kept of what was stored. -/
structure Db.Describes (db : Db) (D : Digests) (bucket key : String) (st : Stored) : Prop where
  lastModified : db.text (.objectmeta bucket key "last_modified") = some (toString st.time.unixTimestamp)
  md5sum : db.text (.objectmeta bucket key "md5sum") = some (D.md5 st.content)
  sha256sum : db.text (.objectmeta bucket key "sha256sum") = some (D.sha256 st.content)
  size : db.text (.objectmeta bucket key "size") = some (toString (UInt64.ofNat st.content.length).toNat)

lemma Db.Describes.of_same {db db' : Db} (h : db.Describes D bucket key st)
    (hsame : ∀ suffix, NulFree suffix → db'.text (.objectmeta bucket key suffix) =
      db.text (.objectmeta bucket key suffix)) :
    db'.Describes D bucket key st where
  lastModified := (hsame _ (by decide)).trans h.lastModified
  md5sum := (hsame _ (by decide)).trans h.md5sum
  sha256sum := (hsame _ (by decide)).trans h.sha256sum
  size := (hsame _ (by decide)).trans h.size

structure Represents (D : Digests) (s : Backend) (m : ObjectMap) : Prop where
  ok : s.db.Ok
  bucket : ∀ name, (s.db.text (.bucket name)).isSome = m.created name
  object : ∀ bucket key, NulFree bucket → (s.db.text (.object bucket key)).isSome = (m.objects bucket key).isSome
  describes : ∀ bucket key st, NulFree bucket → m.objects bucket key = some st → s.db.Describes D bucket key st
  blob : ∀ bucket key st, m.objects bucket key = some st →
    s.files.blobs.get (D.sha256 st.content) = some st.content

/-- Where the texts and the blobs are the same, so is the map. -/
lemma Represents.of_same (h : Represents D s m) (hok : s'.db.Ok)
    (htext : ∀ e : Entry, e.Ok → e.isText = true → s'.db.text e = s.db.text e)
    (hblobs : s'.files.blobs = s.files.blobs) : Represents D s' m where
  ok := hok
  bucket name := by rw [htext (.bucket name) trivial rfl, h.bucket]
  object bucket key hb := by rw [htext (.object bucket key) hb rfl, h.object bucket key hb]
  describes bucket key st hb hst :=
    (h.describes bucket key st hb hst).of_same fun suffix hs => htext (.objectmeta bucket key suffix) ⟨hb, hs⟩ rfl
  blob bucket key st hst := by rw [hblobs, h.blob bucket key st hst]

lemma Represents.create (h : Represents D s m) (name : String) (n : UInt64) :
    Represents D { s with db := s.db.createBucket name n } (m.create name) where
  ok := h.ok.createBucket name n
  bucket name' := by
    rw [Db.text_createBucket name n (e := .bucket name') trivial rfl, ObjectMap.created_create]
    by_cases hname : name = name'
    · simp [hname]
    · simp [hname, h.bucket]
  object bucket key hb := by
    rw [Db.text_createBucket name n (e := .object bucket key) hb rfl, if_neg nofun]
    exact h.object bucket key hb
  describes bucket key st hb hst := by
    refine (h.describes bucket key st hb hst).of_same fun suffix hs => ?_
    rw [Db.text_createBucket name n (e := .objectmeta bucket key suffix) ⟨hb, hs⟩ rfl, if_neg nofun]
  blob := h.blob

/-- What `putBlob` says about a blob. -/
def Stored.info (D : Digests) (st : Stored) : BlobInfo :=
  ⟨D.md5 st.content, D.sha256 st.content, .ofNat st.content.length⟩

lemma Represents.store (h : Represents D s m) (hb : NulFree bucket) (key : String) (st : Stored) (n : UInt64)
    (hdb : s'.db = s.db.putObject bucket key (st.info D) st.time n)
    (hblobs : s'.files.blobs = s.files.blobs.insert (D.sha256 st.content) st.content) :
    Represents D s' (m.store bucket key st) := by
  have hmem {r} (hr : r ∈ objectRecords bucket key (st.info D) st.time) : s'.db.text r.1 =
    some r.2 := by
    rw [hdb, Db.text_putObject_of_mem hb key (st.info D) st.time n hr]
  have hother {e} (he : e.Ok) (ht : e.isText = true) (hobject : e ≠ .object bucket key)
      (hmeta : ∀ suffix, e ≠ .objectmeta bucket key suffix) : s'.db.text e = s.db.text e := by
    grind [Db.text_putObject_of_ne]
  refine ⟨?_, fun name => ?_, fun bucket' key' hb' => ?_, fun bucket' key' st' hb' hst => ?_,
    fun bucket' key' st' hst => ?_⟩
  · rw [hdb]
    exact h.ok.putObject hb key (st.info D) st.time n
  · rw [hother (e := .bucket name) trivial rfl (fun heq => by cases heq) (fun _ heq => by cases heq)]
    exact h.bucket name
  · rw [ObjectMap.objects_store]
    split
    · rename_i heq
      obtain ⟨rfl, rfl⟩ := heq
      rw [hmem (r := (.object bucket key, "")) mem_cons_self]
      rfl
    · rename_i hne
      rw [hother (e := .object bucket' key') hb' rfl, h.object bucket' key' hb']
      · grind
      · intro suffix heq
        cases heq
  · rw [ObjectMap.objects_store] at hst
    split at hst
    · rename_i heq
      obtain ⟨rfl, rfl⟩ := heq
      cases hst
      have hmeta {suffix text} (hr : (Entry.objectmeta bucket key suffix, text) ∈
          objectRecords bucket key (st.info D) st.time) := hmem hr
      exact ⟨hmeta (by simp [objectRecords]), hmeta (by simp [objectRecords, Stored.info]),
        hmeta (by simp [objectRecords, Stored.info]), hmeta (by simp [objectRecords, Stored.info])⟩
    · rename_i hne
      refine (h.describes bucket' key' st' hb' hst).of_same fun suffix hs =>
        hother ⟨hb', hs⟩ rfl (fun heq => by cases heq) fun suffix heq => ?_
      cases heq
      exact hne ⟨rfl, rfl⟩
  · rw [ObjectMap.objects_store] at hst
    rw [hblobs, Table.get_insert]
    split at hst
    · cases hst
      rw [if_pos rfl]
    · split
      · rename_i hsum
        rw [D.sha256_injective hsum]
      · exact h.blob bucket' key' st' hst

/-! ## Parts of the handlers -/

lemma run_withBucketStore_none (h : Represents D s m) (hb : m.created bucket = false) (e : ε)
    (handler : String → Async Call ε α) : (machine D).run (withBucketStore bucket e handler) s = (.err e, s) := by
  exact run_withBucketStore_absent h.ok ((h.bucket bucket).trans hb) e handler

lemma run_withBucketStore (h : Represents D s m) (hb : m.created bucket = true) :
    ∃ s', Represents D s' m ∧ s'.clock = s.clock ∧ ∀ {ε α : Type} (e : ε) (handler : String → Async Call ε α),
      (machine D).run (withBucketStore bucket e handler) s = (machine D).run (handler (bucketStore bucket)) s' := by
  obtain ⟨db, hok, hsame, hrun⟩ := run_withBucketStore_open (D := D) h.ok ((h.bucket bucket).trans hb)
  exact ⟨{ s with db }, h.of_same hok (fun _ he ht => Db.text_of_value hsame he ht) rfl, rfl, hrun⟩

lemma Represents.isNone_object (h : Represents D s m) (hb : NulFree bucket)
    (hobj : m.objects bucket key = none) : (s.db.text (.object bucket key)).isNone = true := by
  rw [← Option.not_isSome, h.object bucket key hb, hobj]
  rfl

lemma Represents.not_isNone_object (h : Represents D s m) (hb : NulFree bucket)
    (hobj : m.objects bucket key = some st) : ¬ (s.db.text (.object bucket key)).isNone = true := by
  have hobject := h.object
  grind [Option.not_isSome]

lemma run_metaToObj (h : Represents D s m) (hb : NulFree bucket) (hst : m.objects bucket key = some st) :
    (machine D).run (metaToObj (ε := ε) (bucketStore bucket) bucket key) s =
    (.ok (st.object D key st.time.seconds), s) := by
  obtain ⟨h1, h2, h3, h4⟩ := h.describes bucket key st hb hst
  have htime : parseI64 (toString st.time.unixTimestamp) = some st.time.unixTimestamp :=
    parseI64_toString ⟨by have := st.time.inRange; omega, by have := st.time.inRange; omega⟩
  rw [run_metaToObj_described h.ok hb]
  simp only [described, h1, h2, h3, h4, Option.bind_some, htime, parseU64_toString, Option.getD_some,
    fromUnixTimestamp_unixTimestamp]
  rfl

/-! ## Blobs -/

/-- What is written while a stream is read: one temporary file. -/
lemma run_forward (h : s.files.tmp.get n = some written) (data : List (Except String Bytes)) :
    ∃ files : Files, files.blobs = s.files.blobs ∧
      match collected data with
      | .ok content => files.tmp.get n = some (written ++ content) ∧
        (machine D).run (forward n data) s = (.ok (), { s with files })
      | .error msg => (machine D).run (forward n data) s = (.err (.blobRead msg), { s with files }) := by
  induction data generalizing s written with
  | nil => exact ⟨s.files, rfl, by rw [append_nil]; exact h, rfl⟩
  | cons item data ih =>
    cases item with
    | error => exact ⟨s.files, rfl, rfl⟩
    | ok bytes =>
      have hwrite : (s.files.write n bytes).tmp.get n = some (written ++ bytes) := by grind [Files.write]
      have hperform : perform D (.write n bytes) s = some ((), { s with files := s.files.write n bytes }) := rfl
      have hrun := run_call (ε := PutBlobError) hperform fun _ => forward n data
      obtain ⟨files, hblobs, hmatch⟩ := ih (s := { s with files := s.files.write n bytes }) hwrite
      refine ⟨files, hblobs, ?_⟩
      rw [collected, forward]
      cases hdata : collected data with
      | ok =>
        rw [hdata] at hmatch
        exact ⟨by rw [hmatch.1, append_assoc], hrun.trans hmatch.2⟩
      | error =>
        rw [hdata] at hmatch
        exact hrun.trans hmatch

lemma run_putBlob_ok (h : collected data = .ok content) :
    ∃ files : Files, files.blobs = s.files.blobs.insert (D.sha256 content) content ∧
      (machine D).run (putBlob data) s =
        (.ok ⟨D.md5 content, D.sha256 content, .ofNat content.length⟩, { s with files }) := by
  have hcreate : s.files.create.2.tmp.get s.files.create.1 = some [] := Table.get_insert_self _ _ _
  obtain ⟨files, hblobs, hmatch⟩ := run_forward (D := D) (s := { s with files := s.files.create.2 }) hcreate data
  rw [h] at hmatch
  obtain ⟨htmp, hrun⟩ := hmatch
  rw [nil_append] at htmp
  have hblobs : files.blobs = s.files.blobs := hblobs
  let files' : Files := { files with
    tmp := files.tmp.remove s.files.create.1, blobs := files.blobs.insert (D.sha256 content) content }
  have hhash : perform D (.hashFile s.files.create.1) { s with files } =
      some (some (D.md5 content, D.sha256 content), { s with files }) := by
    rw [perform, htmp]
    rfl
  have hrename : perform D (.rename s.files.create.1 (D.sha256 content)) { s with files } =
      some (some (), { s with files := files' }) := by
    rw [perform, Files.rename, htmp]
    rfl
  have hmeta : perform D (.metadata (D.sha256 content)) { s with files := files' } =
      some (some ⟨true, .ofNat content.length⟩, { s with files := files' }) := by
    rw [perform, Files.metadata, if_neg (not_or.mpr (D.sha256_name content)), Table.get_insert_self]
    rfl
  refine ⟨files', congrArg (Table.insert · (D.sha256 content) content) hblobs, ?_⟩
  have hperform : perform D .create s = some (s.files.create.1, { s with files := s.files.create.2 }) := rfl
  rw [putBlob, run_call hperform, run_bind_ok hrun, run_call hhash, run_ok_some, run_call hrename, run_ok_some,
    run_call hmeta, run_ok_some, run_pure]

lemma run_putBlob_error (h : collected data = .error msg) :
    ∃ files : Files, files.blobs = s.files.blobs ∧
      (machine D).run (putBlob data) s = (.err (.blobRead msg), { s with files }) := by
  have hcreate : s.files.create.2.tmp.get s.files.create.1 = some [] := Table.get_insert_self _ _ _
  obtain ⟨files, hblobs, hrun⟩ := run_forward (D := D) (s := { s with files := s.files.create.2 }) hcreate data
  rw [h] at hrun
  have hperform : perform D .create s = some (s.files.create.1, { s with files := s.files.create.2 }) := rfl
  refine ⟨files, hblobs, ?_⟩
  rw [putBlob, run_call hperform, run_bind_err hrun]

lemma run_getBlob (h : s.files.blobs.get (D.sha256 content) = some content) :
    (machine D).run (getBlob (D.sha256 content)) s = (.ok content, s) := by
  have hmeta : perform D (.metadata (D.sha256 content)) s = some (some ⟨true, .ofNat content.length⟩, s) := by
    rw [perform, Files.metadata, if_neg (not_or.mpr (D.sha256_name content)), h]
    rfl
  have hopen : perform D (.openFile (D.sha256 content)) s = some (some content, s) := by rw [perform, h]
  rw [getBlob, run_call hmeta, run_ok_some]
  exact (run_call hopen _).trans rfl

/-! ## Requests -/

lemma run_attempt_map_ok (h : (machine D).run p s = (.ok a, s'))
    (f : Except ε α → Response) : (machine D).run (f <$> p.attempt) s = (.ok (f (.ok a)), s') :=
  run_bind_ok (run_attempt_ok h) fun r => pure (f r)

lemma run_attempt_map_err (h : (machine D).run p s = (.err e, s'))
    (f : Except ε α → Response) : (machine D).run (f <$> p.attempt) s = (.ok (f (.error e)), s') :=
  run_bind_ok (run_attempt_err h) fun r => pure (f r)

/-- The answer is the one of the map, and the backend represents the map after it. -/
def Answers (D : Digests) (s : Backend) (r : MapRequest) (x : Response × ObjectMap) : Prop :=
  ∃ s', (machine D).run (S3.handle r.request) s = (.ok x.1, s') ∧ Represents D s' x.2

lemma createBucket_answers (h : Represents D s m) (name : String) :
    Answers D s (.createBucket name) (m.answer D s.clock (.createBucket name)) := by
  rw [ObjectMap.answer]
  split
  · rename_i hname
    rw [← h.bucket] at hname
    refine ⟨s, run_attempt_map_err ?_ _, h⟩
    rw [createBucket, run_call (perform_getBucket h.ok name), if_pos hname]
    rfl
  · rename_i hname
    rw [← h.bucket] at hname
    have hset := perform_setBucket (D := D) h.ok name
    refine ⟨_, run_attempt_map_ok ?_ _, h.create name (s.db.nextVersion "root" name)⟩
    rw [createBucket, run_call (perform_getBucket h.ok name), if_neg hname, run_call hset]
    rfl

lemma run_putObject_ok (h : s.db.Ok) (hb : NulFree bucket) (hbucket : (s.db.text (.bucket bucket)).isSome = true)
    (key : String) (hdata : collected data = .ok content) :
    ∃ (db : Db) (s' : Backend), db.Ok ∧
      (∀ e : Entry, e.Ok → e ≠ .type (bucketStore bucket) → db.value e = s.db.value e) ∧
      s'.db = db.putObject bucket key (Stored.info D ⟨content, s.clock⟩) s.clock (db.nextVersion bucket bucket) ∧
      s'.files.blobs = s.files.blobs.insert (D.sha256 content) content ∧
      (machine D).run (putObject bucket key data) s = (.ok (Stored.object D key ⟨content, s.clock⟩ s.clock), s') := by
  obtain ⟨db, hok, hsame, hrun⟩ := run_withBucketStore_open (D := D) h hbucket
  have hput := run_mapErr (M := machine D) PutObjectError.ofBlob (putBlob data) { s with db }
  obtain ⟨files, hblobs, hblob⟩ := run_putBlob_ok (D := D) (s := { s with db }) hdata
  rw [hblob] at hput
  have hnow : perform D .nowUtc { s with db, files } = some (s.clock, { s with db, files }) := rfl
  have hset := perform_multiSet (D := D) (s := { s with db, files }) hok hb key
    (Stored.info D ⟨content, s.clock⟩) s.clock
  have hhandler : ∃ s' : Backend, s'.db = db.putObject bucket key (Stored.info D ⟨content, s.clock⟩) s.clock
      (db.nextVersion bucket bucket) ∧ s'.files = files ∧ (machine D).run (putObject bucket key data) s =
        (.ok (Stored.object D key ⟨content, s.clock⟩ s.clock), s') := by
    rw [putObject, hrun, run_bind_ok hput, run_call hnow]
    exact ⟨_, rfl, rfl, (run_call hset _).trans rfl⟩
  obtain ⟨s', hdb, rfl, hhandler⟩ := hhandler
  exact ⟨db, s', hok, hsame, hdb, hblobs, hhandler⟩

lemma putObject_answers (h : Represents D s m) (hb : NulFree bucket) (key : String)
    (data : List (Except String Bytes)) :
    Answers D s (.putObject bucket key data) (m.answer D s.clock (.putObject bucket key data)) := by
  rw [ObjectMap.answer]
  split
  · rename_i hcreated
    cases hdata : collected data with
    | ok content =>
      obtain ⟨db, s2, hok, hsame, hdb, hblobs, hrun⟩ :=
        run_putObject_ok (D := D) h.ok hb ((h.bucket bucket).trans hcreated) key hdata
      have h1 : Represents D { s with db } m := h.of_same hok (fun _ he ht => Db.text_of_value hsame he ht) rfl
      exact ⟨s2, run_attempt_map_ok hrun _, h1.store hb key ⟨content, s.clock⟩ _ hdb hblobs⟩
    | error =>
      obtain ⟨s1, h1, -, hrun⟩ := run_withBucketStore h hcreated
      have hput := run_mapErr (M := machine D) PutObjectError.ofBlob (putBlob data) s1
      obtain ⟨_, hblobs, hblob⟩ := run_putBlob_error (D := D) (s := s1) hdata
      rw [hblob] at hput
      refine ⟨_, run_attempt_map_err ((hrun _ _).trans (run_bind_err hput _)) _, ?_⟩
      exact h1.of_same h1.ok (fun _ _ _ => rfl) hblobs
  · rename_i hcreated
    exact ⟨s, run_attempt_map_err (run_withBucketStore_none h (Bool.eq_false_iff.mpr hcreated) _ _) _, h⟩

lemma headObject_answers (h : Represents D s m) (hb : NulFree bucket) (key : String) :
    Answers D s (.headObject bucket key) (m.answer D s.clock (.headObject bucket key)) := by
  rw [ObjectMap.answer]
  split
  · rename_i hcreated
    obtain ⟨s1, h1, -, hrun⟩ := run_withBucketStore h hcreated
    cases hobj : m.objects bucket key with
    | none =>
      refine ⟨s1, run_attempt_map_err ?_ _, h1⟩
      rw [headObject, hrun, run_call (perform_getObject h1.ok hb key), if_pos (h1.isNone_object hb hobj)]
      rfl
    | some =>
      refine ⟨s1, run_attempt_map_ok ?_ _, h1⟩
      rw [headObject, hrun, run_call (perform_getObject h1.ok hb key), if_neg (h1.not_isNone_object hb hobj),
        run_metaToObj h1 hb hobj]
  · rename_i hcreated
    exact ⟨s, run_attempt_map_err (run_withBucketStore_none h (Bool.eq_false_iff.mpr hcreated) _ _) _, h⟩

lemma getObject_answers (h : Represents D s m) (hb : NulFree bucket) (key : String) :
    Answers D s (.getObject bucket key) (m.answer D s.clock (.getObject bucket key)) := by
  rw [ObjectMap.answer]
  split
  · rename_i hcreated
    obtain ⟨s1, h1, -, hrun⟩ := run_withBucketStore h hcreated
    cases hobj : m.objects bucket key with
    | none =>
      refine ⟨s1, run_attempt_map_err ?_ _, h1⟩
      rw [getObject, hrun, run_call (perform_getObject h1.ok hb key), if_pos (h1.isNone_object hb hobj)]
      rfl
    | some st =>
      have hblob := run_mapErr (M := machine D) GetObjectError.ofBlob (getBlob (D.sha256 st.content)) s1
      rw [run_getBlob (h1.blob bucket key st hobj)] at hblob
      refine ⟨s1, run_attempt_map_ok ?_ _, h1⟩
      rw [getObject, hrun, run_call (perform_getObject h1.ok hb key), if_neg (h1.not_isNone_object hb hobj),
        run_bind_ok (run_metaToObj h1 hb hobj)]
      exact (run_bind_ok hblob _).trans rfl
  · rename_i hcreated
    exact ⟨s, run_attempt_map_err (run_withBucketStore_none h (Bool.eq_false_iff.mpr hcreated) _ _) _, h⟩

lemma handle_answers (h : Represents D s m) (r : MapRequest) (hb : NulFree r.bucket) :
    Answers D s r (m.answer D s.clock r) := by
  cases r with
  | createBucket name => exact createBucket_answers h name
  | putObject _ key data => exact putObject_answers h hb key data
  | getObject _ key => exact getObject_answers h hb key
  | headObject _ key => exact headObject_answers h hb key

/-! ## Sequences of requests -/

/-- The responses to requests that are processed one at a time, each at its time. -/
def responses (D : Digests) (s : Backend) : List (OffsetDateTime × Request) → List (Outcome Empty Response)
  | [] => []
  | (now, r) :: rs =>
    let x := (machine D).run (S3.handle r) { s with clock := now }
    x.1 :: responses D x.2 rs

/-- A backend that has been started with no data. -/
def startedBackend (D : Digests) (clock : OffsetDateTime) : Backend :=
  ((machine D).run started ⟨.empty, .empty, clock, []⟩).2

/-- At the start only the types of stores are there. -/
lemma startedBackend_types (D : Digests) (clock : OffsetDateTime) : (startedBackend D clock).db.Ok ∧
    ∀ e : Entry, e.Ok → (∀ store, e ≠ .type store) → (startedBackend D clock).db.value e = none := by
  let s : Backend := ⟨.empty, .empty, clock, []⟩
  obtain ⟨db, hroot, hok, hsame⟩ := perform_getOrCreateKeyValueStore (D := D) (s := s) Db.ok_empty "root"
  rw [← rootStore_eq] at hroot
  have hnone (e : Entry) (he : e.Ok) (hne : e ≠ .type (bucketStore "root")) : db.value e = none := hsame e he hne
  have hblobs : perform D (.getOrCreateContentAddressableBlobStore "s3data") { s with db } =
      some (.ok "s3data",
        { s with db := db.put (Entry.type "s3data").key (utf8 StoreType.contentAddressableBlob.name) }) := by
    have htype : db.get (typeKey "s3data") = none := hnone (.type "s3data") trivial
      (fun h => bucketStore_ne "root" (Entry.type.inj h).symm)
    rw [perform, checkOrCreateStoreType, htype]
    rfl
  have hstarted : startedBackend D clock =
      { s with db := db.put (Entry.type "s3data").key (utf8 StoreType.contentAddressableBlob.name) } := by
    rw [startedBackend, started, run_call hroot, run_call hblobs]
    rfl
  rw [hstarted]
  refine ⟨hok.put (e := .type "s3data") trivial fun h => (h rfl).elim, fun e he hne => ?_⟩
  rw [Db.value_put (e := .type "s3data") trivial he, if_neg (Ne.symm (hne "s3data")), hnone e he (hne _)]

lemma startedBackend_represents (D : Digests) (clock : OffsetDateTime) :
    Represents D (startedBackend D clock) .empty := by
  obtain ⟨hok, hvalue⟩ := startedBackend_types D clock
  have htext (e : Entry) (he : e.Ok) (ht : e.isText = true) : (startedBackend D clock).db.text e = none := by
    rw [Db.text, hvalue e he (fun _ h => by subst h; cases ht)]
    rfl
  refine ⟨hok, fun name => ?_, fun bucket key hb => ?_, (fun _ _ _ _ h => by cases h), (fun _ _ _ h => by cases h)⟩
  · rw [htext (.bucket name) trivial rfl]
    rfl
  · rw [htext (.object bucket key) hb rfl]
    rfl

lemma responses_answers (h : Represents D s m) (hrs : ∀ r ∈ rs, NulFree r.2.bucket) :
    responses D s (rs.map fun r => (r.1, r.2.request)) = (m.answers D rs).map .ok := by
  induction rs generalizing s m with
  | nil => rfl
  | cons r _ ih =>
    obtain ⟨hr, hrs⟩ := forall_mem_cons.mp hrs
    have hnow : Represents D { s with clock := r.1 } m := h.of_same h.ok (fun _ _ _ => rfl) rfl
    obtain ⟨_, hrun, h'⟩ := handle_answers hnow r.2 hr
    rw [map_cons, responses, ObjectMap.answers, map_cons]
    simp only [hrun]
    rw [ih h' hrs]

/-- The object store is a map from buckets and keys to what was stored last, whatever the keys are. -/
theorem responses_eq_answers (D : Digests) (clock : OffsetDateTime) (rs : List (OffsetDateTime × MapRequest))
    (hrs : ∀ r ∈ rs, NulFree r.2.bucket) :
    responses D (startedBackend D clock) (rs.map fun r => (r.1, r.2.request)) =
      (ObjectMap.empty.answers D rs).map .ok :=
  responses_answers (startedBackend_represents D clock) hrs

/-- Sums that are the bytes themselves, as characters. -/
def byteText (bs : Bytes) : String := String.ofList ('b' :: bs.map Char.ofUInt8)

lemma byteText_injective (h : byteText bs = byteText bs') : bs = bs' := by
  have hlist := (List.cons.inj (String.ofList_inj.mp h)).2
  refine map_injective_iff.mpr (fun b b' hb => ?_) hlist
  have := congrArg Char.toNat hb
  exact UInt8.toNat_inj.mp this

def byteDigests : Digests where
  md5 := byteText
  sha256 := byteText
  sha256_injective := byteText_injective
  sha256_name bs := by
    have hhead (t : String) (h : byteText bs = t) : t.toList.head? = some 'b' := by
      rw [← h, byteText, String.toList_ofList, List.head?_cons]
    exact ⟨fun h => absurd (hhead "" h) (by decide), fun h => absurd (hhead "tmp" h) (by decide)⟩

/-- Keys of which one is the beginning of another, behind a NUL. -/
def nestedKeys : List (OffsetDateTime × MapRequest) :=
  let now : OffsetDateTime := ⟨1700000000, 5, by decide⟩
  [(now, .createBucket "root"), (now, .putObject "root" "a" [.ok [1, 2], .ok [3]]),
    (now, .putObject "root" "a\x00size" [.ok [4]]), (now, .headObject "root" "a"), (now, .getObject "root" "a\x00size"),
    (now, .getObject "root" "b"), (now, .headObject "bucket" "a")]

theorem responses_eq_answers_nested :
    (∀ r ∈ nestedKeys, NulFree r.2.bucket) ∧
      responses byteDigests (startedBackend byteDigests ⟨0, 0, by decide⟩)
          (nestedKeys.map fun r => (r.1, r.2.request)) =
        (ObjectMap.empty.answers byteDigests nestedKeys).map .ok :=
  ⟨by decide, responses_eq_answers byteDigests ⟨0, 0, by decide⟩ nestedKeys (by decide)⟩

end Dtn.Replistore
