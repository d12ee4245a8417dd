import Dtn.Proof.Replistore.Records

/-!
# The calls of the backend

What each call to a key-value store answers and changes, on a database of entries
(`Db.Ok`): no call panics. `withBucketStore` finds its bucket and opens its store
(`run_withBucketStore_open`), and `metaToObj` reads the metadata of an object
(`run_metaToObj_described`).
-/

namespace Dtn.Replistore

open List S3 KeyValueStore Db

variable {D : Digests} {s : Backend} {ε α : Type}
variable {e : Entry} {store bucket : String} {db : Db}

lemma run_call {β : Type} {c : Call β} {b : β} (h : perform D c s = some (b, s'))
    (f : β → Async Call ε α) : (machine D).run (.call c >>= f) s = (machine D).run (f b) s' :=
  Machine.run_call h f

@[simp] lemma run_ok_some {β : Type} (e : ε) (b : β) (f : β → Async Call ε α) :
    (machine D).run (ok e (some b) >>= f) s = (machine D).run (f b) s := rfl

/-! ## Calls that read -/

lemma perform_get (h : s.db.Ok) (he : e.Ok) (ht : e.isText = true)
    (hkey : getPath store key = e.key) : perform D (.get store key) s = some (s.db.text e, s) := by
  rw [perform, get_text h he ht hkey]
  rfl

lemma perform_getBucket (h : s.db.Ok) (name : String) :
    perform D (.get rootStore (bucketPath name)) s = some (s.db.text (.bucket name), s) :=
  perform_get h (e := .bucket name) trivial rfl rfl

lemma perform_getObject (h : s.db.Ok) (hb : NulFree bucket) (key : String) :
    perform D (.get (bucketStore bucket) (objectPath bucket key)) s = some (s.db.text (.object bucket key), s) :=
  perform_get h (e := .object bucket key) hb rfl rfl

lemma perform_listObjectmeta (h : s.db.Ok) (hb : NulFree bucket) (key : String) :
    ∃ t : Table String String, perform D (.list (bucketStore bucket) (objectmetaPath bucket key "")) s = some (t, s) ∧
      ∀ suffix, NulFree suffix → t.get suffix = s.db.text (.objectmeta bucket key suffix) := by
  simp_all [list_objectmeta, perform]

/-! ## Opening a store -/

lemma bucketStore_ne (bucket : String) : bucketStore bucket ≠ "s3data" := by
  intro h
  have hlist := congrArg (fun s => s.toList[2]?) h
  have hstore : (bucketStore bucket).toList = "s3metadata\x00".toList ++ bucket.toList := String.toList_append
  simp only [hstore] at hlist
  rw [List.getElem?_append_left (by decide)] at hlist
  revert hlist
  decide

/-- The store of a bucket is opened: only its type is written. -/
lemma perform_getOrCreateKeyValueStore (h : s.db.Ok) (bucket : String) :
    ∃ db, perform D (.getOrCreateKeyValueStore (bucketStore bucket)) s =
        some (.ok (bucketStore bucket), { s with db }) ∧ db.Ok ∧
      ∀ e : Entry, e.Ok → e ≠ .type (bucketStore bucket) → db.value e = s.db.value e := by
  have he : (Entry.type (bucketStore bucket)).Ok := trivial
  cases hv : s.db.get (typeKey (bucketStore bucket)) with
  | none =>
    refine ⟨s.db.put (typeKey (bucketStore bucket)) (utf8 StoreType.keyValue.name), ?_, ?_, ?_⟩
    · rw [perform, checkOrCreateStoreType, hv]
      rfl
    · exact h.put (e := .type (bucketStore bucket)) he fun _ => rfl
    · intro e he' hne
      exact (value_put (e := .type (bucketStore bucket)) he he' _).trans (if_neg (Ne.symm hne))
  | some bs =>
    have hbs : bs = utf8 StoreType.keyValue.name :=
      h.value (e := .type (bucketStore bucket)) he hv (bucketStore_ne bucket)
    refine ⟨s.db, ?_, h, fun _ _ _ => rfl⟩
    rw [perform, checkOrCreateStoreType, hv]
    simp only [if_pos hbs]
    rfl

/-! ## Parts of the handlers -/

lemma run_withBucketStore_absent (h : s.db.Ok) (hb : (s.db.text (.bucket bucket)).isSome = false) (e : ε)
    (handler : String → Async Call ε α) : (machine D).run (withBucketStore bucket e handler) s = (.err e, s) := by
  have hnone : (s.db.text (.bucket bucket)).isNone = true := by rw [← Option.not_isSome, hb]; rfl
  rw [withBucketStore, run_call (perform_getBucket h bucket), if_pos hnone]
  rfl

lemma run_withBucketStore_open (h : s.db.Ok) (hb : (s.db.text (.bucket bucket)).isSome = true) :
    ∃ db : Db, db.Ok ∧ (∀ e : Entry, e.Ok → e ≠ .type (bucketStore bucket) → db.value e = s.db.value e) ∧
      ∀ {ε α : Type} (e : ε) (handler : String → Async Call ε α),
        (machine D).run (withBucketStore bucket e handler) s =
          (machine D).run (handler (bucketStore bucket)) { s with db } := by
  have hsome : ¬ (s.db.text (.bucket bucket)).isNone = true := by rw [← Option.not_isSome, hb]; exact Bool.false_ne_true
  obtain ⟨db, hopen, hok, hsame⟩ := perform_getOrCreateKeyValueStore (D := D) h bucket
  refine ⟨db, hok, hsame, fun e handler => ?_⟩
  rw [withBucketStore, run_call (perform_getBucket h bucket), if_neg hsome, run_call hopen]

lemma Db.text_of_value {db' : Db} (h : ∀ e : Entry, e.Ok → e ≠ .type store → db'.value e = db.value e) (he : e.Ok)
    (ht : e.isText = true) : db'.text e = db.text e := by
  rw [text, h e he (fun htype => by subst htype; cases ht), text]

/-- What `metaToObj` makes of the metadata. -/
def described (entry : String → Option String) (key : String) : Outcome ε Object :=
  (OffsetDateTime.fromUnixTimestamp (((entry "last_modified").bind parseI64).getD 0)).elim .panic
    fun lastModified => .ok {
    key
    md5sum := (entry "md5sum").getD ""
    sha256sum := (entry "sha256sum").getD ""
    lastModified
    size := ((entry "size").bind parseU64).getD 0 }

lemma described_congr (h : ∀ suffix, NulFree suffix → entry suffix = entry' suffix)
    (key : String) : (described entry key : Outcome ε Object) = described entry' key := by simp_all [described, NulFree]

lemma run_metaToObj_described (h : s.db.Ok) (hb : NulFree bucket) (key : String) :
    (machine D).run (metaToObj (ε := ε) (bucketStore bucket) bucket key) s =
      (described (fun suffix => s.db.text (.objectmeta bucket key suffix)) key, s) := by
  obtain ⟨_, ht, hget⟩ := perform_listObjectmeta (D := D) h hb key
  rw [metaToObj, run_call ht]
  simp only [hget _ (show NulFree "last_modified" by decide), hget _ (show NulFree "md5sum" by decide),
    hget _ (show NulFree "sha256sum" by decide), hget _ (show NulFree "size" by decide), described]
  cases OffsetDateTime.fromUnixTimestamp _ <;> rfl

/-! ## Calls that write -/

/-- A bucket is entered, with a version. -/
def Db.createBucket (db : Db) (name : String) (n : UInt64) : Db :=
  (db.put (Entry.bucket name).key (utf8 "")).put (Entry.version "root" name).key (toLeBytes n)

lemma Db.Ok.createBucket (h : db.Ok) (name : String) (n : UInt64) : (db.createBucket name n).Ok :=
  (h.put (e := .bucket name) trivial ⟨"", rfl⟩).put (e := .version "root" name) (show NulFree "root" by decide)
    (length_toLeBytes n)

lemma Db.text_createBucket (name : String) (n : UInt64) (he : e.Ok) (ht : e.isText = true) :
    (db.createBucket name n).text e = if .bucket name = e then some "" else db.text e := by
  rw [createBucket, text_put_of_ne (e := .version "root" name) (show NulFree "root" by decide) he
    (fun h => by subst h; cases ht), text_put (e := .bucket name) trivial he]

lemma perform_setBucket (h : s.db.Ok) (name : String) :
    perform D (.set rootStore (bucketPath name) "" (bucketVersionPath name)) s =
      some (s.db.nextVersion "root" name,
        { s with db := s.db.createBucket name (s.db.nextVersion "root" name) }) := by
  have hn := bumpVersion_ok h (show NulFree "root" by decide) name (s.db.put (Entry.bucket name).key (utf8 ""))
  rw [← rootStore_eq] at hn
  rw [perform, KeyValueStore.set]
  exact congrArg (Backend.changeDb s) hn

/-- The entries of an object. -/
def objectRecords (bucket key : String) (info : BlobInfo) (lastModified : OffsetDateTime) : List (Entry × String) :=
  [(.object bucket key, ""),
    (.objectmeta bucket key "last_modified", toString lastModified.unixTimestamp),
    (.objectmeta bucket key "md5sum", info.md5sum),
    (.objectmeta bucket key "sha256sum", info.sha256sum),
    (.objectmeta bucket key "size", toString info.size.toNat)]

lemma objectRecords_ok (hb : NulFree bucket) (key : String) (info : BlobInfo) (lastModified : OffsetDateTime) :
    ∀ r ∈ objectRecords bucket key info lastModified, r.1.Ok ∧ r.1.isText = true := by
  simp only [objectRecords, forall_mem_cons]
  exact ⟨⟨hb, rfl⟩, ⟨⟨hb, by decide⟩, rfl⟩, ⟨⟨hb, by decide⟩, rfl⟩, ⟨⟨hb, by decide⟩, rfl⟩,
    ⟨⟨hb, by decide⟩, rfl⟩, forall_mem_nil _⟩

lemma objectRecords_nodup (bucket key : String) (info : BlobInfo) (lastModified : OffsetDateTime) :
    ((objectRecords bucket key info lastModified).map Prod.fst).Nodup := by
  simp [objectRecords]

lemma mem_objectRecords (h : e ∈ (objectRecords bucket key info lastModified).map Prod.fst) :
    e = .object bucket key ∨ ∃ suffix, e = .objectmeta bucket key suffix := by grind [objectRecords]

/-- The database with the entries of an object. -/
def Db.putObject (db : Db) (bucket key : String) (info : BlobInfo) (lastModified : OffsetDateTime) (n : UInt64) : Db :=
  (db.putAll (objectRecords bucket key info lastModified)).put (Entry.version bucket bucket).key (toLeBytes n)

section putObject

variable {db : Db} {bucket : String} (hb : NulFree bucket) (key : String) (info : BlobInfo)
    (lastModified : OffsetDateTime)
  (n : UInt64)

include hb

lemma Db.Ok.putObject (h : db.Ok) : (db.putObject bucket key info lastModified n).Ok :=
  (h.putAll (objectRecords_ok hb key info lastModified)).put (e := .version bucket bucket) hb (length_toLeBytes n)

/-- The version is no text, so of the texts only those of the object are new. -/
lemma Db.text_putObject_eq (he : e.Ok) (ht : e.isText = true) :
    (db.putObject bucket key info lastModified n).text e =
      (db.putAll (objectRecords bucket key info lastModified)).text e :=
  text_put_of_ne (e := .version bucket bucket) hb he (fun h => by subst h; cases ht) _

lemma Db.text_putObject_of_not_mem (he : e.Ok) (ht : e.isText = true)
    (hmem : e ∉ (objectRecords bucket key info lastModified).map Prod.fst) :
    (db.putObject bucket key info lastModified n).text e = db.text e := by
  rw [text_putObject_eq hb key info lastModified n he ht, text,
    value_putAll_of_not_mem (fun r hr => (objectRecords_ok hb key info lastModified r hr).1) he hmem, text]

lemma Db.text_putObject_of_ne (db : Db) (he : e.Ok) (ht : e.isText = true) (hobject : e ≠ .object bucket key)
    (hmeta : ∀ suffix, e ≠ .objectmeta bucket key suffix) :
    (db.putObject bucket key info lastModified n).text e = db.text e := by
  grind [text_putObject_of_not_mem, mem_objectRecords]

lemma Db.text_putObject_of_mem (hr : r ∈ objectRecords bucket key info lastModified) :
    (db.putObject bucket key info lastModified n).text r.1 = some r.2 := by
  have hok := objectRecords_ok hb key info lastModified
  rw [text_putObject_eq hb key info lastModified n (hok r hr).1 (hok r hr).2,
    text_putAll (fun r hr => (hok r hr).1) (objectRecords_nodup bucket key info lastModified) hr]

end putObject

lemma perform_multiSet (h : s.db.Ok) (hb : NulFree bucket) (key : String) (info : BlobInfo)
    (lastModified : OffsetDateTime) :
    perform D (.multiSet (bucketStore bucket) (objectEntries bucket key info lastModified)
      (bucketVersionPath bucket)) s =
      some (s.db.nextVersion bucket bucket,
        { s with db := s.db.putObject bucket key info lastModified (s.db.nextVersion bucket bucket) }) := by
  have hn := bumpVersion_ok h hb bucket (s.db.putAll (objectRecords bucket key info lastModified))
  rw [perform, KeyValueStore.multiSet]
  exact congrArg (Backend.changeDb s) hn

/-- The database without the entries under the paths of an object. -/
def Db.deleteObject (db : Db) (bucket key : String) (n : UInt64) : Db :=
  (db.deleteUnder (bucketStore bucket) [objectPath bucket key, objectmetaPath bucket key ""]).put
    (Entry.version bucket bucket).key (toLeBytes n)

section deleteObject

variable {db : Db} {bucket : String} (hb : NulFree bucket) (key : String) (n : UInt64)

include hb

lemma Db.Ok.deleteObject (h : db.Ok) : (db.deleteObject bucket key n).Ok :=
  (h.foldl_delete _).put (e := .version bucket bucket) hb (length_toLeBytes n)

lemma Db.text_deleteObject_of_under (he : e.Ok) (ht : e.isText = true)
    (h : Under (bucketStore bucket) [objectPath bucket key, objectmetaPath bucket key ""] e.key) :
    (db.deleteObject bucket key n).text e = none := by
  rw [deleteObject, text_put_of_ne (e := .version bucket bucket) hb he (fun h => by subst h; cases ht), text,
    value, get_deleteUnder_of_under h]
  rfl

lemma Db.text_deleteObject_of_not_under (he : e.Ok) (ht : e.isText = true)
    (h : ¬ Under (bucketStore bucket) [objectPath bucket key, objectmetaPath bucket key ""] e.key) :
    (db.deleteObject bucket key n).text e = db.text e := by
  rw [deleteObject, text_put_of_ne (e := .version bucket bucket) hb he (fun h => by subst h; cases ht), text,
    value, get_deleteUnder_of_not_under h, text, value]

end deleteObject

/-- What is deleted with an object: objects whose keys begin with its key, and metadata. -/
lemma under_object_iff (hb : NulFree bucket) (key : String) (he : e.Ok) :
    Under (bucketStore bucket) [objectPath bucket key, objectmetaPath bucket key ""] e.key ↔
      (∃ r, e = .object bucket (key ++ r)) ∨
        ∃ key' suffix r, e = .objectmeta bucket key' suffix ∧ key' ++ ("\x00" ++ suffix) = key ++ ("\x00" ++ r) := by
  constructor
  · rintro ⟨_, hpath, r, hr⟩
    simp only [mem_cons, not_mem_nil, or_false] at hpath
    obtain rfl | rfl := hpath
    · exact .inl ⟨r, Entry.object_of_start he hb hr⟩
    · obtain ⟨key', suffix, rfl, h⟩ := Entry.objectmeta_of_start he hb hr
      exact .inr ⟨key', suffix, r, rfl, h⟩
  · rintro (⟨r, rfl⟩ | ⟨key', suffix, r, rfl, h⟩)
    · exact ⟨_, mem_cons_self, r, Entry.key_object_append bucket key r⟩
    · refine ⟨_, mem_cons_of_mem _ mem_cons_self, r, ?_⟩
      rw [Entry.key_eq_storeKey (e := .objectmeta bucket key' suffix) rfl, h,
        ← Entry.key_eq_storeKey (e := .objectmeta bucket key r) rfl]
      exact (Entry.key_objectmeta_append bucket key r).symm

/-- An object that stays keeps its metadata. -/
lemma not_under_objectmeta (hb : NulFree bucket) (key : String) (hb' : NulFree bucket') (hs : NulFree suffix)
    (h : ¬ Under (bucketStore bucket) [objectPath bucket key, objectmetaPath bucket key ""]
      (Entry.object bucket' key').key) :
    ¬ Under (bucketStore bucket) [objectPath bucket key, objectmetaPath bucket key ""]
      (Entry.objectmeta bucket' key' suffix).key := by
  rw [under_object_iff hb key (e := .object bucket' key') hb'] at h
  rw [under_object_iff hb key (e := .objectmeta bucket' key' suffix) ⟨hb', hs⟩]
  rintro (⟨r, heq⟩ | ⟨key'', suffix', r, heq, hsplit⟩)
  · cases heq
  · cases heq
    -- The NUL behind the deleted key is not in the suffix, so the other key begins with the deleted one.
    obtain ⟨r', hr'⟩ := start_of_nul_append hs hsplit
    exact h (.inl ⟨r', by rw [hr']⟩)

lemma perform_multiDelete (h : s.db.Ok) (hb : NulFree bucket) (key : String) :
    perform D (.multiDelete (bucketStore bucket) [objectPath bucket key, objectmetaPath bucket key ""]
        (bucketVersionPath bucket)) s =
      some (s.db.nextVersion bucket bucket,
        { s with db := s.db.deleteObject bucket key (s.db.nextVersion bucket bucket) }) := by
  have hn := bumpVersion_ok h hb bucket
    (s.db.deleteUnder (bucketStore bucket) [objectPath bucket key, objectmetaPath bucket key ""])
  rw [perform, KeyValueStore.multiDelete]
  exact congrArg (Backend.changeDb s) hn

end Dtn.Replistore
