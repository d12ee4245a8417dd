import Dtn.Proof.Replistore.Blobs

/-!
# What the calls of the handlers do to the database

`Changed` says what a call makes of the database: a bucket or an object is
entered or an object deleted, each with the next version of its bucket, or no
entry but the type of a store is another one (`perform_changed`). So while the
names of buckets have no NUL the database is sound in every run, whatever becomes
of the blobs (`sound_of_reaches`).
-/

namespace Dtn.Replistore

open S3 KeyValueStore

variable {β : Type} {c : Call β}

/-- Names of buckets have no NUL. -/
def Named (_ : Requests) : PoolEvent Call Request Response → Prop
  | .request r => ∀ name ∈ r.bucketName, NulFree name
  | _ => True

/-- The database after a call. -/
def Changed : {β : Type} → Call β → Db → Db → Prop
  | _, .set store key _ versionPath, db, db' => ∃ name, NulFree name ∧ store = rootStore ∧ key = bucketPath name ∧
      versionPath = bucketVersionPath name ∧ db' = db.createBucket name (db.nextVersion "root" name)
  | _, .multiSet store _ versionPath, db, db' => ∃ bucket key info lastModified, NulFree bucket ∧
      store = bucketStore bucket ∧ versionPath = bucketVersionPath bucket ∧
      db' = db.putObject bucket key info lastModified (db.nextVersion bucket bucket)
  | _, .multiDelete store _ versionPath, db, db' => ∃ bucket key, NulFree bucket ∧ store = bucketStore bucket ∧
      versionPath = bucketVersionPath bucket ∧ db' = db.deleteObject bucket key (db.nextVersion bucket bucket)
  | _, .getOrCreateKeyValueStore name, db, db' => db'.Ok ∧
      ∀ e : Entry, e.Ok → e ≠ .type name → db'.value e = db.value e
  | _, _, db, db' => db' = db

variable {D : Digests} {s s' : Backend} {g : Option String} {db db' : Db}

lemma changeFiles_db (h : s.changeFiles files = (b, s')) : s'.db = s.db := by
  cases files <;> cases h <;> rfl

lemma perform_changed (h : s.db.Ok) (hc : Expected g c)
    (hperform : perform D c s = some (b, s')) : Changed c s.db s'.db := by
  cases c with
  | set =>
    obtain ⟨name, hn, rfl, rfl, rfl, rfl⟩ := hc
    cases (perform_setBucket h name).symm.trans hperform
    exact ⟨name, hn, rfl, rfl, rfl, rfl⟩
  | multiSet =>
    obtain ⟨bucket, key, info, lastModified, hb, rfl, rfl, rfl, rfl⟩ := hc
    cases (perform_multiSet h hb key info lastModified).symm.trans hperform
    exact ⟨bucket, key, info, lastModified, hb, rfl, rfl, rfl⟩
  | multiDelete =>
    obtain ⟨bucket, key, hb, rfl, rfl, rfl⟩ := hc
    cases (perform_multiDelete h hb key).symm.trans hperform
    exact ⟨bucket, key, hb, rfl, rfl, rfl⟩
  | getOrCreateKeyValueStore =>
    obtain ⟨bucket, rfl⟩ := hc
    obtain ⟨_, hopen, hok, hsame⟩ := perform_getOrCreateKeyValueStore (D := D) h bucket
    cases hopen.symm.trans hperform
    exact ⟨hok, hsame⟩
  | getOrCreateContentAddressableBlobStore => exact hc.elim
  | get | list =>
    obtain ⟨_, _, heq⟩ := Option.map_eq_some_iff.mp hperform
    cases heq
    rfl
  | rename | removeFile =>
    exact changeFiles_db (Option.some.inj hperform)
  | _ =>
    cases hperform
    rfl

/-! ## Sound databases -/

/-- The keys stand for entries, of buckets whose names have no NUL. -/
structure Db.Sound (db : Db) : Prop where
  ok : db.Ok
  names : ∀ name, (db.text (.bucket name)).isSome = true → NulFree name

lemma not_under_bucket (hb : NulFree bucket) (key name : String) :
    ¬ Under (bucketStore bucket) [objectPath bucket key, objectmetaPath bucket key ""] (Entry.bucket name).key := by
  rw [under_object_iff hb key (e := .bucket name) trivial]
  rintro (⟨r, heq⟩ | ⟨key', suffix, r, heq, -⟩) <;> cases heq

/-- The bucket that a call enters. -/
def Call.created : {β : Type} → Call β → Option String
  | _, .set _ key _ _ => key[1]?
  | _, _ => none

/-- The buckets are the same, but for one that is entered. -/
lemma Changed.text_bucket (h : Changed c db db') (name : String) :
    db'.text (.bucket name) = if c.created = some name then some "" else db.text (.bucket name) := by
  cases c with
  | set =>
    obtain ⟨name', -, -, rfl, -, rfl⟩ := h
    rw [Db.text_createBucket name' _ (e := .bucket name) trivial rfl]
    simp [Call.created, bucketPath]
  | multiSet =>
    obtain ⟨bucket, key, info, lastModified, hb, -, -, rfl⟩ := h
    exact Db.text_putObject_of_ne hb key info lastModified _ _ (e := .bucket name) trivial rfl
      (fun heq => by cases heq) fun _ heq => by cases heq
  | multiDelete =>
    obtain ⟨bucket, key, hb, -, -, rfl⟩ := h
    exact Db.text_deleteObject_of_not_under hb key _ (e := .bucket name) trivial rfl (not_under_bucket hb key name)
  | getOrCreateKeyValueStore => exact Db.text_of_value h.2 (e := .bucket name) trivial rfl
  | _ => rw [show db' = db from h]; rfl

lemma Db.Sound.changed (h : db.Sound) (hc : Changed c db db') : db'.Sound := by
  have hok : db'.Ok ∧ ∀ name, c.created = some name → NulFree name := by
    cases c with
    | set =>
      obtain ⟨name, hn, -, rfl, -, rfl⟩ := hc
      exact ⟨h.ok.createBucket name _, fun name' heq => Option.some.inj heq ▸ hn⟩
    | multiSet =>
      obtain ⟨bucket, key, info, lastModified, hb, -, -, rfl⟩ := hc
      exact ⟨h.ok.putObject hb key info lastModified _, fun _ heq => by cases heq⟩
    | multiDelete =>
      obtain ⟨_, key, hb, -, -, rfl⟩ := hc
      exact ⟨h.ok.deleteObject hb key _, fun _ heq => by cases heq⟩
    | getOrCreateKeyValueStore => exact ⟨hc.1, fun _ heq => by cases heq⟩
    | _ => exact ⟨hc ▸ h.ok, fun _ heq => by cases heq⟩
  refine ⟨hok.1, fun name hname => ?_⟩
  rw [hc.text_bucket] at hname
  split at hname
  · rename_i hcreated
    exact hok.2 name hcreated
  · exact h.names name hname

lemma service_sound (D : Digests) : (service D).Keeps Expected Possible (fun s _ => s.db.Sound) Named where
  request _ _ hr := outlined_handle hr
  start _ _ h := h
  answer c b s s' gs g h hc hperform := possible_of_perform h.ok hc hperform
  call p _ c b s' gs hs g h _ hc _ hperform := h.changed (perform_changed h.ok hc hperform)
  finish _ _ _ _ h := h
  pass s s' _ hs h := by
    obtain ⟨_, rfl⟩ := hs
    exact h

lemma startedBackend_sound (D : Digests) (clock : OffsetDateTime) : (startedBackend D clock).db.Sound where
  ok := (startedBackend_represents D clock).ok
  names name hname := by
    rw [(startedBackend_represents D clock).bucket] at hname
    cases hname

lemma sound_of_reaches (h : ((service D).system (startedBackend D clock)).Reaches Named p) : p.state.db.Sound :=
  (Service.reaches_invariant (service_sound D) (startedBackend_sound D clock) h).inv

/-- The state after requests that are processed one after the other. -/
def afterRequests (rs : List Request) : Option Backend :=
  (service byteDigests).served (fun _ _ _ => true) (startedBackend byteDigests startTime) rs

lemma run_afterRequests (rs : List Request) (hrs : ∀ r ∈ rs, ∀ name ∈ r.bucketName, NulFree name)
    (hs : afterRequests rs = some s) :
    (((service byteDigests).system (startedBackend byteDigests startTime)).only Named).Run
      ⟨startedBackend byteDigests startTime, []⟩
      ((service byteDigests).history (startedBackend byteDigests startTime) rs) ⟨s, []⟩ :=
  Service.run_history (fun _ _ _ _ _ _ => trivial) (fun _ _ => trivial) (fun r hr _ => hrs r hr) hs

lemma reaches_afterRequests (rs : List Request) (hrs : ∀ r ∈ rs, ∀ name ∈ r.bucketName, NulFree name)
    (hs : afterRequests rs = some s) :
    ((service byteDigests).system (startedBackend byteDigests startTime)).Reaches Named ⟨s, []⟩ :=
  (run_afterRequests rs hrs hs).reaches (.init rfl)

end Dtn.Replistore
