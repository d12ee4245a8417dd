import Dtn.Proof.Replistore.Sound

/-!
# What a deletion takes with it

`deleteObject` deletes what is under the path of the object, and with it every
object of the bucket whose key begins with the deleted key; the metadata of these
objects stay. All other objects are what they were. So a deletion leaves the other
objects alone exactly if none of them has such a key (`deletesOnly_iff`).
-/

namespace Dtn.Replistore

open S3 KeyValueStore

/-- The bucket is there, and has an object with this key. -/
def Backend.hasObject (s : Backend) (bucket key : String) : Bool :=
  (s.db.get (getPath rootStore (bucketPath bucket))).isSome &&
    (s.db.get (getPath (bucketStore bucket) (objectPath bucket key))).isSome

/-- All other objects are there as before and have the same metadata, and the object is not found any more. -/
structure DeletesOnly (D : Digests) (bucket key : String) (s s' : Backend) : Prop where
  others : ∀ bucket' key', (bucket', key') ≠ (bucket, key) →
    s'.hasObject bucket' key' = s.hasObject bucket' key' ∧
      ((machine D).run (headObject bucket' key') s').1 = ((machine D).run (headObject bucket' key') s).1
  gone : ((machine D).run (headObject bucket key) s').1 = .err .objectNotFound

variable {D : Digests} {s s' : Backend} {bucket key : String}

/-! ## Objects of a sound database -/

lemma hasObject_eq (h : s.db.Sound) (bucket key : String) :
    s.hasObject bucket key =
      ((s.db.text (.bucket bucket)).isSome && (s.db.text (.object bucket key)).isSome) := by
  have hbucket : (s.db.get (getPath rootStore (bucketPath bucket))).isSome = (s.db.text (.bucket bucket)).isSome :=
    h.ok.isSome_value (e := .bucket bucket) trivial rfl
  rw [Backend.hasObject, hbucket]
  cases hb : (s.db.text (.bucket bucket)).isSome with
  | false => rfl
  | true =>
    have hobject := h.ok.isSome_value (e := .object bucket key) (h.names bucket hb) rfl
    exact hobject

lemma run_headObject (h : s.db.Sound) (bucket key : String) :
    ((machine D).run (headObject bucket key) s).1 =
      if (s.db.text (.bucket bucket)).isSome = false then .err .bucketNotFound
      else if (s.db.text (.object bucket key)).isSome = false then .err .objectNotFound
      else described (fun suffix => s.db.text (.objectmeta bucket key suffix)) key := by
  cases hb : (s.db.text (.bucket bucket)).isSome with
  | false => rw [headObject, run_withBucketStore_absent h.ok hb, if_pos rfl]
  | true =>
    have hn := h.names bucket hb
    obtain ⟨db, hok, hsame, hrun⟩ := run_withBucketStore_open (D := D) h.ok hb
    have htext {e} (he : e.Ok) (ht : e.isText = true) : db.text e = s.db.text e := Db.text_of_value hsame he ht
    rw [if_neg Bool.true_eq_false.mp, headObject, hrun, run_call (perform_getObject hok hn key),
      htext (e := .object bucket key) hn rfl, ← Option.not_isSome]
    cases ho : (s.db.text (.object bucket key)).isSome with
    | false => rfl
    | true =>
      rw [if_neg (by decide), if_neg (by decide), run_metaToObj_described hok hn]
      exact described_congr (fun suffix hs => htext (e := .objectmeta bucket key suffix) ⟨hn, hs⟩ rfl) key

/-- `HeadObject` answers the same where the entries of the object are the same. -/
lemma run_headObject_congr (h : s.db.Sound) (h' : s'.db.Sound)
    (hbucket : s'.db.text (.bucket bucket) = s.db.text (.bucket bucket))
    (hobject : NulFree bucket → (s'.db.text (.object bucket key)).isSome = (s.db.text (.object bucket key)).isSome)
    (hmeta : NulFree bucket → (s.db.text (.object bucket key)).isSome = true → ∀ suffix, NulFree suffix →
      s'.db.text (.objectmeta bucket key suffix) = s.db.text (.objectmeta bucket key suffix)) :
    ((machine D).run (headObject bucket key) s').1 = ((machine D).run (headObject bucket key) s).1 := by
  rw [run_headObject h, run_headObject h', hbucket]
  split
  · rfl
  rename_i hb
  have hn := h.names bucket (Bool.not_eq_false _ ▸ hb)
  rw [hobject hn]
  split
  · rfl
  rename_i ho
  exact described_congr (hmeta hn (Bool.not_eq_false _ ▸ ho)) key

lemma described_ne_err {ε : Type} (entry : String → Option String) (key : String) (e : ε) :
    described entry key ≠ .err e := by
  rw [described]
  cases OffsetDateTime.fromUnixTimestamp (((entry "last_modified").bind parseI64).getD 0) <;> simp

/-! ## The deletion -/

lemma run_deleteBlob_db (sum : String) (s : Backend) : ((machine D).run (deleteBlob sum) s).2.db = s.db := by
  have hmeta : perform D (.metadata sum) s = some (s.files.metadata sum, s) := rfl
  rw [deleteBlob, run_call hmeta]
  cases s.files.metadata sum with
  | none => rfl
  | some =>
    rw [run_ok_some]
    split
    · rfl
    · have hremove : perform D (.removeFile sum) s = some (s.changeFiles (s.files.remove sum)) := rfl
      cases hfiles : s.files.remove sum with
      | none | some =>
        rw [hfiles] at hremove
        rw [run_call hremove]
        rfl

/-- What has become of the database when a request to delete an object of a bucket is done. -/
lemma run_deleteObject (h : s.db.Sound) (hrun : (machine D).run (deleteObject bucket key) s = (r, s'))
    (hpanic : r ≠ .panic) (hfound : r ≠ .err .bucketNotFound) :
    (s.db.text (.bucket bucket)).isSome = true ∧ ∃ db : Db, db.Ok ∧
      (∀ e : Entry, e.Ok → e.isText = true → db.text e = s.db.text e) ∧
      if (s.db.text (.object bucket key)).isSome = true then ∃ n, s'.db = db.deleteObject bucket key n
      else s'.db = db := by
  cases hb : (s.db.text (.bucket bucket)).isSome with
  | false => grind [h.ok, run_withBucketStore_absent, deleteObject]
  | true =>
    have hn := h.names bucket hb
    obtain ⟨db, hok, hsame, hopen⟩ := run_withBucketStore_open (D := D) h.ok hb
    have htext (e : Entry) (he : e.Ok) (ht : e.isText = true) : db.text e = s.db.text e := Db.text_of_value hsame he ht
    refine ⟨rfl, db, hok, htext, ?_⟩
    rw [deleteObject, hopen, run_call (perform_getObject hok hn key), htext (.object bucket key) hn rfl,
      ← Option.not_isSome] at hrun
    cases ho : (s.db.text (.object bucket key)).isSome with
    | false =>
      rw [ho] at hrun
      cases hrun
      rfl
    | true =>
      rw [ho, if_neg (by decide), Machine.run_bind, run_metaToObj_described hok hn] at hrun
      refine ⟨db.nextVersion bucket bucket, ?_⟩
      cases hmeta : (described (fun suffix => db.text (.objectmeta bucket key suffix)) key :
          Outcome DeleteObjectError Object) with
      | ok metadata =>
        rw [hmeta] at hrun
        have hdelete := perform_multiDelete (D := D) (s := { s with db }) hok hn key
        have hblob := run_deleteBlob_db (D := D) metadata.sha256sum
        dsimp only at hrun
        rw [run_call hdelete, run_call rfl, Machine.run_mapErr] at hrun
        rw [← congrArg (fun x => Backend.db x.2) hrun]
        exact hblob _
      | err e => exact absurd hmeta (described_ne_err _ key e)
      | panic => grind

/-- An object that is not there: nothing is deleted. -/
lemma DeletesOnly.of_same (h : s.db.Sound) (h' : s'.db.Sound) (hb : (s.db.text (.bucket bucket)).isSome = true)
    (hobject : (s.db.text (.object bucket key)).isSome = false)
    (htext : ∀ e : Entry, e.Ok → e.isText = true → s'.db.text e = s.db.text e) : DeletesOnly D bucket key s s' := by
  have hbucket (name : String) := htext (.bucket name) trivial rfl
  have hsame (bucket' key' : String) (hn : NulFree bucket') := htext (.object bucket' key') hn rfl
  refine ⟨fun bucket' key' _ => ⟨?_, run_headObject_congr h h' (hbucket bucket') (fun hn => ?_) ?_⟩, ?_⟩
  · rw [hasObject_eq h, hasObject_eq h', hbucket]
    cases hb' : (s.db.text (.bucket bucket')).isSome with
    | false => rfl
    | true => rw [hsame bucket' key' (h.names bucket' hb')]
  · rw [hsame bucket' key' hn]
  · exact fun hn _ suffix hs => htext (.objectmeta bucket' key' suffix) ⟨hn, hs⟩ rfl
  · rw [run_headObject h', hbucket, hb, if_neg (by decide), hsame bucket key (h.names bucket hb), if_pos hobject]

lemma Db.Sound.of_same {db db' : Db} (h : db.Sound) (hok : db'.Ok)
    (htext : ∀ e : Entry, e.Ok → e.isText = true → db'.text e = db.text e) : db'.Sound where
  ok := hok
  names name hname := h.names name (by rwa [htext (.bucket name) trivial rfl] at hname)

lemma Db.Sound.deleteObject {db : Db} (h : db.Sound) (hb : NulFree bucket) (key : String)
    (n : UInt64) : (db.deleteObject bucket key n).Sound where
  ok := h.ok.deleteObject hb key n
  names name hname := by
    rw [Db.text_deleteObject_of_not_under hb key n (e := .bucket name) trivial rfl (not_under_bucket hb key name)]
      at hname
    exact h.names name hname

/-- The object is deleted, and with it those whose keys begin with its key. -/
lemma deletesOnly_deleteObject_iff (h : s.db.Sound) (hb : (s.db.text (.bucket bucket)).isSome = true) {db : Db}
    (hok : db.Ok) (htext : ∀ e : Entry, e.Ok → e.isText = true → db.text e = s.db.text e) {n : UInt64}
    (hdb : s'.db = db.deleteObject bucket key n) :
    DeletesOnly D bucket key s s' ↔ ∀ r, r ≠ "" → s.hasObject bucket (key ++ r) = false := by
  have hn := h.names bucket hb
  have h' : s'.db.Sound := hdb ▸ (h.of_same hok htext).deleteObject hn key n
  have hstays {e} (he : e.Ok) (ht : e.isText = true)
      (hnot : ¬ Under (bucketStore bucket) [objectPath bucket key, objectmetaPath bucket key ""] e.key) :
      s'.db.text e = s.db.text e := by grind [Db.text_deleteObject_of_not_under]
  have hbucket (name : String) : s'.db.text (.bucket name) = s.db.text (.bucket name) :=
    hstays (e := .bucket name) trivial rfl (not_under_bucket hn key name)
  have hunder (bucket' key' : String) (hn' : NulFree bucket') :
      Under (bucketStore bucket) [objectPath bucket key, objectmetaPath bucket key ""] (Entry.object bucket' key').key ↔
        ∃ r, bucket' = bucket ∧ key' = key ++ r := by
    rw [under_object_iff hn key (e := .object bucket' key') hn']
    simp
  have hgone (r : String) : (s'.db.text (.object bucket (key ++ r))).isSome = false := by
    rw [hdb, Db.text_deleteObject_of_under hn key n (e := .object bucket (key ++ r)) hn rfl
      ((hunder bucket (key ++ r) hn).mpr ⟨r, rfl, rfl⟩)]
    rfl
  constructor
  · intro hdeletes r hr
    have hne : (bucket, key ++ r) ≠ (bucket, key) := by simp_all
    rw [← (hdeletes.others bucket (key ++ r) hne).1, hasObject_eq h', hgone, Bool.and_false]
  · intro hnone
    -- another object is either not deleted or was not there
    have hobject (bucket' key' : String) (hn' : NulFree bucket') (hne : (bucket', key') ≠ (bucket, key)) :
        (s'.db.text (.object bucket' key')).isSome = (s.db.text (.object bucket' key')).isSome := by
      by_cases hu : Under (bucketStore bucket) [objectPath bucket key, objectmetaPath bucket key ""]
          (Entry.object bucket' key').key
      · grind [String.append_empty, hasObject_eq]
      · rw [hstays (e := .object bucket' key') hn' rfl hu]
    refine ⟨fun bucket' key' hne => ⟨?_, run_headObject_congr h h' (hbucket bucket')
      (fun hn' => hobject bucket' key' hn' hne) fun hn' ho suffix hs => ?_⟩, ?_⟩
    · rw [hasObject_eq h, hasObject_eq h', hbucket]
      cases hb' : (s.db.text (.bucket bucket')).isSome with
      | false => rfl
      | true => rw [hobject bucket' key' (h.names bucket' hb') hne]
    · have hnot : ¬ Under (bucketStore bucket) [objectPath bucket key, objectmetaPath bucket key ""]
          (Entry.object bucket' key').key := by grind
      exact hstays (e := .objectmeta bucket' key' suffix) ⟨hn', hs⟩ rfl (not_under_objectmeta hn key hn' hs hnot)
    · have hgone := hgone ""
      rw [String.append_empty] at hgone
      rw [run_headObject h', hbucket, hb, if_neg (by decide), if_pos hgone]

/-- A deletion that is done has deleted nothing else, exactly if there was no such object or no object of the
bucket has a longer key that begins with the deleted one. -/
theorem deletesOnly_iff (D : Digests) (clock : OffsetDateTime) {p : Requests}
    (hp : ((service D).system (startedBackend D clock)).Reaches Named p) {bucket key : String}
    {r : Outcome DeleteObjectError Unit} {s' : Backend}
    (hrun : (machine D).run (deleteObject bucket key) p.state = (r, s')) (hpanic : r ≠ .panic)
    (hfound : r ≠ .err .bucketNotFound) :
    DeletesOnly D bucket key p.state s' ↔
      p.state.hasObject bucket key = false ∨ ∀ r, r ≠ "" → p.state.hasObject bucket (key ++ r) = false := by
  have h := sound_of_reaches hp
  obtain ⟨hb, db, hok, htext, hdb⟩ := run_deleteObject h hrun hpanic hfound
  rw [hasObject_eq h bucket key, hb, Bool.true_and]
  split at hdb
  · grind [deletesOnly_deleteObject_iff]
  · rename_i ho
    have ho : (p.state.db.text (.object bucket key)).isSome = false := Bool.eq_false_iff.mpr ho
    rw [← hdb] at hok htext
    exact iff_of_true (.of_same h (h.of_same hok htext) hb ho htext) (.inl ho)

/-- A bucket with two objects, of which one key begins with the other one. -/
def nestedObjects : List Request :=
  [.createBucket "bucket", .putObject "bucket" "a" [.ok [1]], .putObject "bucket" "ab" [.ok [2]]]

/-- The path of an object is the only key that begins with it. -/
def Db.alone (db : Db) (bucket key : String) : Bool :=
  (db.range (getPath (bucketStore bucket) (objectPath bucket key))).all
    fun e => e.1 = utf8 (getPath (bucketStore bucket) (objectPath bucket key))

lemma hasObject_of_alone (h : s.db.alone bucket key = true) (hr : r ≠ "") :
    s.hasObject bucket (key ++ r) = false := by
  have hnone : s.db.get (Entry.object bucket (key ++ r)).key = none := by
    cases hget : s.db.get (Entry.object bucket (key ++ r)).key with
    | none => rfl
    | some bs =>
      have hkey := Entry.key_object_append bucket key r
      have hmem : (utf8 (Entry.object bucket (key ++ r)).key, bs) ∈ s.db.range (Entry.object bucket key).key :=
        List.mem_filter.mpr ⟨Table.mem_of_get hget, utf8_start_iff.mpr ⟨r, hkey⟩⟩
      have heq := utf8_injective (of_decide_eq_true (List.all_eq_true.mp h _ hmem))
      exact absurd ((String.append_right_inj _).mp (hkey.symm.trans (heq.trans String.append_empty.symm))) hr
  have hobject : s.db.get (getPath (bucketStore bucket) (objectPath bucket (key ++ r))) = none := hnone
  rw [Backend.hasObject, hobject, Option.isSome_none, Bool.and_false]

/-- The object with the longer key is deleted. -/
theorem deletesOnly_iff_longer : ∃ (p : Requests) (s' : Backend),
    ((service byteDigests).system (startedBackend byteDigests startTime)).Reaches Named p ∧
      (machine byteDigests).run (deleteObject "bucket" "ab") p.state = (.ok (), s') ∧
      p.state.hasObject "bucket" "ab" = true ∧ DeletesOnly byteDigests "bucket" "ab" p.state s' := by
  have hcheck : (afterRequests nestedObjects).any (fun s => s.db.alone "bucket" "ab" && s.hasObject "bucket" "ab" &&
      ((machine byteDigests).run (deleteObject "bucket" "ab") s).1 = .ok ()) = true := by decide +kernel
  obtain ⟨s, hs, hcheck⟩ := (Option.any_eq_true _ _).mp hcheck
  simp only [Bool.and_eq_true, decide_eq_true_eq] at hcheck
  have hp := reaches_afterRequests nestedObjects (by decide) hs
  have hrun : (machine byteDigests).run (deleteObject "bucket" "ab") s =
      (.ok (), ((machine byteDigests).run (deleteObject "bucket" "ab") s).2) := Prod.ext hcheck.2 rfl
  exact ⟨⟨s, []⟩, _, hp, hrun, hcheck.1.2,
    (deletesOnly_iff byteDigests startTime hp hrun (by decide) (by decide)).mpr
      (.inr fun r hr => hasObject_of_alone hcheck.1.1 hr)⟩

/-- With the object `a`, the object `ab` is deleted. -/
theorem deletes_longer_key : ∃ (p : Requests) (s' : Backend),
    ((service byteDigests).system (startedBackend byteDigests startTime)).Reaches Named p ∧
      (machine byteDigests).run (deleteObject "bucket" "a") p.state = (.ok (), s') ∧
      p.state.hasObject "bucket" "ab" = true ∧ s'.hasObject "bucket" "ab" = false := by
  have hcheck : (afterRequests nestedObjects).any (fun s => s.hasObject "bucket" "ab" &&
      ((machine byteDigests).run (deleteObject "bucket" "a") s).1 = .ok () &&
      !((machine byteDigests).run (deleteObject "bucket" "a") s).2.hasObject "bucket" "ab") = true := by decide +kernel
  obtain ⟨s, hs, hcheck⟩ := (Option.any_eq_true _ _).mp hcheck
  simp only [Bool.and_eq_true, decide_eq_true_eq, Bool.not_eq_true'] at hcheck
  exact ⟨⟨s, []⟩, _, reaches_afterRequests nestedObjects (by decide) hs, Prod.ext hcheck.1.2 rfl,
    hcheck.1.1, hcheck.2⟩

end Dtn.Replistore
