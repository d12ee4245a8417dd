import Dtn.Proof.Replistore.Deletion

/-!
# What is listed

`listObject` finds the objects whose keys begin with the prefix and looks up the
metadata under what is left of their keys. With the empty prefix this is the whole
key; with any other prefix the names in the list are not the keys of the objects
that were found, as the shortest of them is not (`listsObjects_iff`).
-/

namespace Dtn.Replistore

open S3 KeyValueStore

variable {entry : String → Option String} {start : String}

/-- Each object whose key begins with the prefix is listed once, as `HeadObject` describes it, and no others. -/
def ListsObjects (D : Digests) (s : Backend) (bucket start : String) : Prop :=
  ∃ objects s', (machine D).run (listObject bucket start) s = (.ok objects, s') ∧
    (objects.map Object.key).Nodup ∧
    (∀ key, key ∈ objects.map Object.key ↔ s.hasObject bucket key = true ∧ ∃ r, key = start ++ r) ∧
    ∀ o ∈ objects, ((machine D).run (headObject bucket o.key) s).1 = .ok o

variable {D : Digests} {s s' : Backend} {db db' : Db} {bucket key : String} {ε : Type}

/-! ## Objects have a time -/

/-- The time of each object can be read. -/
def Db.Dated (db : Db) : Prop :=
  ∀ bucket key, NulFree bucket → (db.text (.object bucket key)).isSome = true →
    ∃ t : OffsetDateTime, db.text (.objectmeta bucket key "last_modified") = some (toString t.unixTimestamp)

lemma nulFree_last_modified : NulFree "last_modified" := by decide

lemma Db.Dated.of_same (h : db.Dated)
    (hobject : ∀ bucket key, NulFree bucket → (db'.text (.object bucket key)).isSome = true →
      (db.text (.object bucket key)).isSome = true ∧ db'.text (.objectmeta bucket key "last_modified") =
        db.text (.objectmeta bucket key "last_modified")) : db'.Dated := by
  intro bucket key hb ho
  obtain ⟨ho, hsame⟩ := hobject bucket key hb ho
  rw [hsame]
  exact h bucket key hb ho

lemma Db.Dated.putObject (h : db.Dated) (hb : NulFree bucket) (key : String) (info : BlobInfo)
    (lastModified : OffsetDateTime) (n : UInt64) : (db.putObject bucket key info lastModified n).Dated := by
  intro bucket' key' hb' ho
  by_cases heq : bucket' = bucket ∧ key' = key
  · obtain ⟨rfl, rfl⟩ := heq
    refine ⟨lastModified, ?_⟩
    exact Db.text_putObject_of_mem hb key' info lastModified n
      (r := (.objectmeta bucket' key' "last_modified", toString lastModified.unixTimestamp)) (by simp [objectRecords])
  · have hother {e : Entry} (he : e.Ok) (ht : e.isText = true) :=
      Db.text_putObject_of_ne hb key info lastModified n db he ht
    have hobject : Entry.object bucket' key' ≠ .object bucket key := fun h => by cases h; exact heq ⟨rfl, rfl⟩
    have hmeta (suffix : String) : Entry.objectmeta bucket' key' "last_modified" ≠ .objectmeta bucket key suffix :=
      fun h => by cases h; exact heq ⟨rfl, rfl⟩
    rw [hother (e := .object bucket' key') hb' rfl hobject (fun _ h => by cases h)] at ho
    rw [hother (e := .objectmeta bucket' key' "last_modified") ⟨hb', nulFree_last_modified⟩ rfl (fun h => by cases h)
      hmeta]
    exact h bucket' key' hb' ho

lemma Db.Dated.deleteObject (h : db.Dated) (hb : NulFree bucket) (key : String) (n : UInt64) :
    (db.deleteObject bucket key n).Dated := by
  refine h.of_same fun bucket' key' hb' ho => ?_
  by_cases hunder : Under (bucketStore bucket) [objectPath bucket key, objectmetaPath bucket key ""]
      (Entry.object bucket' key').key
  · rw [Db.text_deleteObject_of_under hb key n (e := .object bucket' key') hb' rfl hunder] at ho
    cases ho
  · rw [Db.text_deleteObject_of_not_under hb key n (e := .object bucket' key') hb' rfl hunder] at ho
    refine ⟨ho, ?_⟩
    rw [Db.text_deleteObject_of_not_under hb key n (e := .objectmeta bucket' key' "last_modified")
      ⟨hb', nulFree_last_modified⟩ rfl (not_under_objectmeta hb key hb' nulFree_last_modified hunder)]

lemma Db.Dated.changed (h : db.Dated) {β : Type} {c : Call β} (hc : Changed c db db') : db'.Dated := by
  cases c with
  | set _ key =>
    obtain ⟨name, -, -, -, -, rfl⟩ := hc
    refine h.of_same fun bucket key hb ho => ?_
    rw [Db.text_createBucket name _ (e := .object bucket key) hb rfl, if_neg (fun h => by cases h)] at ho
    rw [Db.text_createBucket name _ (e := .objectmeta bucket key "last_modified") ⟨hb, nulFree_last_modified⟩ rfl,
      if_neg (fun h => by cases h)]
    exact ⟨ho, rfl⟩
  | multiSet =>
    obtain ⟨bucket, key, info, lastModified, hb, -, -, rfl⟩ := hc
    exact h.putObject hb key info lastModified _
  | multiDelete =>
    obtain ⟨bucket, key, hb, -, -, rfl⟩ := hc
    exact h.deleteObject hb key _
  | getOrCreateKeyValueStore =>
    refine h.of_same fun bucket key hb ho => ?_
    rw [Db.text_of_value hc.2 (e := .object bucket key) hb rfl] at ho
    exact ⟨ho, Db.text_of_value hc.2 (e := .objectmeta bucket key "last_modified") ⟨hb, nulFree_last_modified⟩ rfl⟩
  | _ => exact (show db' = db from hc) ▸ h

lemma service_dated (D : Digests) :
    (service D).Keeps Expected Possible (fun s _ => s.db.Sound ∧ s.db.Dated) Named where
  request _ _ hr := outlined_handle hr
  start _ _ h := h
  answer _ _ _ _ _ _ h hc hperform := possible_of_perform h.1.ok hc hperform
  call _ _ _ _ _ _ _ _ h _ hc _ hperform :=
    ⟨h.1.changed (perform_changed h.1.ok hc hperform), h.2.changed (perform_changed h.1.ok hc hperform)⟩
  finish _ _ _ _ h := h
  pass s s' _ hs h := by
    obtain ⟨_, rfl⟩ := hs
    exact h

lemma dated_of_reaches (h : ((service D).system (startedBackend D clock)).Reaches Named p) : p.state.db.Dated := by
  refine
    (Service.reaches_invariant (service_dated D) ⟨startedBackend_sound D clock, fun bucket key hb ho => ?_⟩ h).inv.2
  rw [(startedBackend_represents D clock).object bucket key hb] at ho
  cases ho

/-! ## Lists -/

lemma described_of_dated {t : OffsetDateTime} (h : entry "last_modified" = some (toString t.unixTimestamp))
    (key : String) : ∃ o, (described entry key : Outcome ε Object) = .ok o := by
  have htime : parseI64 (toString t.unixTimestamp) = some t.unixTimestamp :=
    parseI64_toString ⟨by have := t.inRange; omega, by have := t.inRange; omega⟩
  rw [described, h, Option.bind_some, htime, Option.getD_some, fromUnixTimestamp_unixTimestamp]
  exact ⟨_, rfl⟩

lemma described_ok {ε' : Type}
    (h : (described entry key : Outcome ε Object) = .ok o) : (described entry key : Outcome ε' Object) = .ok o := by
  rw [described] at h ⊢
  cases ht : OffsetDateTime.fromUnixTimestamp (((entry "last_modified").bind parseI64).getD 0) with
  | none => rw [ht] at h; cases h
  | some => rw [ht] at h; cases h; rfl

lemma key_of_described (h : (described entry key : Outcome ε Object) = .ok o) : o.key = key := by
  rw [described] at h
  cases ht : OffsetDateTime.fromUnixTimestamp (((entry "last_modified").bind parseI64).getD 0) with
  | none => rw [ht] at h; cases h
  | some => rw [ht] at h; cases h; rfl

/-- The objects that were found, as their metadata say. -/
lemma run_listed_ok (h : s.db.Ok) (hb : NulFree bucket) (keys : List String)
    (hkeys : ∀ k ∈ keys, ∃ o, (described (fun suffix => s.db.text (.objectmeta bucket k suffix)) k :
      Outcome ListObjectError Object) = .ok o) :
    ∃ objects, (machine D).run (S3.listed (bucketStore bucket) bucket keys) s = (.ok objects, s) ∧
      ∀ o ∈ objects, (described (fun suffix => s.db.text (.objectmeta bucket o.key suffix)) o.key :
        Outcome ListObjectError Object) = .ok o := by
  induction keys with
  | nil => exact ⟨[], rfl, List.forall_mem_nil _⟩
  | cons _ _ ih =>
    obtain ⟨⟨o, ho⟩, hkeys⟩ := List.forall_mem_cons.mp hkeys
    obtain ⟨objects, hrun, hobjects⟩ := ih hkeys
    refine ⟨o :: objects, ?_, List.forall_mem_cons.mpr ⟨?_, hobjects⟩⟩
    · rw [S3.listed, Machine.run_bind_ok (a := o) (by rw [run_metaToObj_described h hb, ho]), Machine.run_bind_ok hrun]
      rfl
    · rw [key_of_described ho]
      exact ho

lemma run_listed_keys (h : s.db.Ok) (hb : NulFree bucket)
    (hrun : (machine D).run (S3.listed (bucketStore bucket) bucket keys) s = (.ok objects, s')) :
    objects.map Object.key = keys := by
  induction keys generalizing objects s' with
  | nil => cases hrun; rfl
  | cons k keys ih =>
    rw [S3.listed, Machine.run_bind, run_metaToObj_described h hb] at hrun
    cases hmeta : (described (fun suffix => s.db.text (.objectmeta bucket k suffix)) k :
        Outcome ListObjectError Object) with
    | err e => exact absurd hmeta (described_ne_err _ k e)
    | panic => rw [hmeta] at hrun; cases hrun
    | ok =>
      rw [hmeta] at hrun
      dsimp only at hrun
      rw [Machine.run_bind] at hrun
      cases hrest : (machine D).run (S3.listed (bucketStore bucket) bucket keys) s with
      | mk r =>
        rw [hrest] at hrun
        cases r with
        | err | panic => cases hrun
        | ok =>
          cases hrun
          rw [List.map_cons, key_of_described hmeta, ih hrest]

/-- The list is made of what is left of the keys of the objects that were found. -/
lemma run_listObject (h : s.db.Sound) (hb : (s.db.text (.bucket bucket)).isSome = true) (start : String) :
    ∃ (db : Db) (keys : List String), db.Ok ∧
      (∀ e : Entry, e.Ok → e.isText = true → db.text e = s.db.text e) ∧ keys.Nodup ∧
      (∀ r, r ∈ keys ↔ s.hasObject bucket (start ++ r) = true) ∧
      (machine D).run (listObject bucket start) s =
        (machine D).run (S3.listed (bucketStore bucket) bucket keys) { s with db } := by
  have hn := h.names bucket hb
  obtain ⟨db, hok, hsame, hopen⟩ := run_withBucketStore_open (D := D) h.ok hb
  have htext (e : Entry) (he : e.Ok) (ht : e.isText = true) : db.text e = s.db.text e := Db.text_of_value hsame he ht
  obtain ⟨t, ht, hnodup, hmem⟩ := list_objects hok hn start
  have hlist : perform D (.list (bucketStore bucket) (objectPath bucket start)) { s with db } =
      some (t, { s with db }) := by
    rw [perform, ht]
    rfl
  refine ⟨db, t.keys, hok, htext, hnodup, fun r => ?_, ?_⟩
  · rw [hmem, htext (.object bucket (start ++ r)) hn rfl, hasObject_eq h, hb, Bool.true_and]
  · rw [listObject, hopen, run_call hlist]

/-- If what is left of the keys are keys, the list is right. -/
lemma ListsObjects.of_keys (h : s.db.Sound) (hdated : s.db.Dated) (hb : (s.db.text (.bucket bucket)).isSome = true)
    (hkeys : ∀ r, s.hasObject bucket (start ++ r) = true → start ++ r = r) : ListsObjects D s bucket start := by
  have hn := h.names bucket hb
  obtain ⟨db, keys, hok, htext, hnodup, _, hrun⟩ := run_listObject (D := D) h hb start
  have hfound {r} (hr : r ∈ keys) : s.hasObject bucket r = true ∧ start ++ r = r := by grind
  have hobject {key} (hk : s.hasObject bucket key = true) : (s.db.text (.object bucket key)).isSome = true := by
    rwa [hasObject_eq h, hb, Bool.true_and] at hk
  have hsame {ε} (key : String) :
      (described (fun suffix => db.text (.objectmeta bucket key suffix)) key : Outcome ε Object) =
        described (fun suffix => s.db.text (.objectmeta bucket key suffix)) key :=
    described_congr (fun suffix hs => htext (.objectmeta bucket key suffix) ⟨hn, hs⟩ rfl) key
  obtain ⟨objects, hlisted, _⟩ := run_listed_ok (D := D) (s := { s with db }) hok hn keys fun k hk => by
    obtain ⟨_, ht⟩ := hdated bucket k hn (hobject (hfound hk).1)
    rw [hsame]
    exact described_of_dated ht k
  have hmap := run_listed_keys (s := { s with db }) hok hn hlisted
  refine ⟨objects, _, hrun.trans hlisted, hmap ▸ hnodup, fun key => ?_, fun o ho => ?_⟩
  · grind
  · grind [run_headObject, described_ok]

lemma length_append_lt (h : start ≠ "") : r.length < (start ++ r).length := by
  grind [String.length_eq_zero_iff, String.length_append]

/-- The shortest name of the list is not the key of an object that was found. -/
lemma ListsObjects.not_found (h : s.db.Sound) (hb : (s.db.text (.bucket bucket)).isSome = true)
    (hlists : ListsObjects D s bucket start) (hstart : start ≠ "") (r : String) :
    s.hasObject bucket (start ++ r) = false := by
  obtain ⟨db, _, hok, -, -, _, hrun⟩ := run_listObject (D := D) h hb start
  obtain ⟨_, _, hlist, -, hexact, -⟩ := hlists
  have hmap := run_listed_keys (s := { s with db }) hok (h.names bucket hb) (hrun.symm.trans hlist)
  rw [hmap] at hexact
  -- a name in the list is a key that was found, so what is left of it is a shorter name in the list
  induction hn : r.length using Nat.strong_induction_on generalizing r with
  | h => grind [length_append_lt]

/-- A list is right exactly if the prefix is empty or no object is found with it. -/
theorem listsObjects_iff (D : Digests) (clock : OffsetDateTime) {p : Requests}
    (hp : ((service D).system (startedBackend D clock)).Reaches Named p) {bucket : String}
    (hb : (p.state.db.get (getPath rootStore (bucketPath bucket))).isSome = true) (start : String) :
    ListsObjects D p.state bucket start ↔ start = "" ∨ ∀ r, p.state.hasObject bucket (start ++ r) = false := by
  have h := sound_of_reaches hp
  have hbucket : (p.state.db.text (.bucket bucket)).isSome = true :=
    (h.ok.isSome_value (e := .bucket bucket) trivial rfl).symm.trans hb
  constructor
  · intro hlists
    by_cases hstart : start = ""
    · exact .inl hstart
    · exact .inr (hlists.not_found h hbucket hstart)
  · intro hempty
    refine .of_keys h (dated_of_reaches hp) hbucket fun r hr => ?_
    rcases hempty with rfl | hnone
    · exact String.empty_append
    · rw [hnone r] at hr
      cases hr

/-- All objects of a bucket are listed. -/
theorem listsObjects_iff_all : ∃ p : Requests,
    ((service byteDigests).system (startedBackend byteDigests startTime)).Reaches Named p ∧
      p.state.hasObject "bucket" "ab" = true ∧ ListsObjects byteDigests p.state "bucket" "" := by
  have hcheck : (afterRequests nestedObjects).any (fun s => s.hasObject "bucket" "ab" &&
      (s.db.get (getPath rootStore (bucketPath "bucket"))).isSome) = true := by decide +kernel
  obtain ⟨s, hs, hcheck⟩ := (Option.any_eq_true _ _).mp hcheck
  rw [Bool.and_eq_true] at hcheck
  have hp := reaches_afterRequests nestedObjects (by decide) hs
  exact ⟨⟨s, []⟩, hp, hcheck.1, (listsObjects_iff byteDigests startTime hp hcheck.2 "").mpr (.inl rfl)⟩

/-- With the prefix `a`, the object `ab` is listed as `b`, without its size. -/
theorem listed_without_start : ∃ (p : Requests) (objects : List Object) (s' : Backend),
    ((service byteDigests).system (startedBackend byteDigests startTime)).Reaches Named p ∧
      (machine byteDigests).run (listObject "bucket" "a") p.state = (.ok objects, s') ∧
      p.state.hasObject "bucket" "ab" = true ∧ objects.map (fun o => (o.key, o.size)) = [("", 0), ("b", 0)] := by
  have hcheck : (afterRequests nestedObjects).any (fun s => s.hasObject "bucket" "ab" &&
      (((machine byteDigests).run (listObject "bucket" "a") s).1.toOption.map
        (·.map fun o => (o.key, o.size))) = some [("", 0), ("b", 0)]) = true := by decide +kernel
  obtain ⟨s, hs, hcheck⟩ := (Option.any_eq_true _ _).mp hcheck
  simp only [Bool.and_eq_true, decide_eq_true_eq] at hcheck
  obtain ⟨hobject, hlist⟩ := hcheck
  obtain ⟨objects, hobjects, hlist⟩ := Option.map_eq_some_iff.mp hlist
  exact ⟨⟨s, []⟩, objects, _, reaches_afterRequests nestedObjects (by decide) hs,
    Prod.ext (Outcome.toOption_eq_some.mp hobjects) rfl, hobject, hlist⟩

end Dtn.Replistore
