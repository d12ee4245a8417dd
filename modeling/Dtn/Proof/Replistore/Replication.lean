import Dtn.Proof.Replistore.Sound

/-!
# Events of the replication

Each change of a bucket or of its objects stores its number as the version of the
bucket, so in every run the version counts the changes (`version_of_run`). It is
stored as eight bytes and read as a text when an event is received, which panics
unless the bytes happen to be one (`eventReplicationReceived_iff`): they are not
after 128 changes (`eventReplicationReceived_panics`).
-/

namespace Dtn.Replistore

open List Option S3 KeyValueStore

variable {D : Digests} {s s' : Backend} {db db' : Db} {bucket : String}
variable {β : Type} {g : Option String} {as : List (PoolEvent Call Request Response)} {c : Call β}

/-! ## Changes -/

/-- The call gives the bucket its next version. -/
def Call.bumps (bucket : String) : {β : Type} → Call β → Bool
  | _, .set store _ _ versionPath | _, .multiSet store _ versionPath | _, .multiDelete store _ versionPath =>
    store = bucketStore bucket && versionPath = bucketVersionPath bucket
  | _, _ => false

def bumpsVersion (bucket : String) : PoolEvent Call Request Response → Bool
  | .call c => c.bumps bucket
  | _ => false

/-- The number of changes of a bucket. -/
def commits (bucket : String) (as : List (PoolEvent Call Request Response)) : Nat :=
  as.countP (bumpsVersion bucket)

lemma bucketStore_inj : bucketStore bucket' = bucketStore bucket ↔ bucket' = bucket :=
  String.append_right_inj _

lemma bucketVersionPath_inj : bucketVersionPath name = bucketVersionPath bucket ↔ name = bucket := by
  simp [bucketVersionPath]

lemma value_put_version {new : Db} (hs : NulFree store) (name : String) (hb : NulFree bucket)
    (hnew : new.value (.version bucket bucket) = db.value (.version bucket bucket)) :
    (new.put (Entry.version store name).key (toLeBytes (db.nextVersion store name))).value (.version bucket bucket) =
      if bucketStore store = bucketStore bucket && bucketVersionPath name = bucketVersionPath bucket
      then some (toLeBytes (db.nextVersion bucket bucket)) else db.value (.version bucket bucket) := by
  have hb : (Entry.version bucket bucket).Ok := hb
  rw [Db.value_put (e := .version store name) hs hb, hnew]
  simp only [Entry.version.injEq, bucketStore_inj, bucketVersionPath_inj, Bool.and_eq_true, decide_eq_true_eq]
  by_cases h : store = bucket ∧ name = bucket
  · rw [if_pos h, if_pos h, h.1, h.2]
  · rw [if_neg h, if_neg h]

lemma Changed.value_version (h : Changed c db db') (hb : NulFree bucket) :
    db'.value (.version bucket bucket) = if c.bumps bucket then some (toLeBytes (db.nextVersion bucket bucket))
      else db.value (.version bucket bucket) := by
  cases c with
  | set _ key value =>
    obtain ⟨name, -, rfl, -, rfl, rfl⟩ := h
    have hnew : (db.put (Entry.bucket name).key (utf8 "")).value (.version bucket bucket) = db.value _ :=
      (Db.value_put (e := .bucket name) trivial (show (Entry.version bucket bucket).Ok from hb) _).trans
        (if_neg fun heq => by cases heq)
    rw [rootStore_eq]
    exact value_put_version (show NulFree "root" by decide) name hb hnew
  | multiSet =>
    obtain ⟨bucket', key, info, lastModified, hb', rfl, rfl, rfl⟩ := h
    refine value_put_version hb' bucket' hb (Db.value_putAll_of_not_mem (fun r hr =>
      (objectRecords_ok hb' key info lastModified r hr).1) (e := .version bucket bucket) hb fun hin => ?_)
    obtain heq | ⟨suffix, heq⟩ := mem_objectRecords hin <;> cases heq
  | multiDelete =>
    obtain ⟨bucket', key, hb', rfl, rfl, rfl⟩ := h
    refine value_put_version hb' bucket' hb (Db.get_deleteUnder_of_not_under ?_)
    rw [under_object_iff hb' key (e := .version bucket bucket) hb]
    rintro (⟨r, heq⟩ | ⟨key', suffix, r, heq, -⟩) <;> cases heq
  | getOrCreateKeyValueStore => exact h.2 (.version bucket bucket) hb (fun heq => by cases heq)
  | _ => rw [show db' = db from h]; rfl

/-- A call that changes the version does not panic. -/
lemma perform_of_bumps (h : s.db.Ok) (hc : Expected g c) (hbumps : c.bumps bucket = true) : perform D c s ≠ none := by
  cases c with
  | set =>
    obtain ⟨name, -, rfl, rfl, rfl, rfl⟩ := hc
    rw [perform_setBucket h name]
    exact some_ne_none _
  | multiSet =>
    obtain ⟨bucket, key, info, lastModified, hb, rfl, rfl, rfl, -⟩ := hc
    rw [perform_multiSet h hb key info lastModified]
    exact some_ne_none _
  | multiDelete =>
    obtain ⟨_, key, hb, rfl, rfl, rfl⟩ := hc
    rw [perform_multiDelete h hb key]
    exact some_ne_none _
  | _ => cases hbumps

/-! ## Versions count changes -/

/-- The version of the bucket is the number of its changes. -/
def Counted (bucket : String) (as : List (PoolEvent Call Request Response)) (s : Backend) : Prop :=
  s.db.Sound ∧ s.db.value (.version bucket bucket) = counter (commits bucket as)

lemma Counted.quiet (h : Counted bucket as s) (hdb : s'.db = s.db)
    (ha : bumpsVersion bucket a = false) : Counted bucket (as ++ [a]) s' := by grind [commits, Counted]

lemma Counted.call (h : Counted bucket as s) (hb : NulFree bucket) (hc : Expected g c)
    (hperform : perform D c s = some (b, s')) : Counted bucket (as ++ [.call c]) s' := by
  have hchanged := perform_changed h.1.ok hc hperform
  refine ⟨h.1.changed hchanged, ?_⟩
  rw [hchanged.value_version hb, commits, countP_append, countP_singleton, bumpsVersion]
  split
  · rw [Db.nextVersion, h.2, versionAfter_counter, counter, if_neg (Nat.succ_ne_zero _)]
    rfl
  · exact h.2

lemma service_counted (D : Digests) (hb : NulFree bucket) :
    (service D).Tracks (Outlined fun _ _ => True) (fun as s _ => Counted bucket as s) Named where
  request _ _ _ _ hr h := ⟨none, outlined_handle hr, h.quiet rfl rfl⟩
  call _ _ _ _ _ g _ _ c _ _ b _ _ _ hQ _ h hperform :=
    ⟨c.noted b g, hQ.2 b (possible_of_perform h.1.ok hQ.1 hperform), h.call hb hQ.1 hperform⟩
  panic _ _ _ g _ _ _ _ _ hQ h hperform :=
    ⟨g, trivial, h.quiet rfl (Bool.eq_false_iff.mpr fun hbumps => perform_of_bumps h.1.ok hQ.1 hbumps hperform)⟩
  finish _ _ _ _ _ _ _ h := h.quiet rfl rfl
  pass _ _ _ _ hpass h := by
    obtain ⟨_, rfl⟩ := hpass
    exact h.quiet rfl rfl

lemma startedBackend_counted (D : Digests) (clock : OffsetDateTime) (hb : NulFree bucket) :
    Counted bucket [] (startedBackend D clock) :=
  ⟨startedBackend_sound D clock, (startedBackend_types D clock).2 (.version bucket bucket) hb fun _ h => by cases h⟩

/-- In every run the version of a bucket counts its changes. -/
lemma version_of_run
    (hrun : (((service D).system (startedBackend D clock)).only Named).Run ⟨startedBackend D clock, []⟩ as p)
    (hb : NulFree bucket) : p.state.db.value (.version bucket bucket) = counter (commits bucket as) := by
  obtain ⟨_, -, h⟩ := Service.run_tracked (service_counted D hb) (startedBackend_counted D clock hb) hrun
  exact h.2

/-! ## Reading a version -/

/-- A value that `Get` can answer with. -/
def readable (found : Option Bytes) : Bool := found.all fun bs => (fromUtf8 bs).isSome

lemma isSome_get (name : String) (key : List String) (db : Db) :
    (KeyValueStore.get name key db).isSome = readable (db.get (getPath name key)) := by
  rw [KeyValueStore.get]
  cases db.get (getPath name key) with
  | none => rfl
  | some bs =>
    show ((fromUtf8 bs).bind fun text => some (some text)).isSome = (fromUtf8 bs).isSome
    cases fromUtf8 bs <;> rfl

lemma readable_counter (n : Nat) : readable (counter n) = (fromUtf8 (toLeBytes (.ofNat n))).isSome := by
  rw [counter]
  split
  · rename_i hn
    rw [hn]
    decide
  · rfl

/-- The version is read once for each event. -/
lemma run_compareVersions (store bucket : String) (events : List Event) (s : Backend) :
    (machine D).run (compareVersions store bucket events) s =
      (if events = [] ∨ readable (s.db.get (getPath store (bucketVersionPath bucket))) = true then .ok ()
        else .panic, s) := by
  have hget := isSome_get store (bucketVersionPath bucket) s.db
  induction events with
  | nil => rfl
  | cons _ _ ih =>
    rw [compareVersions]
    cases h : KeyValueStore.get store (bucketVersionPath bucket) s.db with
    | none =>
      have hnone : (machine D).perform (.get store (bucketVersionPath bucket)) s = none := by
        show (KeyValueStore.get store (bucketVersionPath bucket) s.db).map _ = none
        rw [h, map_none]
      rw [h] at hget
      rw [Machine.run_call_none hnone, if_neg (by rw [← hget]; simp)]
    | some found =>
      have hsome : perform D (.get store (bucketVersionPath bucket)) s = some (found, s) := by
        rw [perform, h, map_some]
      rw [h] at hget
      rw [run_call hsome, ih, if_pos (.inr hget.symm), if_pos (.inr hget.symm)]

lemma run_eventReplicationReceived (h : s.db.Ok) (hb : NulFree bucket)
    (hbucket : (s.db.text (.bucket bucket)).isSome = true) (events : List Event) :
    ((machine D).run (eventReplicationReceived ⟨bucket, events⟩) s).1 =
      if events = [] ∨ readable (s.db.value (.version bucket bucket)) = true then .ok () else .panic := by
  obtain ⟨db, -, hsame, hrun⟩ := run_withBucketStore_open (D := D) h hbucket
  have hversion : db.get (getPath (bucketStore bucket) (bucketVersionPath bucket)) =
      s.db.value (.version bucket bucket) := hsame (.version bucket bucket) hb fun heq => by cases heq
  rw [eventReplicationReceived, hrun, run_compareVersions, hversion]

/-- A received event is processed without a panic exactly if the bucket is not there, the event has no events in
it, or the number of changes of the bucket so far is a text, as it is stored. -/
theorem eventReplicationReceived_iff (D : Digests) (clock : OffsetDateTime)
    {as : List (PoolEvent Call Request Response)} {p : Requests}
    (hrun : (((service D).system (startedBackend D clock)).only Named).Run ⟨startedBackend D clock, []⟩ as p)
    (storeEvent : BucketEvent) :
    ((machine D).run (eventReplicationReceived storeEvent) p.state).1 ≠ .panic ↔
      (p.state.db.get (getPath rootStore (bucketPath storeEvent.bucketName))).isSome = false ∨
        storeEvent.events = [] ∨
        (fromUtf8 (toLeBytes (.ofNat (commits storeEvent.bucketName as)))).isSome = true := by
  obtain ⟨bucket, events⟩ := storeEvent
  have h := sound_of_reaches (hrun.reaches (.init rfl))
  have hbucket : (p.state.db.get (getPath rootStore (bucketPath bucket))).isSome =
      (p.state.db.text (.bucket bucket)).isSome := h.ok.isSome_value (e := .bucket bucket) trivial rfl
  rw [hbucket]
  cases hthere : (p.state.db.text (.bucket bucket)).isSome with
  | false => grind [h.ok, run_withBucketStore_absent, eventReplicationReceived]
  | true => grind [h.ok, h.names, run_eventReplicationReceived, version_of_run, readable_counter]

/-! ## After many changes -/

lemma served_putObject (h : s.db.Sound) (hbucket : (s.db.text (.bucket bucket)).isSome = true) (key : String)
    (hdata : collected data = .ok content)
    (hn : s.db.value (.version bucket bucket) = counter n) (k : Nat) :
    ∃ s', (service D).served (fun _ _ _ => true) s (List.replicate k (.putObject bucket key data)) = some s' ∧
      s'.db.Sound ∧ (s'.db.text (.bucket bucket)).isSome = true ∧
      s'.db.value (.version bucket bucket) = counter (n + k) := by
  induction k generalizing s n with
  | zero => exact ⟨s, rfl, h, hbucket, hn⟩
  | succ _ ih =>
    have hb := h.names bucket hbucket
    obtain ⟨db, s1, hok, hsame, hdb, -, hrun⟩ := run_putObject_ok (D := D) h.ok hb hbucket key hdata
    have hversion : db.value (.version bucket bucket) = counter n :=
      (hsame (.version bucket bucket) hb fun heq => by cases heq).trans hn
    have hchanged : Changed (.multiSet (bucketStore bucket) [] (bucketVersionPath bucket)) db s1.db :=
      ⟨bucket, key, _, _, hb, rfl, rfl, hdb⟩
    have hopened : db.Sound := ⟨hok, fun name hname => h.names name (by
      rwa [Db.text_of_value hsame (e := .bucket name) trivial rfl] at hname)⟩
    have hnext : s1.db.value (.version bucket bucket) = counter (n + 1) := by
      rw [hchanged.value_version hb, Db.nextVersion, hversion, versionAfter_counter, if_pos (by simp [Call.bumps]),
        counter, if_neg n.succ_ne_zero]
    have hbucket1 : (s1.db.text (.bucket bucket)).isSome = true := by
      rw [hchanged.text_bucket, if_neg (fun heq => by cases heq),
        Db.text_of_value hsame (e := .bucket bucket) trivial rfl]
      exact hbucket
    obtain ⟨s', hserved, hrest⟩ := ih (hopened.changed hchanged) hbucket1 hnext
    rw [Nat.add_right_comm] at hrest
    refine ⟨s', ?_, hrest⟩
    rw [replicate_succ, Service.served, foldlM_cons, if_pos (Service.all_true ..)]
    show (service D).served _ ((machine D).run (S3.handle (.putObject bucket key data)) s).2 _ = _
    rw [S3.handle, run_attempt_map_ok hrun]
    exact hserved

/-- After 128 objects no event is processed for their bucket. -/
theorem eventReplicationReceived_panics : ∃ s, afterRequests
      (.createBucket "bucket" :: List.replicate 128 (.putObject "bucket" "a" [.ok [1]])) = some s ∧
    ((machine byteDigests).run (eventReplicationReceived ⟨"bucket", [⟨.put, 128, "a", none⟩]⟩) s).1 = .panic := by
  have hcheck : (afterRequests [.createBucket "bucket"]).any (fun s => (s.db.text (.bucket "bucket")).isSome &&
      s.db.value (.version "bucket" "bucket") = none) = true := by decide +kernel
  obtain ⟨s, hs, hcheck⟩ := (Option.any_eq_true _ _).mp hcheck
  simp only [Bool.and_eq_true, decide_eq_true_eq] at hcheck
  have h := sound_of_reaches (reaches_afterRequests [.createBucket "bucket"] (by decide) hs)
  obtain ⟨s', hserved, h', hbucket, hversion⟩ :=
    served_putObject (D := byteDigests) (n := 0) h hcheck.1 "a" (show collected [.ok [1]] = .ok [1] from rfl)
      hcheck.2 128
  refine ⟨s', ?_, ?_⟩
  · grind [afterRequests, Service.served]
  · rw [run_eventReplicationReceived h'.ok (by decide) hbucket, hversion, readable_counter]
    decide

/-- One object, and an event for its bucket. -/
theorem eventReplicationReceived_iff_one : ∃ (as : List (PoolEvent Call Request Response)) (p : Requests),
    (((service byteDigests).system (startedBackend byteDigests startTime)).only Named).Run
        ⟨startedBackend byteDigests startTime, []⟩ as p ∧
      commits "bucket" as = 1 ∧
      ((machine byteDigests).run (eventReplicationReceived ⟨"bucket", [⟨.put, 1, "a", none⟩]⟩) p.state).1 ≠ .panic := by
  have hcheck : (afterRequests [.createBucket "bucket", .putObject "bucket" "a" [.ok [1]]]).isSome = true := by
    decide +kernel
  obtain ⟨s, hs⟩ := isSome_iff_exists.mp hcheck
  have hcommits : commits "bucket" ((service byteDigests).history (startedBackend byteDigests startTime)
      [.createBucket "bucket", .putObject "bucket" "a" [.ok [1]]]) = 1 := by decide +kernel
  have hrun := run_afterRequests _ (by decide) hs
  refine ⟨_, _, hrun, hcommits, (eventReplicationReceived_iff byteDigests startTime hrun _).mpr (.inr (.inr ?_))⟩
  show (fromUtf8 (toLeBytes (.ofNat (commits "bucket" _)))).isSome = true
  rw [hcommits]
  decide

end Dtn.Replistore
