import Dtn.Proof.Replistore.Sound

/-!
# Buckets that are created at the same time

`createBucket` looks whether the bucket is there and then sets it, with a call for
each: of two requests between whose calls the other one runs, both find no bucket,
and both set it (`created_twice`). If no other request is between its calls when a
bucket is set, at most one request has created it in every run (`created_once`):
while a request is about to set a bucket it is not there, and those that have set
it and not finished yet are counted with those that have.
-/

namespace Dtn.Replistore

open S3 KeyValueStore List

variable {D : Digests} {s s' : Backend} {name : String}
variable {r : Outcome Empty Response} {g : Option String}

/-! ## The handler -/

/-- The response of a request that has created the bucket. -/
def createdBucket (name : String) : Outcome Empty Response := .ok (.createBucket (.ok name))

def alreadyExists : Outcome Empty Response := .ok (.createBucket (.error .bucketAlreadyExists))

/-- A request that has found no bucket. -/
def creating (name : String) : Async Call Empty Response :=
  .await (.set rootStore (bucketPath name) "" (bucketVersionPath name)) fun _ => .done (createdBucket name)

lemma handle_createBucket (name : String) : S3.handle (.createBucket name) =
    .await (.get rootStore (bucketPath name)) fun found =>
      if found.isSome then .done alreadyExists else creating name := by
  show Async.await _ _ = _
  congr 1
  funext found
  cases found <;> rfl

lemma ends_createBucket (h : (S3.handle (.createBucket name)).Ends r) :
    r = createdBucket name ∨ r = alreadyExists := by
  rw [handle_createBucket] at h
  cases h with
  | await found h =>
    cases found with
    | none =>
      cases h with
      | await _ h => cases h; exact .inl rfl
    | some => cases h; exact .inr rfl

/-! ## Where a request is -/

/-- A request for a bucket before its first call, before its second one and after it, and any other request. -/
inductive Stage where
  | asks (name : String)
  | sets (name : String)
  | has (name : String)
  | other
  deriving DecidableEq

def Stage.Of : Stage → Async Call Empty Response → Prop
  | asks name, p => p = S3.handle (.createBucket name)
  | sets name, p => p = creating name
  | has name, p => p = .done (createdBucket name)
  | other, p => ∀ name, ¬ p.Ends (createdBucket name)

lemma ends_map {α : Type} {p : Async Call Empty α} {f : α → Response} (h : (f <$> p).Ends (.ok response)) :
    ∃ a, f a = response := by
  induction p with
  | done r =>
    cases r with
    | ok a => cases h; exact ⟨a, rfl⟩
    | err | panic => cases h
  | await _ _ ih =>
    cases h with
    | await b h => exact ih b h

lemma exists_stage (r : Request) : ∃ st : Stage, st.Of (S3.handle r) ∧ (∀ name, st ≠ .sets name) ∧
    ∀ name, st ≠ .has name := by
  cases r with
  | createBucket name => exact ⟨.asks name, rfl, fun _ => nofun, fun _ => nofun⟩
  | _ =>
    refine ⟨.other, fun name h => ?_, fun _ => nofun, fun _ => nofun⟩
    obtain ⟨_, heq⟩ := ends_map h
    cases heq

/-- A request is about to set a bucket if it has just found that there is none. -/
lemma Stage.Of.call {β : Type} {c : Call β} {b : β} {k : β → Async Call Empty Response} {st : Stage}
    (hst : st.Of (.await c k)) (hs : s.db.Ok) (hperform : perform D c s = some (b, s')) :
    ∃ st' : Stage, st'.Of (k b) ∧ (∀ name, st' = .has name → st = .sets name ∧ c.created = some name) ∧
      ∀ name, st' = .sets name → c.created = none ∧ (s.db.text (.bucket name)).isSome = false := by
  cases st with
  | asks name =>
    rw [Stage.Of, handle_createBucket] at hst
    cases hst
    cases (perform_getBucket hs name).symm.trans hperform
    cases hfound : s.db.text (.bucket name) with
    | none => exact ⟨.sets name, rfl, fun _ => nofun, fun _ heq => by cases heq; exact ⟨rfl, by rw [hfound]; rfl⟩⟩
    | some => exact ⟨.other, fun _ h => (by cases h), fun _ => nofun, fun _ => nofun⟩
  | sets name =>
    cases hst
    exact ⟨.has name, rfl, fun _ heq => by cases heq; exact ⟨rfl, rfl⟩, fun _ => nofun⟩
  | has => cases hst
  | other => exact ⟨.other, fun name h => hst name (.await b h), fun _ => nofun, fun _ => nofun⟩

/-! ## Counting -/

/-- The response that a bucket was created. -/
def isCreation (name : String) : PoolEvent Call Request Response → Bool
  | .finish (.ok (.createBucket (.ok name'))) => name' = name
  | _ => false

/-- How many requests have created the bucket. -/
def creations (name : String) (as : List (PoolEvent Call Request Response)) : Nat := as.countP (isCreation name)

/-- The bucket that the next call of a request sets. -/
def aboutToSet : Async Call Empty Response → Option String
  | .await c _ => c.created
  | .done _ => none

/-- Names of buckets have no NUL, and when a request sets a bucket, no other one is about to do so. -/
def Exclusive (p : Requests) : PoolEvent Call Request Response → Prop
  | .request r => ∀ name ∈ r.bucketName, NulFree name
  | .call c => ∀ name, c.created = some name → p.tasks.countP (fun t => aboutToSet t.program = some name) ≤ 1
  | _ => True

/-- The requests that have created the bucket or have set it: none while it is not there, at most one after that.
While a request is about to set it, it is not there. -/
structure Once (name : String) (as : List (PoolEvent Call Request Response)) (s : Backend)
    (hs : List (Option String × Stage)) : Prop where
  sound : s.db.Sound
  count : creations name as + hs.countP (fun h => h.2 = .has name) ≤
    if (s.db.text (.bucket name)).isSome then 1 else 0
  absent : ∀ h ∈ hs, h.2 = .sets name → (s.db.text (.bucket name)).isSome = false

section Once

variable {as : List (PoolEvent Call Request Response)} {hs us vs : List (Option String × Stage)}
  {h h' : Option String × Stage} {a : PoolEvent Call Request Response}

lemma creations_append : creations name (as ++ [a]) = creations name as + if isCreation name a then 1 else 0 := by
  simp [creations]

lemma countP_set (p : Option String × Stage → Bool) :
    (us ++ h :: vs).countP p = (us ++ vs).countP p + if p h then 1 else 0 := by grind

lemma Once.quiet (hold : Once name as s hs) (hdb : s'.db = s.db) (ha : isCreation name a = false) :
    Once name (as ++ [a]) s' hs := by
  refine ⟨by rw [hdb]; exact hold.sound, ?_, by rw [hdb]; exact hold.absent⟩
  rw [hdb, creations_append, ha]
  exact hold.count

lemma Once.request (hold : Once name as s hs) (r : Request) (hsets : h.2 ≠ .sets name) (hhas : h.2 ≠ .has name) :
    Once name (as ++ [.request r]) s (hs ++ [h]) := by
  obtain ⟨hsound, hcount, habsent⟩ := hold.quiet (a := .request r) rfl rfl
  refine ⟨hsound, ?_, forall_mem_append.mpr ⟨habsent, forall_mem_singleton.mpr fun heq => absurd heq hsets⟩⟩
  rw [countP_append, countP_singleton, if_neg (by simpa using hhas)]
  exact hcount

/-- A request that sets the bucket has found none, and no other one has; the other calls leave the bucket. -/
lemma Once.call (hold : Once name as s (us ++ h :: vs)) {β : Type} {c : Call β} {b : β} (hc : Expected g c)
    (hperform : perform D c s = some (b, s')) (hothers : c.created = some name → ∀ u ∈ us ++ vs, u.2 ≠ .sets name)
    (hhas : h'.2 = .has name → h.2 = .sets name ∧ c.created = some name)
    (hsets : h'.2 = .sets name → c.created = none ∧ (s.db.text (.bucket name)).isSome = false) :
    Once name (as ++ [.call c]) s' (us ++ h' :: vs) := by
  obtain ⟨hsound, hcount, habsent⟩ := hold
  have hchanged := perform_changed hsound.ok hc hperform
  refine ⟨hsound.changed hchanged, ?_, fun u hu heq => ?_⟩
  · rw [creations_append, hchanged.text_bucket, countP_set]
    rw [countP_set] at hcount
    by_cases hnew : h'.2 = .has name
    · have hnone := habsent h (by simp) (hhas hnew).1
      rw [hnone] at hcount
      grind [isCreation]
    · grind [isCreation]
  · rw [hchanged.text_bucket]
    by_cases hcreated : c.created = some name
    · grind
    · grind

lemma eq_of_isCreation (hr : isCreation name (.finish r) = true) : r = .ok (.createBucket (.ok name)) := by
  unfold isCreation at hr
  split at hr
  · rename_i heq
    cases heq
    rw [of_decide_eq_true hr]
  · cases hr

lemma Once.forget (hold : Once name as s (us ++ h :: vs)) : Once name as s (us ++ (h.1, .other) :: vs) := by
  obtain ⟨hsound, hcount, habsent⟩ := hold
  refine ⟨hsound, Nat.le_trans (Nat.add_le_add_left ?_ _) hcount, fun u hu => ?_⟩
  · rw [countP_set, countP_set]
    exact Nat.le_add_right _ _
  · grind

lemma Stage.Of.finish {st : Stage} (hst : st.Of (.done (createdBucket name))) : st = .has name := by
  cases st with
  | asks =>
    rw [Stage.Of, handle_createBucket] at hst
    cases hst
  | sets => cases hst
  | has => cases hst; rfl
  | other => exact absurd (.done _) (hst name)

lemma Once.finish (hold : Once name as s (us ++ h :: vs)) (hst : h.2.Of (.done r)) :
    Once name (as ++ [.finish r]) s (us ++ vs) := by
  obtain ⟨hsound, hcount, habsent⟩ := hold
  refine ⟨hsound, Nat.le_trans ?_ hcount, fun u hu => habsent u (by grind)⟩
  rw [creations_append, countP_set]
  split
  · rename_i hr
    rw [eq_of_isCreation hr] at hst
    rw [if_pos (by simp [hst.finish]), Nat.add_right_comm, Nat.add_assoc]
  · omega

end Once

/-- What is known of a request: what it has stored and where it is. -/
def Known (h : Option String × Stage) (p : Async Call Empty Response) : Prop :=
  Outlined (fun _ _ => True) h.1 p ∧ h.2.Of p

/-- If no request is about to set the bucket, none has just found that there is none. -/
lemma ne_sets_of_known {us : List (Option String × Stage)} {ts : List (Task Call (Option String) Response)}
    (h : List.Forall₂ (fun h t => Known h t.program) us ts)
    (hts : ∀ t ∈ ts, aboutToSet t.program ≠ some name) : ∀ u ∈ us, u.2 ≠ .sets name := by
  induction h with
  | nil => exact forall_mem_nil _
  | cons hu _ ih =>
    obtain ⟨ht, hts⟩ := forall_mem_cons.mp hts
    refine forall_mem_cons.mpr ⟨fun heq => ht ?_, ih hts⟩
    have hof := hu.2
    rw [heq] at hof
    rw [show _ = creating name from hof]
    rfl

lemma service_once (D : Digests) (name : String) : (service D).Tracks Known (Once name) Exclusive where
  request _ _ _ r hr h := by
    obtain ⟨st, hst, hsets, hhas⟩ := exists_stage r
    exact ⟨(none, st), ⟨outlined_handle hr, hst⟩, h.request r (hsets name) (hhas name)⟩
  call _ s ts ts' us g vs _ c k _ b s' hexclusive hus hQ hvs h hperform := by
    obtain ⟨st', hst', hhas, hsets⟩ := hQ.2.call h.sound.ok hperform
    refine ⟨(c.noted b g.1, st'), ⟨hQ.1.2 b (possible_of_perform h.sound.ok hQ.1.1 hperform), hst'⟩,
      h.call hQ.1.1 hperform (fun hcreated => ?_) (hhas name) (hsets name)⟩
    have hone := hexclusive name hcreated
    rw [countP_append, countP_cons_of_pos (by exact decide_eq_true hcreated)] at hone
    obtain ⟨hts, hts'⟩ := Nat.add_eq_zero_iff.mp (Nat.le_zero.mp (Nat.le_of_succ_le_succ hone))
    rw [countP_eq_zero] at hts hts'
    exact forall_mem_append.mpr ⟨ne_sets_of_known hus fun t ht heq => hts t ht (decide_eq_true heq),
      ne_sets_of_known hvs fun t ht heq => hts' t ht (decide_eq_true heq)⟩
  panic _ _ _ g _ _ _ _ _ _ h _ :=
    ⟨(g.1, .other), ⟨trivial, fun _ h => by cases h⟩, h.forget.quiet rfl rfl⟩
  finish _ _ _ _ _ r hQ h := h.finish hQ.2
  pass _ _ _ _ hpass h := by
    obtain ⟨_, rfl⟩ := hpass
    exact h.quiet rfl rfl

/-- If no two requests are about to set a bucket when one of them does so, at most one request creates it. The calls of
the others do not panic, so that the bucket exists already is their only response. -/
theorem created_once (D : Digests) (clock : OffsetDateTime) {as : List (PoolEvent Call Request Response)} {p : Requests}
    (hrun : (((service D).system (startedBackend D clock)).only Exclusive).Run ⟨startedBackend D clock, []⟩ as p)
    (name : String) :
    creations name as ≤ 1 ∧
      (perform D (.get rootStore (bucketPath name)) p.state).isSome = true ∧
      (perform D (.set rootStore (bucketPath name) "" (bucketVersionPath name)) p.state).isSome = true ∧
      ∀ r, (S3.handle (.createBucket name)).Ends r → r = createdBucket name ∨ r = alreadyExists := by
  have hstart : Once name [] (startedBackend D clock) [] :=
    ⟨startedBackend_sound D clock, Nat.zero_le _, forall_mem_nil _⟩
  obtain ⟨hs, -, hsound, hcount, -⟩ := Service.run_tracked (service_once D name) hstart hrun
  refine ⟨?_, ?_, ?_, fun _ => ends_createBucket⟩
  · split at hcount <;> omega
  · rw [perform_getBucket hsound.ok name]
    rfl
  · rw [perform_setBucket hsound.ok name]
    rfl

/-! ## Two requests -/

/-- The bucket is looked up, and it is set. -/
def lookup (name : String) : PoolEvent Call Request Response := .call (.get rootStore (bucketPath name))

def entry (name : String) : PoolEvent Call Request Response :=
  .call (.set rootStore (bucketPath name) "" (bucketVersionPath name))

lemma step_get (h : s.db.Ok) (name : String) (us vs : List (Task Call (Option String) Response)) :
    (service D).Step ⟨s, us ++ ⟨S3.handle (.createBucket name), none⟩ :: vs⟩ (lookup name)
      ⟨s, us ++ ⟨if (s.db.text (.bucket name)).isSome then .done alreadyExists else creating name, none⟩ :: vs⟩ := by
  rw [handle_createBucket]
  exact .call us vs (perform_getBucket (D := D) h name)

/-- The state after the bucket was set. -/
def Backend.enter (s : Backend) (name : String) : Backend :=
  { s with db := s.db.createBucket name (s.db.nextVersion "root" name) }

lemma step_set (h : s.db.Ok) (name : String) (us vs : List (Task Call (Option String) Response)) :
    (service D).Step ⟨s, us ++ ⟨creating name, none⟩ :: vs⟩ (entry name)
      ⟨s.enter name, us ++ ⟨.done (createdBucket name), none⟩ :: vs⟩ :=
  .call us vs (perform_setBucket (D := D) h name)

lemma absent_at_start (D : Digests) (clock : OffsetDateTime) (name : String) :
    ((startedBackend D clock).db.text (.bucket name)).isSome = false :=
  (startedBackend_represents D clock).bucket name

lemma text_enter (s : Backend) (name : String) : (s.enter name).db.text (.bucket name) = some "" := by
  rw [Backend.enter, Db.text_createBucket name _ (e := .bucket name) trivial rfl, if_pos rfl]

lemma named_createBucket : ∀ name ∈ (Request.createBucket "bucket").bucketName, NulFree name := by decide

/-- Both requests ask before one of them sets the bucket. -/
theorem created_twice : ∃ (as : List (PoolEvent Call Request Response)) (p : Requests),
    (((service byteDigests).system (startedBackend byteDigests startTime)).only Named).Run
        ⟨startedBackend byteDigests startTime, []⟩ as p ∧
      creations "bucket" as = 2 := by
  have h := (startedBackend_sound byteDigests startTime).ok
  have hget (us vs : List (Task Call (Option String) Response)) := step_get (D := byteDigests) h "bucket" us vs
  simp only [absent_at_start, Bool.false_eq_true, ite_false] at hget
  refine ⟨[.request (.createBucket "bucket"), .request (.createBucket "bucket"), lookup "bucket", lookup "bucket",
    entry "bucket", entry "bucket", .finish (createdBucket "bucket"), .finish (createdBucket "bucket")],
    ⟨((startedBackend byteDigests startTime).enter "bucket").enter "bucket", []⟩, ?_, by decide⟩
  refine .cons ⟨named_createBucket, .request _⟩ (.cons ⟨named_createBucket, .request _⟩ ?_)
  refine .cons ⟨trivial, hget [] [_]⟩ (.cons ⟨trivial, hget [_] []⟩ ?_)
  refine .cons ⟨trivial, step_set h "bucket" [] [_]⟩ ?_
  refine .cons ⟨trivial, step_set (h.createBucket "bucket" _) "bucket" [_] []⟩ ?_
  exact .cons ⟨trivial, .finish [] [_] _ _⟩ (.cons ⟨trivial, .finish [] [] _ _⟩ .nil)

/-- The second request asks when the first one has set the bucket. -/
theorem created_once_of_two : ∃ (as : List (PoolEvent Call Request Response)) (p : Requests),
    (((service byteDigests).system (startedBackend byteDigests startTime)).only Exclusive).Run
        ⟨startedBackend byteDigests startTime, []⟩ as p ∧
      creations "bucket" as = 1 ∧ .finish alreadyExists ∈ as ∧
      (perform byteDigests (.get rootStore (bucketPath "bucket")) p.state).isSome = true := by
  have h := (startedBackend_sound byteDigests startTime).ok
  have hget := step_get (D := byteDigests) h "bucket" [] [⟨S3.handle (.createBucket "bucket"), none⟩]
  have hfound := step_get (D := byteDigests) (s := (startedBackend byteDigests startTime).enter "bucket")
    (h.createBucket "bucket" _) "bucket" [⟨.done (createdBucket "bucket"), none⟩] []
  simp only [absent_at_start, Bool.false_eq_true, ite_false] at hget
  simp only [text_enter, ite_true, Option.isSome_some] at hfound
  have hrun : (((service byteDigests).system (startedBackend byteDigests startTime)).only Exclusive).Run
      ⟨startedBackend byteDigests startTime, []⟩ [.request (.createBucket "bucket"), .request (.createBucket "bucket"),
        lookup "bucket", entry "bucket", lookup "bucket", .finish (createdBucket "bucket"), .finish alreadyExists]
      ⟨(startedBackend byteDigests startTime).enter "bucket", []⟩ := by
    refine .cons ⟨named_createBucket, .request _⟩ (.cons ⟨named_createBucket, .request _⟩ ?_)
    refine .cons ⟨fun _ hset => (by cases hset), hget⟩ ?_
    refine .cons ⟨fun _ hset => (by cases hset; decide), step_set h "bucket" [] [_]⟩ ?_
    refine .cons ⟨fun _ hset => (by cases hset), hfound⟩ ?_
    exact .cons ⟨trivial, .finish [] [_] _ _⟩ (.cons ⟨trivial, .finish [] [] _ _⟩ .nil)
  exact ⟨_, _, hrun, by decide, by simp, (created_once byteDigests startTime hrun "bucket").2.1⟩

end Dtn.Replistore
