import Dtn.Impl.Replistore.S3

/-!
# The object store as a map

What the object store is for: an `ObjectMap` says which buckets there are, and
what was stored last under each of their keys. Requests are answered one at a
time (`ObjectMap.answer`).
-/

namespace Dtn.Replistore

/-- The requests that store and read. -/
inductive MapRequest where
  | createBucket (name : String)
  | putObject (bucket key : String) (data : List (Except String Bytes))
  | getObject (bucket key : String)
  | headObject (bucket key : String)

namespace MapRequest

def request : MapRequest → Request
  | createBucket name => .createBucket name
  | putObject bucket key data => .putObject bucket key data
  | getObject bucket key => .getObject bucket key
  | headObject bucket key => .headObject bucket key

def bucket : MapRequest → String
  | createBucket name => name
  | putObject bucket _ _ | getObject bucket _ | headObject bucket _ => bucket

end MapRequest

/-- All of a stream, or its first error. -/
def collected : List (Except String Bytes) → Except String Bytes
  | [] => .ok []
  | .ok bytes :: data => (collected data).map (bytes ++ ·)
  | .error msg :: _ => .error msg

/-- What was stored, and when. -/
structure Stored where
  content : Bytes
  time : OffsetDateTime

/-- What is said about an object. -/
def Stored.object (D : Digests) (key : String) (st : Stored) (lastModified : OffsetDateTime) : Object where
  key := key
  md5sum := D.md5 st.content
  sha256sum := D.sha256 st.content
  lastModified := lastModified
  size := .ofNat st.content.length

/-- The time to the second. -/
def OffsetDateTime.seconds (t : OffsetDateTime) : OffsetDateTime := { t with nanosecond := 0 }

structure ObjectMap where
  created : String → Bool
  objects : String → String → Option Stored

namespace ObjectMap

def empty : ObjectMap := ⟨fun _ => false, fun _ _ => none⟩

def create (m : ObjectMap) (name : String) : ObjectMap :=
  { m with created := fun name' => if name = name' then true else m.created name' }

def store (m : ObjectMap) (bucket key : String) (st : Stored) : ObjectMap :=
  { m with objects := fun bucket' key' => if bucket = bucket' ∧ key = key' then some st else m.objects bucket' key' }

lemma created_create (m : ObjectMap) (name name' : String) :
    (m.create name).created name' = if name = name' then true else m.created name' := rfl

lemma objects_store (m : ObjectMap) (bucket key : String) (st : Stored) (bucket' key' : String) :
    (m.store bucket key st).objects bucket' key' =
      if bucket = bucket' ∧ key = key' then some st else m.objects bucket' key' := rfl

/-- The answer to a request at this time, and the map after it. -/
def answer (D : Digests) (m : ObjectMap) (now : OffsetDateTime) : MapRequest → Response × ObjectMap
  | .createBucket name =>
    if m.created name then (.createBucket (.error .bucketAlreadyExists), m)
    else (.createBucket (.ok name), m.create name)
  | .putObject bucket key data =>
    if m.created bucket then
      match collected data with
      | .ok content => (.putObject (.ok (Stored.object D key ⟨content, now⟩ now)), m.store bucket key ⟨content, now⟩)
      | .error msg => (.putObject (.error (.readDataError msg)), m)
    else (.putObject (.error .bucketNotFound), m)
  | .getObject bucket key =>
    if m.created bucket then
      match m.objects bucket key with
      | some st => (.getObject (.ok ⟨st.object D key st.time.seconds, st.content⟩), m)
      | none => (.getObject (.error .objectNotFound), m)
    else (.getObject (.error .bucketNotFound), m)
  | .headObject bucket key =>
    if m.created bucket then
      match m.objects bucket key with
      | some st => (.headObject (.ok (st.object D key st.time.seconds)), m)
      | none => (.headObject (.error .objectNotFound), m)
    else (.headObject (.error .bucketNotFound), m)

/-- The answers to requests at their times. -/
def answers (D : Digests) (m : ObjectMap) : List (OffsetDateTime × MapRequest) → List Response
  | [] => []
  | (now, r) :: rs => (m.answer D now r).1 :: (m.answer D now r).2.answers D rs

end ObjectMap

end Dtn.Replistore
