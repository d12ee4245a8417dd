import Dtn.Framework.Async
import Dtn.Framework.Text
import Dtn.Impl.Replistore.Stores

/-!
# The S3 backend (`replistore/src/frontend/s3/s3_backend.rs`)

A handler of the backend is an asynchronous function that makes calls to the
stores (`Call`); those to the blob store are made by the asynchronous functions
of `contentaddressableblob.rs` (`putBlob`, `getBlob`, `deleteBlob`), one for each
access to the file system. The address of a key-value store is its name. Calls
are carried out on a `Backend`.
-/

namespace Dtn.Replistore

/-! ## Numbers and times as text -/

/-- `str::parse::<i64>`. -/
def parseI64 (s : String) : Option Int := do
  let i ← match s.toList with
    | '-' :: cs => (parseDigits cs).map fun n : Nat => -(n : Int)
    | '+' :: cs => (parseDigits cs).map Int.ofNat
    | cs => (parseDigits cs).map Int.ofNat
  if -2 ^ 63 ≤ i ∧ i < 2 ^ 63 then return i else none

/-- A time, in seconds and nanoseconds: the years -9999 to 9999. -/
structure OffsetDateTime where
  unixTimestamp : Int
  nanosecond : Nat
  inRange : -377705116800 ≤ unixTimestamp ∧ unixTimestamp ≤ 253402300799
  deriving DecidableEq

def OffsetDateTime.fromUnixTimestamp (timestamp : Int) : Option OffsetDateTime :=
  if h : -377705116800 ≤ timestamp ∧ timestamp ≤ 253402300799 then some ⟨timestamp, 0, h⟩ else none

/-! ## Messages -/

structure Object where
  key : String
  md5sum : String
  sha256sum : String
  lastModified : OffsetDateTime
  size : UInt64
  deriving DecidableEq

inductive CreateBucketError where
  | bucketAlreadyExists
  deriving DecidableEq

inductive ListObjectError where
  | bucketNotFound
  deriving DecidableEq

inductive HeadObjectError where
  | bucketNotFound
  | objectNotFound
  deriving DecidableEq

inductive PutObjectError where
  | bucketNotFound
  | readDataError (msg : String)
  deriving DecidableEq

inductive GetObjectError where
  | bucketNotFound
  | objectNotFound
  | readDataError (msg : String)
  deriving DecidableEq

inductive DeleteObjectError where
  | bucketNotFound
  | objectNotFound
  | readDataError (msg : String)
  deriving DecidableEq

inductive ReceiveEventError where
  | bucketNotExists
  deriving DecidableEq

structure GetObjectResult where
  metadata : Object
  data : Bytes
  deriving DecidableEq

inductive EventType where
  | put
  | delete
  deriving DecidableEq

structure ObjectMeta where
  lastModified : Int
  size : UInt64
  md5sum : String
  sha256sum : String
  deriving DecidableEq

structure Event where
  type : EventType
  version : UInt64
  objectName : String
  objectMeta : Option ObjectMeta
  deriving DecidableEq

/-- A message of the replication, without its list of objects: it is sent empty and not read. -/
structure BucketEvent where
  bucketName : String
  events : List Event
  deriving DecidableEq

/-! ## Calls -/

inductive Call : Type → Type where
  | get (store : String) (key : List String) : Call (Option String)
  | set (store : String) (key : List String) (value : String) (versionPath : List String) : Call UInt64
  | multiSet (store : String) (data : List (List String × String)) (versionPath : List String) : Call UInt64
  | multiDelete (store : String) (data : List (List String)) (versionPath : List String) : Call UInt64
  | list (store : String) (start : List String) : Call (Table String String)
  | getOrCreateKeyValueStore (name : String) : Call (Except GetOrCreateError String)
  | getOrCreateContentAddressableBlobStore (name : String) : Call (Except GetOrCreateError String)
  /-- `File::create` of a file in `tmp` with a new name. -/
  | create : Call Nat
  | write (tmpfile : Nat) (bytes : Bytes) : Call Unit
  /-- `hash_file`: the MD5 and the SHA-256 sum. -/
  | hashFile (tmpfile : Nat) : Call (Option (String × String))
  | rename (tmpfile : Nat) (sha256sum : String) : Call (Option Unit)
  | metadata (sha256sum : String) : Call (Option Metadata)
  | openFile (sha256sum : String) : Call (Option Bytes)
  | removeFile (sha256sum : String) : Call (Option Unit)
  | nowUtc : Call OffsetDateTime
  /-- `do_send` of a `ReplicateEvent`. -/
  | replicateEvent (bucketEvent : BucketEvent) : Call Unit

/-- What the calls read and change. -/
structure Backend where
  db : Db
  files : Files
  clock : OffsetDateTime
  replicated : List BucketEvent
  deriving DecidableEq

/-- A file operation, whose failure is an answer as well. -/
def Backend.changeFiles (b : Backend) (files : Option Files) : Option Unit × Backend :=
  match files with
  | some files => (some (), { b with files })
  | none => (none, b)

/-- An operation of the database. -/
def Backend.changeDb {β : Type} (b : Backend) (x : Option (β × Db)) : Option (β × Backend) :=
  x.map fun (answer, db) => (answer, { b with db })

def perform (D : Digests) : {β : Type} → Call β → Backend → Option (β × Backend)
  | _, .get store key, b => (KeyValueStore.get store key b.db).map (·, b)
  | _, .set store key value versionPath, b => b.changeDb (KeyValueStore.set store key value versionPath b.db)
  | _, .multiSet store data versionPath, b => b.changeDb (KeyValueStore.multiSet store data versionPath b.db)
  | _, .multiDelete store data versionPath, b => b.changeDb (KeyValueStore.multiDelete store data versionPath b.db)
  | _, .list store start, b => (KeyValueStore.list store start b.db).map (·, b)
  | _, .getOrCreateKeyValueStore name, b =>
    (b.changeDb (checkOrCreateStoreType name .keyValue b.db)).map fun (r, b) => (r.map fun _ => name, b)
  | _, .getOrCreateContentAddressableBlobStore name, b =>
    (b.changeDb (checkOrCreateStoreType name .contentAddressableBlob b.db)).map fun (r, b) => (r.map fun _ => name, b)
  | _, .create, b => some (b.files.create.1, { b with files := b.files.create.2 })
  | _, .write tmpfile bytes, b => some ((), { b with files := b.files.write tmpfile bytes })
  | _, .hashFile tmpfile, b => some ((b.files.tmp.get tmpfile).map fun content => (D.md5 content, D.sha256 content), b)
  | _, .rename tmpfile sha256sum, b => some (b.changeFiles (b.files.rename tmpfile sha256sum))
  | _, .metadata sha256sum, b => some (b.files.metadata sha256sum, b)
  | _, .openFile sha256sum, b => some (b.files.blobs.get sha256sum, b)
  | _, .removeFile sha256sum, b => some (b.changeFiles (b.files.remove sha256sum))
  | _, .nowUtc, b => some (b.clock, b)
  | _, .replicateEvent bucketEvent, b => some ((), { b with replicated := b.replicated ++ [bucketEvent] })

def machine (D : Digests) : Machine Call Backend := ⟨perform D⟩

/-! ## The blob store -/

/-- The text of an `io::Error` for a file that is not there. -/
def notFound : String := "No such file or directory (os error 2)"

inductive PutBlobError where
  | blobRead (msg : String)
  | io (msg : String)
  deriving DecidableEq

inductive GetBlobError where
  | io (msg : String)
  | blobDoesNotExist
  deriving DecidableEq

inductive DeleteBlobError where
  | ioError (msg : String)
  | blobDoesNotExist
  deriving DecidableEq

structure BlobInfo where
  md5sum : String
  sha256sum : String
  size : UInt64
  deriving DecidableEq

/-- The answer of a file operation, or its error. -/
def ok {ε α : Type} (e : ε) : Option α → Async Call ε α
  | some a => .done (.ok a)
  | none => .throw e

/-- The items of a stream, up to the first error, are written to the file. -/
def forward (tmpfile : Nat) : List (Except String Bytes) → Async Call PutBlobError Unit
  | [] => return ()
  | .ok bytes :: data => do
    let _ ← .call (.write tmpfile bytes)
    forward tmpfile data
  | .error msg :: _ => .throw (.blobRead msg)

def putBlob (data : List (Except String Bytes)) : Async Call PutBlobError BlobInfo := do
  let tmpfile ← .call .create
  forward tmpfile data
  let (md5sum, sha256sum) ← ok (.io notFound) (← .call (.hashFile tmpfile))
  ok (.io notFound) (← .call (.rename tmpfile sha256sum))
  let metadata ← ok (.io notFound) (← .call (.metadata sha256sum))
  return ⟨md5sum, sha256sum, metadata.len⟩

def getBlob (sha256sum : String) : Async Call GetBlobError Bytes := do
  let metadata ← ok (.io notFound) (← .call (.metadata sha256sum))
  if !metadata.isFile then .throw .blobDoesNotExist
  else do ok (.io notFound) (← .call (.openFile sha256sum))

def deleteBlob (sha256sum : String) : Async Call DeleteBlobError Unit := do
  let metadata ← ok (.ioError notFound) (← .call (.metadata sha256sum))
  if !metadata.isFile then .throw .blobDoesNotExist
  else do ok (.ioError notFound) (← .call (.removeFile sha256sum))

/-- `From<PutBlobError> for PutObjectError`. -/
def PutObjectError.ofBlob : PutBlobError → PutObjectError
  | .blobRead msg => .readDataError msg
  | .io msg => .readDataError msg

/-- `From<GetBlobError> for GetObjectError`. -/
def GetObjectError.ofBlob : GetBlobError → GetObjectError
  | .io msg => .readDataError msg
  | .blobDoesNotExist => .objectNotFound

/-- `From<DeleteBlobError> for DeleteObjectError`. -/
def DeleteObjectError.ofBlob : DeleteBlobError → DeleteObjectError
  | .ioError msg => .readDataError msg
  | .blobDoesNotExist => .objectNotFound

/-! ## Paths -/

namespace S3

def rootStore : String := "s3metadata\x00root"

/-- The name of the store of a bucket. -/
def bucketStore (bucket : String) : String := "s3metadata\x00" ++ bucket

def bucketPath (name : String) : List String := ["buckets", name]

def bucketVersionPath (name : String) : List String := ["bucketmeta", name, "version"]

def objectPath (bucket key : String) : List String := ["objects", bucket, key]

def objectmetaPath (bucket key suffix : String) : List String := ["objectmeta", bucket, key, suffix]

/-! ## Handlers -/

/-- `started`: the stores that are always there. An error stops the actor. -/
def started : Async Call Empty Unit := do
  let root ← .call (.getOrCreateKeyValueStore rootStore)
  let blobs ← .call (.getOrCreateContentAddressableBlobStore "s3data")
  match root, blobs with
  | .ok _, .ok _ => return ()
  | _, _ => .done .panic

def withBucketStore {ε α : Type} (bucket : String) (notFoundError : ε) (handler : String → Async Call ε α) :
    Async Call ε α := do
  if (← .call (.get rootStore (bucketPath bucket))).isNone then .throw notFoundError
  else
    match ← .call (.getOrCreateKeyValueStore (bucketStore bucket)) with
    | .ok store => handler store
    | .error _ => .done .panic

/-- The metadata of an object. What is missing or is no number has its default. -/
def metaToObj {ε : Type} (store bucket obj : String) : Async Call ε Object := do
  let entries ← .call (.list store (objectmetaPath bucket obj ""))
  let timestamp := ((entries.get "last_modified").bind parseI64).getD 0
  match OffsetDateTime.fromUnixTimestamp timestamp with
  | none => .done .panic
  | some lastModified =>
    return {
      key := obj
      md5sum := (entries.get "md5sum").getD ""
      sha256sum := (entries.get "sha256sum").getD ""
      lastModified
      size := ((entries.get "size").bind parseU64).getD 0 }

def listBuckets : Async Call Empty (List String) := do
  let resp ← .call (.list rootStore ["buckets", ""])
  return resp.keys

def createBucket (name : String) : Async Call CreateBucketError String := do
  if (← .call (.get rootStore (bucketPath name))).isSome then .throw .bucketAlreadyExists
  else do
    let _ ← .call (.set rootStore (bucketPath name) "" (bucketVersionPath name))
    return name

def headBucket (name : String) : Async Call Empty (Option Unit) := do
  return (← .call (.get rootStore (bucketPath name))).map fun _ => ()

/-- The metadata of each object that was found. -/
def listed (store bucket : String) : List String → Async Call ListObjectError (List Object)
  | [] => return []
  | obj :: objs => do
    let object ← metaToObj store bucket obj
    let result ← listed store bucket objs
    return object :: result

def listObject (bucket start : String) : Async Call ListObjectError (List Object) :=
  withBucketStore bucket .bucketNotFound fun store => do
    let found ← .call (.list store (objectPath bucket start))
    listed store bucket found.keys

def headObject (bucket key : String) : Async Call HeadObjectError Object :=
  withBucketStore bucket .bucketNotFound fun store => do
    if (← .call (.get store (objectPath bucket key))).isNone then .throw .objectNotFound
    else metaToObj store bucket key

/-- The entries that `PutObject` writes. -/
def objectEntries (bucket key : String) (info : BlobInfo) (lastModified : OffsetDateTime) :
    List (List String × String) :=
  [(objectPath bucket key, ""),
    (objectmetaPath bucket key "last_modified", toString lastModified.unixTimestamp),
    (objectmetaPath bucket key "md5sum", info.md5sum),
    (objectmetaPath bucket key "sha256sum", info.sha256sum),
    (objectmetaPath bucket key "size", toString info.size.toNat)]

def putObject (bucket key : String) (data : List (Except String Bytes)) : Async Call PutObjectError Object :=
  withBucketStore bucket .bucketNotFound fun store => do
    let info ← (putBlob data).mapErr PutObjectError.ofBlob
    let lastModified ← .call .nowUtc
    let version ← .call (.multiSet store (objectEntries bucket key info lastModified) (bucketVersionPath bucket))
    let _ ← .call (.replicateEvent ⟨bucket, [⟨.put, version, key,
      some ⟨lastModified.unixTimestamp, info.size, info.md5sum, info.sha256sum⟩⟩]⟩)
    return ⟨key, info.md5sum, info.sha256sum, lastModified, info.size⟩

def getObject (bucket key : String) : Async Call GetObjectError GetObjectResult :=
  withBucketStore bucket .bucketNotFound fun store => do
    if (← .call (.get store (objectPath bucket key))).isNone then .throw .objectNotFound
    else do
      let metadata ← metaToObj store bucket key
      let data ← (getBlob metadata.sha256sum).mapErr GetObjectError.ofBlob
      return ⟨metadata, data⟩

def deleteObject (bucket key : String) : Async Call DeleteObjectError Unit :=
  withBucketStore bucket .bucketNotFound fun store => do
    if (← .call (.get store (objectPath bucket key))).isNone then .throw .objectNotFound
    else do
      let metadata ← metaToObj store bucket key
      let version ← .call (.multiDelete store [objectPath bucket key, objectmetaPath bucket key ""]
        (bucketVersionPath bucket))
      let _ ← .call (.replicateEvent ⟨bucket, [⟨.delete, version, key, none⟩]⟩)
      (deleteBlob metadata.sha256sum).mapErr DeleteObjectError.ofBlob

/-- The loop over the events of a message: each reads the version of the bucket. -/
def compareVersions (store bucket : String) : List Event → Async Call ReceiveEventError Unit
  | [] => return ()
  | _ :: events => do
    let _ ← .call (.get store (bucketVersionPath bucket))
    compareVersions store bucket events

def eventReplicationReceived (storeEvent : BucketEvent) : Async Call ReceiveEventError Unit :=
  withBucketStore storeEvent.bucketName .bucketNotExists fun store =>
    compareVersions store storeEvent.bucketName storeEvent.events

end S3

/-- What the backend is asked. -/
inductive Request where
  | listBuckets
  | createBucket (name : String)
  | headBucket (name : String)
  | listObject (bucket start : String)
  | headObject (bucket key : String)
  | putObject (bucket key : String) (data : List (Except String Bytes))
  | getObject (bucket key : String)
  | deleteObject (bucket key : String)
  | eventReplicationReceived (storeEvent : BucketEvent)

inductive Response where
  | listBuckets (buckets : List String)
  | createBucket (result : Except CreateBucketError String)
  | headBucket (found : Option Unit)
  | listObject (result : Except ListObjectError (List Object))
  | headObject (result : Except HeadObjectError Object)
  | putObject (result : Except PutObjectError Object)
  | getObject (result : Except GetObjectError GetObjectResult)
  | deleteObject (result : Except DeleteObjectError Unit)
  | eventReplicationReceived (result : Except ReceiveEventError Unit)

/-- `Handler::handle`, for each message. -/
def S3.handle : Request → Async Call Empty Response
  | .listBuckets => .listBuckets <$> listBuckets
  | .createBucket name => .createBucket <$> (createBucket name).attempt
  | .headBucket name => .headBucket <$> headBucket name
  | .listObject bucket start => .listObject <$> (listObject bucket start).attempt
  | .headObject bucket key => .headObject <$> (headObject bucket key).attempt
  | .putObject bucket key data => .putObject <$> (putObject bucket key data).attempt
  | .getObject bucket key => .getObject <$> (getObject bucket key).attempt
  | .deleteObject bucket key => .deleteObject <$> (deleteObject bucket key).attempt
  | .eventReplicationReceived storeEvent =>
    .eventReplicationReceived <$> (eventReplicationReceived storeEvent).attempt

end Dtn.Replistore
