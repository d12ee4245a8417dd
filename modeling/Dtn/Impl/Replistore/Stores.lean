import Dtn.Framework.Bytes
import Dtn.Framework.Table

/-!
# The stores (`replistore/src/stores/{keyvalue,contentaddressableblob,storeowner}.rs`)

All key-value stores are in one RocksDB database (`Db`), each under its name;
the blobs are files that are named by their SHA-256 sum (`Files`). RocksDB reports
no errors here, and a transaction is written as a whole. A handler that panics
has no result.
-/

namespace Dtn.Replistore

/-- A byte string. -/
abbrev Bytes := List UInt8

/-! ## The database -/

/-- A map from byte strings to byte strings. -/
structure Db where
  table : Table Bytes Bytes
  distinct : table.keys.Nodup
  deriving DecidableEq

namespace Db

def empty : Db := ⟨.empty, List.nodup_nil⟩

def get (db : Db) (key : String) : Option Bytes := db.table.get (utf8 key)

/-- What `PrefixRange` iterates over. -/
def range (db : Db) (start : String) : List (Bytes × Bytes) := db.table.entries.filter fun e =>
    (utf8 start).isPrefixOf e.1

def put (db : Db) (key : String) (value : Bytes) : Db :=
  ⟨db.table.insert (utf8 key) value, Table.nodup_insert db.distinct⟩

lemma nodup_remove {t : Table Bytes Bytes} (h : t.keys.Nodup) (key : Bytes) : (t.remove key).keys.Nodup :=
  List.Nodup.sublist (List.filter_sublist.map Prod.fst) h

def delete (db : Db) (key : Bytes) : Db := ⟨db.table.remove key, nodup_remove db.distinct key⟩

end Db

/-- `u64::to_le_bytes`. -/
def toLeBytes (n : UInt64) : Bytes := (beBytes 8 n.toNat).reverse

/-- `u64::from_le_bytes`, if there are eight bytes. -/
def fromLeBytes (bs : Bytes) : Option UInt64 :=
  if bs.length = 8 then some (.ofNat (beNat bs.reverse)) else none

/-! ## Key-value stores -/

/-- `keys.join("\0")`. -/
def join : List String → String
  | [] => ""
  | [key] => key
  | key :: keys => key ++ "\x00" ++ join keys

namespace KeyValueStore

/-- The key in the database, for the store with this name. -/
def getPath (name : String) (keys : List String) : String := "\x00store\x00" ++ name ++ "\x00" ++ join keys

/-- The version after one change more, and the database with it. -/
def bumpVersion (name : String) (versionPath : List String) (old new : Db) : Option (UInt64 × Db) :=
  match old.get (getPath name versionPath) with
  | none => some (1, new.put (getPath name versionPath) (toLeBytes 1))
  | some bs => do
    let version ← fromLeBytes bs
    return (version + 1, new.put (getPath name versionPath) (toLeBytes (version + 1)))

def get (name : String) (key : List String) (db : Db) : Option (Option String) :=
  match db.get (getPath name key) with
  | none => some none
  | some bs => do return some (← fromUtf8 bs)

def set (name : String) (key : List String) (value : String) (versionPath : List String) (db : Db) :
    Option (UInt64 × Db) :=
  bumpVersion name versionPath db (db.put (getPath name key) (utf8 value))

def multiSet (name : String) (data : List (List String × String)) (versionPath : List String) (db : Db) :
    Option (UInt64 × Db) :=
  bumpVersion name versionPath db (data.foldl (fun new e => new.put (getPath name e.1) (utf8 e.2)) db)

def delete (name : String) (key : List String) (versionPath : List String) (db : Db) : Option (UInt64 × Db) :=
  bumpVersion name versionPath db (db.delete (utf8 (getPath name key)))

/-- The keys are found in the database as it was before. -/
def multiDelete (name : String) (data : List (List String)) (versionPath : List String) (db : Db) :
    Option (UInt64 × Db) :=
  bumpVersion name versionPath db
    ((data.flatMap fun key => db.range (getPath name key)).foldl (fun new e => new.delete e.1) db)

/-- An entry that `List` found, without the path. -/
def listed (path : String) (e : Bytes × Bytes) : Option (String × String) := do
  let key ← fromUtf8 (e.1.drop (utf8 path).length)
  let value ← fromUtf8 e.2
  return (key, value)

def list (name : String) (start : List String) (db : Db) : Option (Table String String) := do
  let entries ← (db.range (getPath name start)).mapM (listed (getPath name start))
  return .collect entries

end KeyValueStore

/-! ## The owner of the stores -/

inductive StoreType where
  | contentAddressableBlob
  | keyValue
  deriving DecidableEq

/-- `as_bytes` and `fmt` give the same text. -/
def StoreType.name : StoreType → String
  | contentAddressableBlob => "ContentAddressableBlob"
  | keyValue => "KeyValue"

inductive GetOrCreateError where
  | storeTypeMissmatch (store found : String)
  deriving DecidableEq

def typeKey (name : String) : String := "\x00type\x00" ++ name

/-- The database with the type of the store, if it has no other one. -/
def checkOrCreateStoreType (name : String) (storeType : StoreType) (db : Db) : Option
    (Except GetOrCreateError Unit × Db) :=
  match db.get (typeKey name) with
  | none => some (.ok (), db.put (typeKey name) (utf8 storeType.name))
  | some entry =>
    if entry = utf8 storeType.name then some (.ok (), db)
    else do
      let found ← fromUtf8 entry
      return (.error (.storeTypeMissmatch storeType.name found), db)

/-! ## Blobs -/

/-- The digests, in hexadecimal digits: of MD5 nothing matters, and SHA-256 has no
collisions. A digest is not the name of the directory for temporary files. -/
structure Digests where
  md5 : Bytes → String
  sha256 : Bytes → String
  sha256_injective : ∀ {bs bs' : Bytes}, sha256 bs = sha256 bs' → bs = bs'
  sha256_name : ∀ bs, sha256 bs ≠ "" ∧ sha256 bs ≠ "tmp"

/-- The directory `data`: the files in its directory `tmp` have numbers here, the others the names of their blobs. -/
structure Files where
  tmp : Table Nat Bytes
  blobs : Table String Bytes
  nextUuid : Nat
  deriving DecidableEq

structure Metadata where
  isFile : Bool
  len : UInt64
  deriving DecidableEq

namespace Files

def empty : Files := ⟨.empty, .empty, 0⟩

/-- `File::create` under a new name. -/
def create (f : Files) : Nat × Files :=
  (f.nextUuid, { f with tmp := f.tmp.insert f.nextUuid [], nextUuid := f.nextUuid + 1 })

/-- Bytes are written behind those that are there. -/
def write (f : Files) (uuid : Nat) (bs : Bytes) : Files :=
  { f with tmp := f.tmp.insert uuid ((f.tmp.get uuid).getD [] ++ bs) }

/-- The temporary file becomes a blob, in place of one with this name. -/
def rename (f : Files) (uuid : Nat) (sha256sum : String) : Option Files := do
  let content ← f.tmp.get uuid
  return { f with tmp := f.tmp.remove uuid, blobs := f.blobs.insert sha256sum content }

/-- The directory itself and the one for temporary files are no files. -/
def metadata (f : Files) (sha256sum : String) : Option Metadata :=
  if sha256sum = "" ∨ sha256sum = "tmp" then some ⟨false, 0⟩
  else (f.blobs.get sha256sum).map fun content => ⟨true, .ofNat content.length⟩

def remove (f : Files) (sha256sum : String) : Option Files := do
  let _ ← f.blobs.get sha256sum
  return { f with blobs := f.blobs.remove sha256sum }

end Files

end Dtn.Replistore
