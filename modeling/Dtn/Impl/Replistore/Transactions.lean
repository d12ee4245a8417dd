import Dtn.Framework.Transaction
import Dtn.Impl.Replistore.Stores

/-!
# Errors of the database (`replistore/src/stores/keyvalue.rs`)

`KeyValueStore` has the handlers that write for a database that reports no errors.
Here each operation of RocksDB may report one: a read, a write of the transaction,
a step of an iterator and the commit. A handler ends with the first error (`?`) and
drops its transaction. All messages have the same `version_path`.
-/

namespace Dtn.Replistore

/-- `StoreError`, without the error of RocksDB in it. -/
inductive StoreError where
  | rocksError
  deriving DecidableEq

/-- What a transaction writes. -/
inductive DbWrite where
  | put (key : String) (value : Bytes)
  | delete (key : Bytes)
  deriving DecidableEq

def Db.apply (db : Db) : DbWrite → Db
  | .put key value => db.put key value
  | .delete key => db.delete key

/-- The messages of a key-value store that write. The map of `MultiSet` is in the order in which it is drained. -/
inductive WriteMessage where
  | set (key : List String) (value : String)
  | multiSet (data : List (List String × String))
  | delete (key : List String)
  | multiDelete (data : List (List String))
  deriving DecidableEq

namespace Rocks

open KeyValueStore (getPath)

abbrev DbTxn (α : Type) := Txn Db DbWrite StoreError α

def get (key : String) : DbTxn (Option Bytes) := .read .rocksError (·.get key)

def put (key : String) (value : Bytes) : DbTxn Unit := .write .rocksError (.put key value)

def delete (key : Bytes) : DbTxn Unit := .write .rocksError (.delete key)

/-- `Iterator::next`. -/
def next {α : Type} (found : α) : DbTxn α := .read .rocksError fun _ => found

/-- The version in what was found; `unwrap` panics on a value that has not eight bytes. -/
def versionIn : Option Bytes → Outcome StoreError UInt64
  | none => .ok 0
  | some e => (fromLeBytes e).elim .panic .ok

/-- The version is read from the database, not from the transaction. -/
def bumpVersion (name : String) (versionPath : List String) : DbTxn UInt64 := do
  let ver ← .lift (versionIn (← get (getPath name versionPath)))
  put (getPath name versionPath) (toLeBytes (ver + 1))
  return ver + 1

def putAll (name : String) : List (List String × String) → DbTxn Unit
  | [] => return ()
  | (key, value) :: data => do
    put (getPath name key) (utf8 value)
    putAll name data

/-- The loop over what an iterator finds; the end of it is an answer of the iterator as well. -/
def deleteFound : List (Bytes × Bytes) → DbTxn Unit
  | [] => next ()
  | found :: rest => do
    delete (← next found).1
    deleteFound rest

def deleteAll (name : String) : List (List String) → DbTxn Unit
  | [] => return ()
  | key :: data => do
    let range ← .view (·.range (getPath name key))
    deleteFound range
    deleteAll name data

/-- What a handler does before it gives the change a version. -/
def change (name : String) : WriteMessage → DbTxn Unit
  | .set key value => put (getPath name key) (utf8 value)
  | .multiSet data => putAll name data
  | .delete key => delete (utf8 (getPath name key))
  | .multiDelete data => deleteAll name data

/-- `Handler::handle`, for each message: the answer and the database after it. -/
def handle (name : String) (versionPath : List String) (message : WriteMessage) (db : Db) (fails : List Bool) :
    Outcome StoreError UInt64 × Db :=
  Txn.transact .rocksError Db.apply (do change name message; bumpVersion name versionPath) db fails

end Rocks

/-- What happens to one message after the other, each with the operations that fail. -/
structure Handled where
  before : Db
  message : WriteMessage
  answer : Outcome StoreError UInt64
  after : Db

/-- Messages that are handled one after the other. -/
def Rocks.handled (name : String) (versionPath : List String) : Db → List (WriteMessage × List Bool) → List Handled
  | _, [] => []
  | db, (message, fails) :: calls =>
    let x := handle name versionPath message db fails
    ⟨db, message, x.1, x.2⟩ :: handled name versionPath x.2 calls

/-- The database after all of them. -/
def Rocks.handledDb (name : String) (versionPath : List String) (db : Db)
    (calls : List (WriteMessage × List Bool)) : Db :=
  calls.foldl (fun db c => (handle name versionPath c.1 db c.2).2) db

end Dtn.Replistore
