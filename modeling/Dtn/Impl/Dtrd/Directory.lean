import Dtn.Framework.Run
import Dtn.Framework.Table
import Dtn.Impl.Dtrd.Storage

/-!
# The storage directory (`write_bundle_to_file`, `delete_bundle_file`)

Both functions only start something. A write is waited for, so the agent takes
its next message once all writes are done, and among themselves these end in
any order. A delete is spawned and happens at some later time, of which nothing
more is known. `directory` has the agent and its files with these steps.
-/

namespace Dtn.Dtrd.Storage

open Dtn.Bp7

/-- The agent, its files, and what is still to be done to them. `everValid` is
not in the source: it has the names of the stored bundles that have been in
state `Valid`. -/
structure Disk where
  daemon : Daemon
  files : Table String (List UInt8)
  writes : List (String × List UInt8)
  deletes : List String
  everValid : List String
  deriving DecidableEq

def Effect.write : Effect → Option (String × List UInt8)
  | .writeBundleToFile name data => some (name, data)
  | _ => none

def Effect.delete : Effect → Option String
  | .deleteBundleFile name => some name
  | _ => none

inductive DiskEvent where
  | message (message : Message)
  | write (name : String) (data : List UInt8)
  | delete (name : String)
  deriving DecidableEq

namespace Disk

variable (S : Serde)

/-- The names of the entries that are valid now, or have been. -/
def validNames (before : List String) (sbs : List StoredBundle) : List String :=
  (sbs.filter fun sb => sb.state = .valid ∨ sb.getFilename ∈ before).map (·.getFilename)

/-- A message is handled. -/
def message (s : Disk) (m : Message) : Outcome Empty Disk := do
  let (daemon, effects) ← s.daemon.handle S m
  return {
    daemon
    files := s.files
    writes := effects.filterMap Effect.write
    deletes := s.deletes ++ effects.filterMap Effect.delete
    everValid := validNames s.everValid daemon.bundles }

/-- A file is created, or truncated and written again. -/
def write (s : Disk) (name : String) (data : List UInt8) : Disk :=
  { s with files := s.files.insert name data, writes := s.writes.erase (name, data) }

/-- A file is removed, if it exists. -/
def delete (s : Disk) (name : String) : Disk :=
  { s with files := s.files.remove name, deletes := s.deletes.erase name }

/-- The state after an event, if it can happen. -/
def next (s : Disk) : DiskEvent → Option Disk
  | .message m =>
    match s.message S m with
    | .ok s' => if s.writes = [] then some s' else none
    | _ => none
  | .write name data => if (name, data) ∈ s.writes then some (s.write name data) else none
  | .delete name => if name ∈ s.deletes then some (s.delete name) else none

end Disk

/-- The agent and its directory, from the start on whatever files the directory has. -/
def directory (S : Serde) : System Disk DiskEvent where
  init s := s.files.keys.Nodup ∧ s.writes = [] ∧ s.deletes = [] ∧
    s.everValid = s.daemon.bundles.map (·.getFilename) ∧
    ∃ endpoint es, Daemon.started S endpoint s.files.entries = .ok (s.daemon, es)
  step s e s' := s.next S e = some s'

instance (S : Serde) (s s' : Disk) (e : DiskEvent) : Decidable ((directory S).step s e s') :=
  inferInstanceAs (Decidable (s.next S e = some s'))

end Dtn.Dtrd.Storage
