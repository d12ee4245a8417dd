import Dtn.Impl.Replistore.Transactions
import Dtn.Proof.Replistore.Records

/-!
# Versions count the changes

A message that is handled has made its change and has got the next version, or has
changed nothing and reports an error (`handle_cases`). If no operation fails, it is
handled as by the store that knows no errors (`handle_nil`). So the versions of the
messages that were handled count them, as long as the counter does not overflow
(`versions_count`, `versions_miscount`).
-/

namespace Dtn.Replistore

open List KeyValueStore Rocks

variable {name : String} {versionPath : List String} {db : Db}

/-! ## What a message does -/

namespace WriteMessage

/-- The writes of a message. -/
def writes (name : String) (db : Db) : WriteMessage → List DbWrite
  | set key value => [.put (getPath name key) (utf8 value)]
  | multiSet data => data.map fun e => .put (getPath name e.1) (utf8 e.2)
  | delete key => [.delete (utf8 (getPath name key))]
  | multiDelete data => data.flatMap fun key => (db.range (getPath name key)).map fun e => .delete e.1

/-- The values after a message, by what the keys are joined to. -/
def effect (name : String) (value : String → Option Bytes) : WriteMessage → String → Option Bytes
  | set key v, k => if getPath name key = k then some (utf8 v) else value k
  | multiSet data, k =>
    data.foldl (fun value e k => if getPath name e.1 = k then some (utf8 e.2) else value k) value k
  | delete key, k => if getPath name key = k then none else value k
  | multiDelete data, k => if data.any fun key => (utf8 (getPath name key)).isPrefixOf (utf8 k) then none else value k

/-- The keys that are written, and the beginnings of those that are deleted. -/
def keys : WriteMessage → List (List String)
  | set key _ | delete key => [key]
  | multiSet data => data.map Prod.fst
  | multiDelete data => data

/-- The handler for a database that reports no errors. -/
def perform (name : String) (versionPath : List String) (db : Db) : WriteMessage → Option (UInt64 × Db)
  | set key value => KeyValueStore.set name key value versionPath db
  | multiSet data => KeyValueStore.multiSet name data versionPath db
  | delete key => KeyValueStore.delete name key versionPath db
  | multiDelete data => KeyValueStore.multiDelete name data versionPath db

end WriteMessage

lemma foldl_apply_put (data : List (List String × String)) (db : Db) :
    (data.map fun e => DbWrite.put (getPath name e.1) (utf8 e.2)).foldl Db.apply db =
      data.foldl (fun new e => new.put (getPath name e.1) (utf8 e.2)) db := by
  rw [foldl_map]
  rfl

lemma foldl_apply_delete (db : Db) (data : List (List String)) :
    ((data.flatMap fun key => (db.range (getPath name key)).map fun e => DbWrite.delete e.1).foldl Db.apply db) =
      db.deleteUnder name data := by
  rw [Db.deleteUnder, ← map_flatMap, foldl_map]
  rfl

lemma get_foldl_put (data : List (List String × String)) (db : Db) (k : String) :
    (data.foldl (fun new e => new.put (getPath name e.1) (utf8 e.2)) db).get k =
      data.foldl (fun value e k => if getPath name e.1 = k then some (utf8 e.2) else value k) db.get k := by
  induction data generalizing db with
  | nil => rfl
  | cons e _ ih =>
    have hput : (db.put (getPath name e.1) (utf8 e.2)).get =
        fun k => if getPath name e.1 = k then some (utf8 e.2) else db.get k := funext fun k => Db.get_put db _ k _
    rw [foldl_cons, foldl_cons, ih, hput]

lemma under_iff_any :
    Under name data k ↔ data.any (fun key => (utf8 (getPath name key)).isPrefixOf (utf8 k)) = true := by
  rw [any_eq_true]
  exact exists_congr fun key => and_congr_right fun _ => utf8_start_iff.symm

lemma get_foldl_writes (m : WriteMessage) (db : Db) (k : String) :
    ((m.writes name db).foldl Db.apply db).get k = m.effect name db.get k := by
  cases m with
  | set => exact Db.get_put db _ k _
  | multiSet => rw [WriteMessage.writes, foldl_apply_put, get_foldl_put]; rfl
  | delete key =>
    show (db.delete (utf8 (getPath name key))).get k = _
    rw [Db.get, Db.delete, Table.get_remove, WriteMessage.effect, Db.get]
    by_cases h : getPath name key = k
    · rw [if_pos h, if_pos (congrArg utf8 h)]
    · rw [if_neg h, if_neg (mt utf8_injective h)]
  | multiDelete data =>
    rw [WriteMessage.writes, foldl_apply_delete, WriteMessage.effect]
    by_cases h : Under name data k
    · rw [Db.get_deleteUnder_of_under h, if_pos (under_iff_any.mp h)]
    · rw [Db.get_deleteUnder_of_not_under h, if_neg (mt under_iff_any.mpr h)]

/-! ## How it is handled -/

namespace Rocks

variable {Q : Db → Prop}

lemma effect_get (key : String) : Txn.Effect Q (get key) fun db found ws => found = db.get key ∧ ws = [] := .read _

lemma effect_put (key : String) (value : Bytes) : Txn.Effect Q (put key value) fun _ _ ws => ws = [.put key value] :=
  .write _

lemma effect_delete (key : Bytes) : Txn.Effect Q (delete key) fun _ _ ws => ws = [.delete key] := .write _

lemma effect_next {α : Type} (found : α) : Txn.Effect Q (next found) fun _ x ws => x = found ∧ ws = [] := .read _

lemma effect_putAll (data : List (List String × String)) :
    Txn.Effect Q (putAll name data) fun _ _ ws => ws = data.map fun e => .put (getPath name e.1) (utf8 e.2) := by
  induction data generalizing Q with
  | nil => exact (Txn.Effect.pure ()).mono fun _ _ _ h => h.2
  | cons _ _ ih =>
    refine ((effect_put _ _).bind fun _ => ih).mono fun _ _ _ h => ?_
    obtain ⟨_, _, _, rfl, rfl, rfl⟩ := h
    rfl

lemma effect_deleteFound (found : List (Bytes × Bytes)) :
    Txn.Effect Q (deleteFound found) fun _ _ ws => ws = found.map fun e => .delete e.1 := by
  induction found generalizing Q with
  | nil => exact (effect_next ()).mono fun _ _ _ h => h.2
  | cons e _ ih =>
    refine ((effect_next e).bind fun x => (effect_delete x.1).bind fun _ => ih).mono fun _ _ _ h => ?_
    obtain ⟨_, _, _, rfl, ⟨rfl, rfl⟩, _, _, _, rfl, rfl, rfl⟩ := h
    rfl

lemma effect_deleteAll (data : List (List String)) :
    Txn.Effect Q (deleteAll name data) fun db _ ws =>
      ws = data.flatMap fun key => (db.range (getPath name key)).map fun e => .delete e.1 := by
  induction data generalizing Q with
  | nil => exact (Txn.Effect.pure ()).mono fun _ _ _ h => h.2
  | cons key _ ih =>
    refine ((Txn.Effect.view (Db.range · (getPath name key))).bind fun range =>
      (effect_deleteFound range).bind fun _ => ih).mono fun _ _ _ h => ?_
    obtain ⟨_, _, _, rfl, ⟨rfl, rfl⟩, _, _, _, rfl, rfl, rfl⟩ := h
    rfl

lemma effect_change (name : String) (m : WriteMessage) :
    Txn.Effect Q (change name m) fun db _ ws => ws = m.writes name db := by
  cases m with
  | set => exact effect_put _ _
  | multiSet data => exact effect_putAll data
  | delete => exact effect_delete _
  | multiDelete data => exact effect_deleteAll data

lemma versionIn_eq (h : ∀ bs, found = some bs → bs.length = 8) : versionIn found = .ok (versionAfter found - 1) := by
  rw [versionAfter]
  cases found with
  | none => rfl
  | some => grind [fromLeBytes, versionIn]

lemma effect_bumpVersion (name : String) (versionPath : List String) :
    Txn.Effect (Counts name versionPath) (bumpVersion name versionPath) fun db ver ws =>
      ver = versionAfter (db.get (getPath name versionPath)) ∧
        ws = [.put (getPath name versionPath) (toLeBytes ver)] := by
  have hread (found : Option Bytes) (db : Db)
      (h : Counts name versionPath db ∧ ∃ ws : List DbWrite, found = db.get (getPath name versionPath) ∧ ws = []) :
      versionIn found = .ok (versionAfter found - 1) := by
    obtain ⟨hcounts, ws, rfl, -⟩ := h
    exact versionIn_eq hcounts
  have h := (effect_get (Q := Counts name versionPath) (getPath name versionPath)).bind fun found =>
    (Txn.Effect.lift (hread found)).bind fun ver =>
      (effect_put (getPath name versionPath) (toLeBytes (ver + 1))).bind fun _ => Txn.Effect.pure (ver + 1)
  refine h.mono fun db ver ws hP => ?_
  obtain ⟨_, _, _, rfl, ⟨rfl, rfl⟩, _, _, _, rfl, ⟨rfl, rfl⟩, _, _, _, rfl, rfl, rfl, rfl⟩ := hP
  exact ⟨UInt64.sub_add_cancel _ _, rfl⟩

/-- The database after a message that was handled. -/
def committed (name : String) (versionPath : List String) (m : WriteMessage) (db : Db) : Db :=
  ((m.writes name db).foldl Db.apply db).put (getPath name versionPath)
    (toLeBytes (versionAfter (db.get (getPath name versionPath))))

/-- A message is handled as a whole, or an operation fails, and nothing is changed. -/
lemma handle_cases (h : Counts name versionPath db) (m : WriteMessage) (fails : List Bool) :
    handle name versionPath m db fails =
        (.ok (versionAfter (db.get (getPath name versionPath))), committed name versionPath m db) ∨
      fails ≠ [] ∧ ∃ e, handle name versionPath m db fails = (.err e, db) := by
  have heffect := (effect_change (Q := Counts name versionPath) name m).bind fun _ =>
    (effect_bumpVersion name versionPath).weaken fun _ h => h.1
  rcases heffect.transact Db.apply h fails with ⟨_, _, hP, hrun⟩ | herr
  · obtain ⟨_, _, _, rfl, rfl, rfl, rfl⟩ := hP
    refine .inl (hrun.trans ?_)
    rw [foldl_append]
    rfl
  · exact .inr herr

lemma handle_nil_eq (h : Counts name versionPath db) (m : WriteMessage) :
    handle name versionPath m db [] =
      (.ok (versionAfter (db.get (getPath name versionPath))), committed name versionPath m db) :=
  (handle_cases h m []).resolve_right fun h => h.1 rfl

/-- If no operation fails, the message is handled as by the store that knows no errors. -/
theorem handle_nil (h : Counts name versionPath db) (m : WriteMessage) :
    ∃ v db', m.perform name versionPath db = some (v, db') ∧ handle name versionPath m db [] = (.ok v, db') := by
  refine ⟨_, _, ?_, handle_nil_eq h m⟩
  rw [committed]
  cases m with
  | set | delete => exact bumpVersion_eq h _
  | multiSet =>
    rw [WriteMessage.writes, foldl_apply_put]
    exact bumpVersion_eq h _
  | multiDelete =>
    rw [WriteMessage.writes, foldl_apply_delete]
    exact bumpVersion_eq h _

lemma get_committed (m : WriteMessage) (db : Db) (hk : k ≠ getPath name versionPath) :
    (committed name versionPath m db).get k = m.effect name db.get k := by
  rw [committed, Db.get_put, if_neg hk.symm, get_foldl_writes]

lemma get_committed_path (m : WriteMessage) (db : Db) :
    (committed name versionPath m db).get (getPath name versionPath) =
      some (toLeBytes (versionAfter (db.get (getPath name versionPath)))) := by
  rw [committed, Db.get_put, if_pos rfl]

end Rocks

/-! ## One message after the other -/

open Rocks (handled handledDb handle)

/-- The versions of those that were handled. -/
def versions (hs : List Handled) : List UInt64 := hs.filterMap (·.answer.toOption)

/-- All that the message asks for was done, or nothing was, and an error was reported. The path of the version is
left to the counter. -/
def Handled.Atomic (name : String) (versionPath : List String) (x : Handled) : Prop :=
  (∃ v, x.answer = .ok v ∧
      ∀ k, k ≠ getPath name versionPath → x.after.get k = x.message.effect name x.before.get k) ∨
    ∃ e, x.answer = .err e ∧ x.after = x.before

lemma counts_of_counter (h : db.get (getPath name versionPath) = counter n) : Counts name versionPath db := by
  intro bs hbs
  rw [h, counter] at hbs
  split at hbs
  · cases hbs
  · cases hbs
    exact length_toLeBytes _

lemma versions_cons (x : Handled) (hs : List Handled) :
    versions (x :: hs) = x.answer.toOption.toList ++ versions hs := by grind [versions]

/-- Each version is one more than the one before, and the counter is the last one. -/
lemma handled_counter (h : db.get (getPath name versionPath) = counter n) (calls : List (WriteMessage × List Bool))
    (hhs : handled name versionPath db calls = hs) :
    versions hs = (List.range' (n + 1) (versions hs).length).map .ofNat ∧
      (handledDb name versionPath db calls).get (getPath name versionPath) = counter (n + (versions hs).length) ∧
      ∀ x ∈ hs, x.Atomic name versionPath := by
  induction calls generalizing db n hs with
  | nil =>
    subst hhs
    exact ⟨rfl, h, forall_mem_nil _⟩
  | cons c calls ih =>
    subst hhs
    have hdb : handledDb name versionPath db (c :: calls) =
        handledDb name versionPath (handle name versionPath c.1 db c.2).2 calls := rfl
    rw [handled, versions_cons, hdb, forall_mem_cons]
    rcases handle_cases (counts_of_counter h) c.1 c.2 with hrun | ⟨-, e, hrun⟩
    · have hnext : (committed name versionPath c.1 db).get (getPath name versionPath) = counter (n + 1) := by
        rw [get_committed_path, h, versionAfter_counter, counter, if_neg n.succ_ne_zero]
      obtain ⟨hversions, hcounter, hatomic⟩ := ih hnext rfl
      rw [hrun, h, versionAfter_counter]
      refine ⟨?_, ?_, .inl ⟨_, rfl, fun k hk => get_committed c.1 db hk⟩, hatomic⟩
      · show UInt64.ofNat (n + 1) :: versions _ = (List.range' (n + 1) ((versions _).length + 1)).map UInt64.ofNat
        rw [range'_succ, map_cons, ← hversions]
      · rw [hcounter, Nat.add_right_comm]
        rfl
    · obtain ⟨hversions, hcounter, hatomic⟩ := ih h rfl
      rw [hrun]
      exact ⟨hversions, hcounter, .inr ⟨e, rfl, rfl⟩, hatomic⟩

/-- From the first change on, the versions are 1, 2, 3 and so on, as far as the counter reaches. -/
theorem versions_count (h : db.get (getPath name versionPath) = none) (calls : List (WriteMessage × List Bool))
    {hs : List Handled} (hhs : handled name versionPath db calls = hs) (hlt : (versions hs).length < 2 ^ 64) :
    (versions hs).map UInt64.toNat = List.range' 1 (versions hs).length ∧
      (handledDb name versionPath db calls).get (getPath name versionPath) = counter (versions hs).length ∧
      ∀ x ∈ hs, x.Atomic name versionPath := by
  obtain ⟨hversions, hcounter, hatomic⟩ := handled_counter (n := 0) h calls hhs
  rw [Nat.zero_add] at hversions hcounter
  refine ⟨?_, hcounter, hatomic⟩
  rw [hversions, map_map, length_map, length_range']
  conv_rhs => rw [← map_id (List.range' _ _)]
  refine map_congr_left fun i hi => UInt64.toNat_ofNat_of_lt ?_
  have := mem_range'_1.mp hi
  show i < 2 ^ 64
  omega

/-- A message that fails in between is not counted. -/
theorem versions_count_three :
    (versions (handled "s" ["v"] .empty
        [(.set ["k"] "x", []), (.delete ["k"], [false, true]), (.multiDelete [["k"]], [])])).map UInt64.toNat =
      [1, 2] := by
  have hlen : (versions (handled "s" ["v"] .empty
      [(.set ["k"] "x", []), (.delete ["k"], [false, true]), (.multiDelete [["k"]], [])])).length = 2 := by
    decide +kernel
  have hfresh : Db.empty.get (getPath "s" ["v"]) = none := rfl
  rw [(versions_count hfresh _ rfl (by rw [hlen]; decide)).1, hlen]
  rfl

/-! ## Where the counter ends -/

lemma length_versions (h : db.get (getPath name versionPath) = counter n) (hcalls : ∀ c ∈ calls, c.2 = []) :
    (versions (handled name versionPath db calls)).length = calls.length := by
  induction calls generalizing db n with
  | nil => rfl
  | cons c _ ih =>
    obtain ⟨hc, hcalls⟩ := forall_mem_cons.mp hcalls
    have hrun := handle_nil_eq (counts_of_counter h) c.1
    have hnext : (committed name versionPath c.1 db).get (getPath name versionPath) = counter (n + 1) := by
      rw [get_committed_path, h, versionAfter_counter, counter, if_neg n.succ_ne_zero]
    rw [handled, versions_cons, hc, hrun, length_append, ih hnext hcalls, length_cons, Nat.add_comm]
    rfl

lemma getLast?_versions (calls : List (WriteMessage × List Bool)) (hcalls : ∀ c ∈ calls, c.2 = [])
    (hne : calls.length ≠ 0) (h : db.get (getPath name versionPath) = none) :
    (versions (handled name versionPath db calls)).getLast? = some (.ofNat calls.length) := by
  obtain ⟨hversions, -⟩ := handled_counter (n := 0) h calls rfl
  rw [hversions, length_versions (n := 0) h hcalls, List.getLast?_map, List.getLast?_range', if_neg hne,
    Option.map_some, Nat.zero_add, Nat.add_sub_cancel_left]

/-- The version after that of the last change that the counter can hold is 0. A key that is joined to the path of
the version holds the counter and not what was written. -/
theorem versions_miscount :
    (∃ calls : List (WriteMessage × List Bool), (∀ c ∈ calls, ["v"] ∉ c.1.keys) ∧
        (versions (handled "s" ["v"] .empty calls)).getLast? = some 0) ∧
      ["a", "b"] ∉ (WriteMessage.set ["a\x00b"] "x").keys ∧
        ∃ v after, handle "s" ["a", "b"] (.set ["a\x00b"] "x") .empty [] = (.ok v, after) ∧
          after.get (getPath "s" ["a\x00b"]) ≠ some (utf8 "x") := by
  refine ⟨⟨List.replicate (2 ^ 64) (.set ["k"] "x", []), fun c hc => ?_, ?_⟩, by decide, ?_⟩
  · rw [eq_of_mem_replicate hc]
    decide
  · rw [getLast?_versions _ (fun c hc => by rw [eq_of_mem_replicate hc]) _ rfl, length_replicate]
    · decide
    · rw [length_replicate]
      decide
  · have hcounts : Counts "s" ["a", "b"] .empty := counts_of_counter (n := 0) rfl
    refine ⟨_, _, handle_nil_eq hcounts _, ?_⟩
    rw [show getPath "s" ["a\x00b"] = getPath "s" ["a", "b"] by decide, get_committed_path]
    intro h
    have hlen := congrArg List.length (Option.some.inj h)
    rw [length_toLeBytes] at hlen
    revert hlen
    decide

end Dtn.Replistore
