import Mathlib.Data.List.Nodup
import Dtn.Proof.Replistore.Paths

/-!
# The database as a map from entries

A database that the backend has written holds values of entries only (`Db.Ok`),
so it is a map from entries to values (`Db.value`). Each operation of a key-value
store has an answer on such a database and is an operation on that map:
`get_text`, `bumpVersion_ok`, `Db.text_putAll`, `Db.get_deleteUnder_of_under`,
`list_ok`.
Numbers are read back from their digits (`parseI64_toString`).
-/

namespace Dtn.Replistore

open List Option S3 KeyValueStore Table Db

variable {e : Entry} {bs : Bytes} {name : String} {rs : List (Entry × String)} {data : List (List String)}

/-! ## Numbers -/

lemma parseI64_toString (h : -2 ^ 63 ≤ i ∧ i < 2 ^ 63) : parseI64 (toString i) = some i := by
  rw [parseI64, Int.toString_eq_repr, Int.repr_eq_if]
  by_cases hi : 0 ≤ i
  · obtain ⟨_, _, hd, hplus, hminus⟩ := toDigits_eq_cons i.toNat
    rw [if_pos hi, Nat.toList_repr, hd]
    split
    · rename_i hc
      exact absurd (List.cons.inj hc).1 hminus
    · rename_i hc
      exact absurd (List.cons.inj hc).1 hplus
    · grind [parseDigits_toDigits]
  · have hneg : (0 : Int) ≤ -i := by omega
    rw [if_neg hi, String.toList_append, Nat.toList_repr, show "-".toList = ['-'] from rfl, singleton_append]
    change (Option.map (fun n : Nat => -(n : Int)) (parseDigits _)).bind _ = _
    rw [parseDigits_toDigits, map_some, Int.toNat_of_nonneg hneg, Int.neg_neg]
    exact if_pos h

lemma fromUnixTimestamp_unixTimestamp (t : OffsetDateTime) :
    OffsetDateTime.fromUnixTimestamp t.unixTimestamp = some ⟨t.unixTimestamp, 0, t.inRange⟩ := dif_pos t.inRange

/-! ## Values -/

namespace Entry

/-- The values an entry can have. Only one store is no key-value store. -/
def Value : Entry → Bytes → Prop
  | type store, bs => store ≠ "s3data" → bs = utf8 StoreType.keyValue.name
  | version _ _, bs => bs.length = 8
  | bucket _, bs | object _ _, bs | objectmeta _ _ _, bs => ∃ s, bs = utf8 s

/-- The entries whose values are texts. -/
def isText : Entry → Bool
  | bucket _ | object _ _ | objectmeta _ _ _ => true
  | _ => false

lemma Value.text (h : e.Value bs) (he : e.isText = true) : ∃ s, bs = utf8 s := by
  cases e with
  | bucket | object | objectmeta => exact h
  | _ => cases he

lemma value_text (he : e.isText = true) (s : String) : e.Value (utf8 s) := by
  cases e with
  | bucket | object | objectmeta => exact ⟨s, rfl⟩
  | _ => cases he

end Entry

namespace Db

variable {db : Db}
variable {e' : Entry}

/-- The keys stand for entries, and the values are such as these can have. -/
def Ok (db : Db) : Prop := ∀ x ∈ db.table.entries, ∃ e : Entry, e.Ok ∧ x.1 = utf8 e.key ∧ e.Value x.2

def value (db : Db) (e : Entry) : Option Bytes := db.get e.key

/-- The value of an entry that is a text. -/
def text (db : Db) (e : Entry) : Option String := (db.value e).bind fromUtf8

lemma ok_empty : empty.Ok := forall_mem_nil _

lemma get_put (db : Db) (k k' : String) (bs : Bytes) :
    (db.put k bs).get k' = if k = k' then some bs else db.get k' := by
  grind [utf8_injective, get, put]

lemma value_put (he : e.Ok) (he' : e'.Ok) (bs : Bytes) :
    (db.put e.key bs).value e' = if e = e' then some bs else db.value e' := by
  grind [get_put, Entry.key_injective, value]

lemma text_put (he : e.Ok) (he' : e'.Ok) (s : String) :
    (db.put e.key (utf8 s)).text e' = if e = e' then some s else db.text e' := by
  rw [text, value_put he he']
  split
  · exact fromUtf8_utf8 s
  · rfl

lemma text_put_of_ne (he : e.Ok) (he' : e'.Ok) (hne : e ≠ e') (bs : Bytes) :
    (db.put e.key bs).text e' = db.text e' := by
  rw [text, value_put he he', if_neg hne, text]

lemma Ok.put (h : db.Ok) (he : e.Ok) (hv : e.Value bs) : (db.put e.key bs).Ok := by
  intro x hx
  obtain rfl | hx := mem_insert hx
  · exact ⟨e, he, rfl, hv⟩
  · exact h x hx

lemma Ok.delete (h : db.Ok) (key : Bytes) : (db.delete key).Ok :=
  fun x hx => h x (mem_remove.mp hx).1

lemma Ok.value (h : db.Ok) (he : e.Ok) (hv : db.value e = some bs) : e.Value bs := by
  obtain ⟨_, he', hkey, hval⟩ := h _ (mem_of_get hv)
  rw [Entry.key_injective he he' (utf8_injective hkey)]
  exact hval

lemma Ok.value_eq_text (h : db.Ok) (he : e.Ok) (ht : e.isText = true) : db.value e = (db.text e).map utf8 := by
  rw [text]
  cases hv : db.value e with
  | none => rfl
  | some =>
    obtain ⟨_, rfl⟩ := (h.value he hv).text ht
    rw [bind_some, fromUtf8_utf8, map_some]

lemma Ok.isSome_value (h : db.Ok) (he : e.Ok) (ht : e.isText = true) : (db.value e).isSome = (db.text e).isSome := by
  rw [h.value_eq_text he ht, isSome_map]

end Db

/-! ## Operations of the stores -/

variable {db : Db}

lemma get_text (h : db.Ok) (he : e.Ok) (ht : e.isText = true)
    (hkey : getPath name key = e.key) : KeyValueStore.get name key db = some (db.text e) := by
  have hv := h.value_eq_text he ht
  rw [value] at hv
  rw [KeyValueStore.get, hkey, hv]
  cases db.text e with
  | none => rfl
  | some => grind [fromUtf8_utf8]

@[simp] lemma length_toLeBytes (n : UInt64) : (toLeBytes n).length = 8 := by
  rw [toLeBytes, length_reverse, length_beBytes]

lemma fromLeBytes_toLeBytes (n : UInt64) : fromLeBytes (toLeBytes n) = some n := by
  rw [fromLeBytes, if_pos (length_toLeBytes n), toLeBytes, reverse_reverse,
    beNat_beBytes n.toNat_lt, UInt64.ofNat_toNat]

/-- The version after the next change, if this is what is stored. -/
def versionAfter (found : Option Bytes) : UInt64 := (found.bind fromLeBytes).elim 1 (· + 1)

/-- What is stored after so many changes. -/
def counter (n : Nat) : Option Bytes := if n = 0 then none else some (toLeBytes (.ofNat n))

lemma versionAfter_counter (n : Nat) : versionAfter (counter n) = .ofNat (n + 1) := by
  rw [versionAfter, counter]
  split
  · rename_i hn
    rw [hn]
    rfl
  · simp [fromLeBytes_toLeBytes]

/-- The counter can be read. -/
def Counts (name : String) (versionPath : List String) (db : Db) : Prop :=
  ∀ bs, db.get (getPath name versionPath) = some bs → bs.length = 8

lemma bumpVersion_eq (h : Counts name versionPath db) (new : Db) :
    bumpVersion name versionPath db new =
      some (versionAfter (db.get (getPath name versionPath)),
        new.put (getPath name versionPath) (toLeBytes (versionAfter (db.get (getPath name versionPath))))) := by
  rw [bumpVersion, versionAfter]
  cases hv : db.get (getPath name versionPath) with
  | none => rfl
  | some bs =>
    rw [bind_some]
    simp only [fromLeBytes, if_pos (h bs hv)]
    rfl

/-- The version after the next change. -/
def Db.nextVersion (db : Db) (store name : String) : UInt64 := versionAfter (db.value (.version store name))

lemma bumpVersion_ok (h : db.Ok) (hs : NulFree store) (name : String) (new : Db) :
    bumpVersion (bucketStore store) (bucketVersionPath name) db new =
      some (db.nextVersion store name,
        new.put (Entry.version store name).key (toLeBytes (db.nextVersion store name))) :=
  bumpVersion_eq (fun _ hv => h.value (e := .version store name) hs hv) new

/-! ### Several entries at once -/

/-- The database with the texts of some entries. -/
def Db.putAll (db : Db) (rs : List (Entry × String)) : Db := rs.foldl (fun new r => new.put r.1.key (utf8 r.2)) db

lemma Db.Ok.putAll (h : db.Ok) (hrs : ∀ r ∈ rs, r.1.Ok ∧ r.1.isText = true) : (db.putAll rs).Ok := by
  induction rs generalizing db with
  | nil => exact h
  | cons r _ ih =>
    obtain ⟨hr, hrs⟩ := forall_mem_cons.mp hrs
    exact ih (h.put hr.1 (Entry.value_text hr.2 r.2)) hrs

lemma Db.value_putAll_of_not_mem (hrs : ∀ r ∈ rs, r.1.Ok) (he : e.Ok)
    (hmem : e ∉ rs.map Prod.fst) : (db.putAll rs).value e = db.value e := by
  induction rs generalizing db with
  | nil => rfl
  | cons _ _ ih =>
    obtain ⟨hr, hrs⟩ := forall_mem_cons.mp hrs
    obtain ⟨hne, hmem⟩ := not_or.mp (mt mem_cons.mpr hmem)
    refine (ih hrs hmem).trans ?_
    rw [value_put hr he, if_neg (Ne.symm hne)]

lemma Db.text_putAll (hrs : ∀ r ∈ rs, r.1.Ok) (hnodup : (rs.map Prod.fst).Nodup)
    (hr : r ∈ rs) : (db.putAll rs).text r.1 = some r.2 := by
  induction rs generalizing db with
  | nil => cases hr
  | cons _ rs ih =>
    obtain ⟨hr', hrs'⟩ := forall_mem_cons.mp hrs
    obtain ⟨hnew, hnodup⟩ := nodup_cons.mp hnodup
    obtain rfl | hr := mem_cons.mp hr
    · change (putAll _ rs).text r.1 = _
      rw [text, value_putAll_of_not_mem hrs' hr' hnew, value_put hr' hr', if_pos rfl]
      exact fromUtf8_utf8 r.2
    · exact ih hrs' hnodup hr

/-- The entries that are deleted are those that were there under one of the keys. -/
lemma Db.get_foldl_delete (xs : List (Bytes × Bytes)) (k : String) :
    (xs.foldl (fun new e => new.delete e.1) db).get k = if utf8 k ∈ xs.map Prod.fst then none else db.get k := by
  induction xs generalizing db with
  | nil => rfl
  | cons x _ ih =>
    rw [foldl_cons, ih, map_cons, get, delete, get_remove, get]
    by_cases hx : x.1 = utf8 k
    · simp only [hx, mem_cons_self, ite_true, ite_self]
    · simp only [hx, mem_cons, Ne.symm hx, false_or, ite_false]

lemma Db.Ok.foldl_delete (h : db.Ok)
    (xs : List (Bytes × Bytes)) : (xs.foldl (fun new e => new.delete e.1) db).Ok := by
  induction xs generalizing db with
  | nil => exact h
  | cons x _ ih => exact ih (h.delete x.1)

/-- The text begins with one of the paths of these keys. -/
def Under (name : String) (data : List (List String)) (k : String) : Prop :=
  ∃ key ∈ data, ∃ r, k = getPath name key ++ r

/-- What `multiDelete` deletes. -/
def Db.deleteUnder (db : Db) (name : String) (data : List (List String)) : Db :=
  (data.flatMap fun key => db.range (getPath name key)).foldl (fun new e => new.delete e.1) db

lemma Db.get_deleteUnder_of_under (h : Under name data k) : (db.deleteUnder name data).get k = none := by
  rw [deleteUnder, get_foldl_delete]
  split
  · rfl
  · rename_i hmem
    obtain ⟨key, hkey, hr⟩ := h
    cases hk : db.get k with
    | none => rfl
    | some bs =>
      have hrange : (utf8 k, bs) ∈ db.range (getPath name key) :=
        mem_filter.mpr ⟨mem_of_get hk, utf8_start_iff.mpr hr⟩
      exact (hmem (List.mem_map.mpr ⟨_, mem_flatMap.mpr ⟨key, hkey, hrange⟩, rfl⟩)).elim

lemma Db.get_deleteUnder_of_not_under (h : ¬ Under name data k) : (db.deleteUnder name data).get k = db.get k := by
  rw [deleteUnder, get_foldl_delete, if_neg]
  intro hmem
  obtain ⟨_, hx, hxk⟩ := List.mem_map.mp hmem
  obtain ⟨key, hkey, hx⟩ := mem_flatMap.mp hx
  have hstart := (mem_filter.mp hx).2
  rw [hxk] at hstart
  exact h ⟨key, hkey, utf8_start_iff.mp hstart⟩

/-! ### Lists -/

lemma mapM_eq_some {α β : Type} {f : α → Option β} {g : α → β} {as : List α} (h : ∀ a ∈ as, f a = some (g a)) :
    as.mapM f = some (as.map g) := by
  induction as with
  | nil => rfl
  | cons => grind

/-- Where all entries under a path are texts, `List` gives what is behind the path, with the texts. -/
lemma list_ok {start : List String}
    (h : ∀ x ∈ db.range (getPath name start), ∃ r v, x = (utf8 (getPath name start ++ r), utf8 v)) :
    ∃ t, KeyValueStore.list name start db = some t ∧ t.keys.Nodup ∧
      ∀ r v, t.get r = some v ↔ db.get (getPath name start ++ r) = some (utf8 v) := by
  generalize hpath : getPath name start = path at h
  let entry (x : Bytes × Bytes) : String × String :=
    ((fromUtf8 (x.1.drop (utf8 path).length)).getD "", (fromUtf8 x.2).getD "")
  have hdrop (r : String) : fromUtf8 ((utf8 (path ++ r)).drop (utf8 path).length) = some r := by
    rw [utf8_append, drop_left, fromUtf8_utf8]
  have hentry (r v : String) : entry (utf8 (path ++ r), utf8 v) = (r, v) := by
    simp only [entry, hdrop, fromUtf8_utf8, getD_some]
  have hmap : (db.range path).mapM (KeyValueStore.listed path) = some ((db.range path).map entry) := by
    grind [mapM_eq_some, fromUtf8_utf8, KeyValueStore.listed]
  have hnodup : (((db.range path).map entry).map Prod.fst).Nodup := by
    have hkeys : (db.range path).map Prod.fst = (((db.range path).map entry).map Prod.fst).map fun r =>
      utf8 (path ++ r) := by grind [map_congr_left]
    have hrange : ((db.range path).map Prod.fst).Nodup := List.Nodup.sublist (filter_sublist.map Prod.fst)
      db.distinct
    exact List.Nodup.of_map _ (hkeys ▸ hrange)
  refine ⟨.collect ((db.range path).map entry), ?_, ?_, ?_⟩
  · rw [KeyValueStore.list, hpath, hmap]
    rfl
  · rw [Table.keys, collect_entries hnodup]
    exact hnodup
  · intro r v
    constructor
    · intro hget
      have hmem := mem_of_get hget
      rw [collect_entries hnodup] at hmem
      obtain ⟨x, hx, hxe⟩ := List.mem_map.mp hmem
      obtain ⟨_, _, rfl⟩ := h x hx
      rw [hentry] at hxe
      cases hxe
      exact get_of_mem (mem_filter.mp hx).1 db.distinct
    · intro hget
      refine get_of_mem ?_ (by rw [Table.keys, collect_entries hnodup]; exact hnodup)
      rw [collect_entries hnodup]
      refine List.mem_map.mpr ⟨_, mem_filter.mpr ⟨mem_of_get hget, utf8_start_iff.mpr ⟨r, rfl⟩⟩, hentry r v⟩

/-- What is left of the keys of the objects that begin with a text. -/
lemma list_objects (h : db.Ok) (hb : NulFree bucket) (start : String) :
    ∃ t, KeyValueStore.list (bucketStore bucket) (objectPath bucket start) db = some t ∧ t.keys.Nodup ∧
      ∀ r, r ∈ t.keys ↔ (db.text (.object bucket (start ++ r))).isSome = true := by
  have hpath : getPath (bucketStore bucket) (objectPath bucket start) = (Entry.object bucket start).key := rfl
  have hstart (x : Bytes × Bytes) (hx : x ∈ db.range (Entry.object bucket start).key) :
      ∃ r v, x = (utf8 ((Entry.object bucket start).key ++ r), utf8 v) := by
    obtain ⟨hx, hpre⟩ := mem_filter.mp hx
    obtain ⟨e, he, hkey, hv⟩ := h x hx
    rw [hkey] at hpre
    obtain ⟨r, hr⟩ := utf8_start_iff.mp hpre
    obtain rfl := Entry.object_of_start he hb hr
    obtain ⟨v, hv⟩ := hv
    exact ⟨r, v, Prod.ext (hkey.trans (congrArg utf8 hr)) hv⟩
  obtain ⟨t, ht, hnodup, hget⟩ := list_ok (hpath ▸ hstart)
  refine ⟨t, ht, hnodup, fun r => ?_⟩
  have hvalue := h.value_eq_text (e := .object bucket (start ++ r)) hb rfl
  rw [value, Entry.key_object_append, ← hpath] at hvalue
  rw [isSome_iff_exists]
  constructor
  · intro hr
    obtain ⟨⟨r', v⟩, hmem, rfl⟩ := List.mem_map.mp hr
    have hv := (hget r' v).mp (get_of_mem hmem hnodup)
    rw [hvalue] at hv
    obtain ⟨v', hv', -⟩ := map_eq_some_iff.mp hv
    exact ⟨v', hv'⟩
  · rintro ⟨v, hv⟩
    rw [hv] at hvalue
    exact List.mem_map.mpr ⟨(r, v), mem_of_get ((hget r v).mpr hvalue), rfl⟩

/-- The metadata of an object, and texts whose names have a NUL. -/
lemma list_objectmeta (h : db.Ok) (hb : NulFree bucket) (key : String) :
    ∃ t, KeyValueStore.list (bucketStore bucket) (objectmetaPath bucket key "") db = some t ∧
      ∀ suffix, NulFree suffix → t.get suffix = db.text (.objectmeta bucket key suffix) := by
  have hpath : getPath (bucketStore bucket) (objectmetaPath bucket key "") = (Entry.objectmeta bucket key "").key := rfl
  have hstart (x : Bytes × Bytes) (hx : x ∈ db.range (Entry.objectmeta bucket key "").key) :
      ∃ r v, x = (utf8 ((Entry.objectmeta bucket key "").key ++ r), utf8 v) := by
    obtain ⟨hx, hpre⟩ := mem_filter.mp hx
    obtain ⟨_, he, hkey, hv⟩ := h x hx
    rw [hkey] at hpre
    obtain ⟨r, hr⟩ := utf8_start_iff.mp hpre
    obtain ⟨_, suffix, rfl, -⟩ := Entry.objectmeta_of_start he hb hr
    obtain ⟨v, hv⟩ := hv
    exact ⟨r, v, Prod.ext (hkey.trans (congrArg utf8 hr)) hv⟩
  obtain ⟨t, ht, -, hget⟩ := list_ok (hpath ▸ hstart)
  refine ⟨t, ht, fun suffix hs => Option.ext fun v => ?_⟩
  rw [hget, hpath, Entry.key_objectmeta_append, text, bind_eq_some_iff]
  constructor
  · intro hv
    exact ⟨utf8 v, hv, fromUtf8_utf8 v⟩
  · rintro ⟨_, hv, hbs⟩
    rw [← fromUtf8_eq_some.mp hbs]
    exact hv

end Dtn.Replistore
