import Dtn.Impl.Replistore.S3

/-!
# What the keys of the database stand for

All stores are in one database, and the parts of a key are joined with NUL
characters. An `Entry` is what a key stands for. If the names of buckets have no
NUL, a key stands for one entry only (`Entry.key_injective`), whatever the keys of
objects are, and the keys that begin with the path of an object or of its metadata
are known (`object_of_start`, `objectmeta_of_start`).
-/

namespace Dtn.Replistore

open List S3 KeyValueStore

variable {a r k store part rest : String} {keys : List String}

/-- The text has no NUL character. -/
def NulFree (s : String) : Prop := '\x00' ∉ s.toList

instance (s : String) : Decidable (NulFree s) := inferInstanceAs (Decidable (¬ _))

/-- What a key stands for. -/
inductive Entry where
  | type (store : String)
  | bucket (name : String)
  | version (store bucket : String)
  | object (bucket key : String)
  | objectmeta (bucket key suffix : String)
  deriving DecidableEq

namespace Entry

def key : Entry → String
  | type store => typeKey store
  | bucket name => getPath rootStore (bucketPath name)
  | version store name => getPath (bucketStore store) (bucketVersionPath name)
  | object name key => getPath (bucketStore name) (objectPath name key)
  | objectmeta name key suffix => getPath (bucketStore name) (objectmetaPath name key suffix)

/-- What has to be told apart from what follows has no NUL. -/
def Ok : Entry → Prop
  | type _ | bucket _ => True
  | version store _ => NulFree store
  | object name _ => NulFree name
  | objectmeta name _ suffix => NulFree name ∧ NulFree suffix

end Entry

/-! ## Keys -/

/-- A key in the store of a bucket: the part of the store that it is in, and the rest. -/
def storeKey (store part rest : String) : String :=
  "\x00store\x00s3metadata\x00" ++ (store ++ ("\x00" ++ (part ++ ("\x00" ++ rest))))

lemma storeKey_append (store part rest r : String) :
    storeKey store part rest ++ r = storeKey store part (rest ++ r) := by
  unfold storeKey
  rw [String.append_assoc, String.append_assoc, String.append_assoc, String.append_assoc, String.append_assoc]

/-- Lists are divided by the first separator in one way. -/
lemma append_cons_inj {α : Type} {a : α} {xs xs' ys ys' : List α} (hx : a ∉ xs) (hx' : a ∉ xs')
    (h : xs ++ a :: ys = xs' ++ a :: ys') : xs = xs' ∧ ys = ys' := by
  induction xs generalizing xs' with
  | nil =>
    cases xs' with
    | nil => exact ⟨rfl, (List.cons.inj h).2⟩
    | cons => exact absurd (List.cons.inj h).1 (ne_of_not_mem_cons hx')
  | cons =>
    cases xs' with
    | nil => exact absurd (List.cons.inj h).1.symm (ne_of_not_mem_cons hx)
    | cons => grind

lemma append_nul_inj {a' r' : String} (ha : NulFree a) (ha' : NulFree a')
    (h : a ++ ("\x00" ++ r) = a' ++ ("\x00" ++ r')) : a = a' ∧ r = r' := by
  have hlist := congrArg String.toList h
  simp only [String.toList_append, show "\x00".toList = ['\x00'] from rfl, singleton_append] at hlist
  obtain ⟨h1, h2⟩ := append_cons_inj ha ha' hlist
  exact ⟨String.toList_inj.mp h1, String.toList_inj.mp h2⟩

/-- The last part of a text after its last NUL is determined as well. -/
lemma nul_append_inj {a' r' : String} (ha : NulFree a) (ha' : NulFree a')
    (h : r ++ ("\x00" ++ a) = r' ++ ("\x00" ++ a')) : r = r' ∧ a = a' := by
  have hlist := congrArg (List.reverse ∘ String.toList) h
  simp only [Function.comp, String.toList_append, show "\x00".toList = ['\x00'] from rfl, singleton_append,
    reverse_append, reverse_cons, append_assoc, singleton_append] at hlist
  obtain ⟨h1, h2⟩ := append_cons_inj (mt mem_reverse.mp ha) (mt mem_reverse.mp ha') hlist
  exact ⟨String.toList_inj.mp (reverse_inj.mp h2), String.toList_inj.mp (reverse_inj.mp h1)⟩

/-- Where the text behind a NUL has none, the text before it is as long as it can be. -/
lemma start_of_nul_append (ha : NulFree a) (h : k' ++ ("\x00" ++ a) = k ++ ("\x00" ++ r)) : ∃ r', k' = k ++ r' := by
  have hlist := congrArg String.toList h
  simp only [String.toList_append, show "\x00".toList = ['\x00'] from rfl, singleton_append] at hlist
  obtain ⟨as, hk, _⟩ | ⟨cs, hk, -⟩ := append_eq_append_iff.mp hlist
  · cases as with
    | nil => exact ⟨"", by rw [String.append_empty]; exact String.toList_inj.mp (by rw [hk, append_nil])⟩
    | cons =>
      have hmem : '\x00' ∈ a.toList := by grind
      exact absurd hmem ha
  · exact ⟨String.ofList cs, String.toList_inj.mp (by rw [hk, String.toList_append, String.toList_ofList])⟩

lemma storeKey_inj (hs : NulFree store) (hs' : NulFree store') (hp : NulFree part) (hp' : NulFree part')
    (h : storeKey store part rest = storeKey store' part' rest') : store = store' ∧ part = part' ∧ rest = rest' := by
  obtain ⟨rfl, hrest⟩ := append_nul_inj hs hs' ((String.append_right_inj _).mp h)
  obtain ⟨rfl, rfl⟩ := append_nul_inj hp hp' hrest
  exact ⟨rfl, rfl, rfl⟩

lemma join_cons (key : String) (h : keys ≠ []) : join (key :: keys) = key ++ "\x00" ++ join keys := by
  cases keys with
  | nil => exact absurd rfl h
  | cons => rfl

lemma getPath_bucketStore (store part : String) (h : keys ≠ []) :
    getPath (bucketStore store) (part :: keys) = storeKey store part (join keys) := by
  unfold getPath storeKey bucketStore
  rw [join_cons part h, show "\x00store\x00s3metadata\x00" = "\x00store\x00" ++ "s3metadata\x00" from rfl]
  repeat rw [String.append_assoc]

lemma rootStore_eq : rootStore = bucketStore "root" := by decide

namespace Entry

/-- The store, the part of it and the rest of a key that is in a store. -/
def parts : Entry → Option (String × String × String)
  | type _ => none
  | bucket name => some ("root", "buckets", name)
  | version store name => some (store, "bucketmeta", name ++ ("\x00" ++ "version"))
  | object name key => some (name, "objects", name ++ ("\x00" ++ key))
  | objectmeta name key suffix => some (name, "objectmeta", name ++ ("\x00" ++ (key ++ ("\x00" ++ suffix))))

variable {e : Entry}

lemma key_eq_storeKey (h : e.parts = some (store, part, rest)) : e.key = storeKey store part rest := by
  cases e with
  | type => cases h
  | bucket =>
    cases h
    rw [key, rootStore_eq, bucketPath, getPath_bucketStore "root" "buckets" (cons_ne_nil rest []), join]
  | version store name =>
    cases h
    rw [key, bucketVersionPath, getPath_bucketStore store "bucketmeta" (cons_ne_nil name ["version"]),
      join_cons name (cons_ne_nil "version" []), String.append_assoc, join]
  | object _ k =>
    cases h
    rw [key, objectPath, getPath_bucketStore store "objects" (cons_ne_nil store [k]),
      join_cons store (cons_ne_nil k []), String.append_assoc, join]
  | objectmeta _ k suffix =>
    cases h
    rw [key, objectmetaPath, getPath_bucketStore store "objectmeta" (cons_ne_nil store [k, suffix]),
      join_cons store (cons_ne_nil k [suffix]), join_cons k (cons_ne_nil suffix []),
      String.append_assoc, String.append_assoc, join]

lemma key_object_append (name k r : String) : (object name (k ++ r)).key = (object name k).key ++ r := by
  rw [key_eq_storeKey (e := object name k) rfl, key_eq_storeKey (e := object name (k ++ r)) rfl, storeKey_append,
    String.append_assoc, String.append_assoc]

/-- What `List` puts behind the path of the metadata. -/
lemma key_objectmeta_append (name k suffix : String) :
    (objectmeta name k "").key ++ suffix = (objectmeta name k suffix).key := by
  rw [key_eq_storeKey (e := objectmeta name k "") rfl, key_eq_storeKey (e := objectmeta name k suffix) rfl,
    storeKey_append, String.append_assoc, String.append_assoc, String.append_assoc,
    String.append_assoc, String.empty_append]

lemma nulFree_parts (he : e.Ok) (h : e.parts = some (store, part, rest)) : NulFree store ∧ NulFree part := by
  cases e with
  | type => cases h
  | bucket => cases h; decide
  | version | object => cases h; exact ⟨he, by decide⟩
  | objectmeta => cases h; exact ⟨he.1, by decide⟩

lemma typeKey_ne_storeKey (name store part rest : String) : typeKey name ≠ storeKey store part rest := by
  intro h
  have hstart {s t : String} {cs : List Char} (hs : s.toList = cs) : (s ++ t).toList = cs ++ t.toList := by
    rw [String.toList_append, hs]
  have htype : "\x00type\x00".toList = '\x00' :: 't' :: "ype\x00".toList := by decide
  have hstore : "\x00store\x00s3metadata\x00".toList = '\x00' :: 's' :: "tore\x00s3metadata\x00".toList := by decide
  have hlist := (hstart htype).symm.trans ((congrArg String.toList h).trans (hstart hstore))
  exact absurd (List.cons.inj (List.cons.inj hlist).2).1 (by decide)

/-- A key that begins with that of another entry in a store. -/
lemma parts_of_start (he : e.Ok) (hs : NulFree store) (hp : NulFree part)
    (h : e.key = storeKey store part rest ++ r) : e.parts = some (store, part, rest ++ r) := by
  rw [storeKey_append] at h
  cases hparts : e.parts with
  | none =>
    cases e with
    | type name => exact absurd h (typeKey_ne_storeKey name store part (rest ++ r))
    | bucket | version | object | objectmeta => cases hparts
  | some x =>
    obtain ⟨_, _, _⟩ := x
    rw [key_eq_storeKey hparts] at h
    obtain ⟨rfl, rfl, rfl⟩ := storeKey_inj (nulFree_parts he hparts).1 hs (nulFree_parts he hparts).2 hp h
    rfl

lemma object_of_start (he : e.Ok) (hn : NulFree name)
    (h : e.key = (object name k).key ++ r) : e = object name (k ++ r) := by
  rw [key_eq_storeKey (e := object name k) rfl] at h
  have hparts := parts_of_start he hn (by decide) h
  rw [String.append_assoc, String.append_assoc] at hparts
  cases e with
  | object => grind [append_nul_inj, parts]
  | type => cases hparts
  | _ => simp [parts] at hparts

lemma objectmeta_of_start (he : e.Ok) (hn : NulFree name) (h : e.key = (objectmeta name k "").key ++ r) :
    ∃ k' suffix, e = objectmeta name k' suffix ∧ k' ++ ("\x00" ++ suffix) = k ++ ("\x00" ++ r) := by
  rw [key_eq_storeKey (e := objectmeta name k "") rfl] at h
  have hparts := parts_of_start he hn (by decide) h
  rw [String.append_empty, String.append_assoc, String.append_assoc, String.append_assoc] at hparts
  cases e with
  | objectmeta => grind [append_nul_inj, parts]
  | type => cases hparts
  | _ => simp [parts] at hparts

lemma key_injective (he : e.Ok) (he' : e'.Ok) (h : e.key = e'.key) : e = e' := by
  -- What a key in a store says about its entry is said by its parts.
  have hparts {store part rest} (h' : e'.parts = some (store, part, rest)) :
      e.parts = some (store, part, rest) := by
    obtain ⟨hs, hp⟩ := nulFree_parts he' h'
    rw [key_eq_storeKey h', ← String.append_empty (s := storeKey store part rest)] at h
    rw [parts_of_start he hs hp h, String.append_empty]
  cases e' with
  | type name' =>
    cases hp : e.parts with
    | none =>
      cases e with
      | type => rw [(String.append_right_inj _).mp h]
      | _ => cases hp
    | some x =>
      obtain ⟨store, part, rest⟩ := x
      rw [key_eq_storeKey hp] at h
      exact absurd h.symm (typeKey_ne_storeKey name' store part rest)
  | bucket =>
    have hp := hparts rfl
    cases e with
    | bucket => cases hp; rfl
    | type => cases hp
    | _ => simp [parts] at hp
  | version =>
    have hp := hparts rfl
    cases e with
    | version => grind [String.append_left_inj, parts]
    | type => cases hp
    | _ => simp [parts] at hp
  | object name' k' =>
    rw [← String.append_empty (s := (object name' k').key)] at h
    rw [object_of_start he he' h, String.append_empty]
  | objectmeta =>
    have hp := hparts rfl
    cases e with
    | objectmeta =>
      simp only [parts, Option.some.injEq, Prod.mk.injEq, true_and] at hp
      obtain ⟨rfl, hrest⟩ := hp
      obtain ⟨rfl, rfl⟩ := nul_append_inj he.2 he'.2 (append_nul_inj he.1 he.1 hrest).2
      rfl
    | type => cases hp
    | _ => simp [parts] at hp

end Entry

end Dtn.Replistore
