import Mathlib.Tactic.Common

/-!
# Tables

A hash map as the list of its entries. A key is looked up in the first entry
that has it (`mem_of_get`); `mem_insert` and `mem_remove` say which entries a
table has after a change. In a table of lists a key without an entry has the
empty list.
-/

namespace Dtn

open List

structure Table (κ α : Type) where
  entries : List (κ × α)
  deriving DecidableEq

namespace Table

variable {κ α : Type} [DecidableEq κ]
variable {k : κ} {a : α} {es : List (κ × α)}

def empty : Table κ α := ⟨[]⟩

def find (k : κ) : List (κ × α) → Option α
  | [] => none
  | (k', a) :: es => if k' = k then some a else find k es

/-- `HashMap::get`. -/
def get (t : Table κ α) (k : κ) : Option α := find k t.entries

def put (k : κ) (a : α) : List (κ × α) → List (κ × α)
  | [] => [(k, a)]
  | (k', a') :: es => if k' = k then (k, a) :: es else (k', a') :: put k a es

/-- `HashMap::insert`. -/
def insert (t : Table κ α) (k : κ) (a : α) : Table κ α := ⟨put k a t.entries⟩

/-- `HashMap::remove`. -/
def remove (t : Table κ α) (k : κ) : Table κ α := ⟨t.entries.filter (·.1 ≠ k)⟩

def keys (t : Table κ α) : List κ := t.entries.map Prod.fst

/-- `Iterator::collect`. -/
def collect (es : List (κ × α)) : Table κ α := es.foldl (fun t e => t.insert e.1 e.2) empty

/-- `HashMap::eq`. -/
def same [DecidableEq α] (t other : Table κ α) : Bool :=
  t.entries.length = other.entries.length && t.entries.all fun e => other.get e.1 = some e.2

lemma find_put (k k' : κ) (a : α) (es : List (κ × α)) :
    find k' (put k a es) = if k = k' then some a else find k' es := by
  induction es with
  | nil => simp [put, find]
  | cons => grind [put, find]

@[grind =] lemma get_insert (t : Table κ α) (k k' : κ) (a : α) :
    (t.insert k a).get k' = if k = k' then some a else t.get k' :=
  find_put k k' a t.entries

lemma put_put (k : κ) (a a' : α) (es : List (κ × α)) : put k a' (put k a es) = put k a' es := by
  induction es with
  | nil => simp [put]
  | cons => grind [put]

lemma insert_insert (t : Table κ α) (k : κ) (a a' : α) : (t.insert k a).insert k a' = t.insert k a' :=
  congrArg mk (put_put k a a' t.entries)

lemma put_self (h : find k es = some a) : put k a es = es := by
  induction es with
  | nil => cases h
  | cons => grind [find, put]

lemma insert_self {t : Table κ α} (h : t.get k = some a) : t.insert k a = t :=
  congrArg mk (put_self h)

lemma find_filter_of_ne (h : k' ≠ k) (es : List (κ × α)) : find k' (es.filter (·.1 ≠ k)) = find k' es := by
  induction es with
  | nil => rfl
  | cons => grind [find]

lemma find_filter_self (k : κ) (es : List (κ × α)) : find k (es.filter (·.1 ≠ k)) = none := by
  induction es with
  | nil => rfl
  | cons => grind [find]

@[grind =] lemma get_remove (t : Table κ α) (k k' : κ) : (t.remove k).get k' = if k = k' then none else t.get k' := by
  split
  · rename_i h
    subst h
    exact find_filter_self k t.entries
  · exact find_filter_of_ne (Ne.symm ‹_›) t.entries

lemma get_of_get_remove {t : Table κ α} (h : (t.remove k).get k' = some a) : t.get k' = some a := by
  rw [get_remove] at h
  split at h <;> [cases h; exact h]

lemma get_insert_self (t : Table κ α) (k : κ) (a : α) : (t.insert k a).get k = some a := by
  rw [get_insert, if_pos rfl]

/-! ## Entries -/

section Entries

variable {t : Table κ α} {k : κ} {a : α} {e : κ × α}

lemma mem_put_self (k : κ) (a : α) (es : List (κ × α)) : (k, a) ∈ put k a es := by
  induction es with
  | nil => exact mem_cons_self
  | cons => grind [put]

lemma mem_put (h : e ∈ put k a es) : e = (k, a) ∨ e ∈ es := by
  induction es with
  | nil => exact .inl (mem_singleton.mp h)
  | cons => grind [put]

lemma mem_put_of_ne (h : e ∈ es) (hne : e.1 ≠ k) : e ∈ put k a es := by
  induction es with
  | nil => cases h
  | cons => grind [put]

lemma mem_of_find (h : find k es = some a) : (k, a) ∈ es := by
  induction es with
  | nil => cases h
  | cons => grind [find]

lemma mem_of_get (h : t.get k = some a) : (k, a) ∈ t.entries := mem_of_find h

lemma mem_insert_self (t : Table κ α) (k : κ) (a : α) : (k, a) ∈ (t.insert k a).entries := mem_put_self k a t.entries

lemma mem_insert (h : e ∈ (t.insert k a).entries) : e = (k, a) ∨ e ∈ t.entries := mem_put h

lemma mem_insert_of_ne (h : e ∈ t.entries) (hne : e.1 ≠ k) : e ∈ (t.insert k a).entries := mem_put_of_ne h hne

lemma mem_remove : e ∈ (t.remove k).entries ↔ e ∈ t.entries ∧ e.1 ≠ k := by
  rw [remove, mem_filter, decide_eq_true_eq]

end Entries

/-! ## Keys -/

section Keys

variable {t : Table κ α} {k : κ} {a : α} {e : κ × α} {es es' : List (κ × α)}

lemma map_fst_put (k : κ) (a : α) (es : List (κ × α)) :
    (put k a es).map Prod.fst = if k ∈ es.map Prod.fst then es.map Prod.fst else es.map Prod.fst ++ [k] := by
  induction es with
  | nil => rfl
  | cons => grind [put]

lemma nodup_insert (h : t.keys.Nodup) : (t.insert k a).keys.Nodup := by grind [map_fst_put, keys, insert]

lemma find_of_mem (h : (k, a) ∈ es) (hes : (es.map Prod.fst).Nodup) : find k es = some a := by
  induction es with
  | nil => cases h
  | cons => grind [find]

/-- With distinct keys an entry is what its key is looked up as. -/
lemma get_of_mem (h : (k, a) ∈ t.entries) (ht : t.keys.Nodup) : t.get k = some a := find_of_mem h ht

lemma get_of_perm {t' : Table κ α} (h : t'.entries.Perm t.entries) (ht : t.keys.Nodup) (k : κ) :
    t'.get k = t.get k := by
  have ht' : t'.keys.Nodup := (h.map Prod.fst).nodup_iff.mpr ht
  refine Option.ext fun a => ⟨fun ha => ?_, fun ha => ?_⟩
  · exact get_of_mem (h.mem_iff.mp (mem_of_get ha)) ht
  · exact get_of_mem (h.mem_iff.mpr (mem_of_get ha)) ht'

lemma put_of_not_mem (h : k ∉ es.map Prod.fst) : put k a es = es ++ [(k, a)] := by
  induction es with
  | nil => rfl
  | cons => grind [put]

lemma foldl_insert_entries (h : ((es' ++ es).map Prod.fst).Nodup) :
    (es.foldl (fun t e => t.insert e.1 e.2) (⟨es'⟩ : Table κ α)).entries = es' ++ es := by
  induction es generalizing es' with
  | nil => rw [append_nil]; rfl
  | cons e es ih =>
    have hnew : e.1 ∉ es'.map Prod.fst := fun hmem => by
      rw [map_append, map_cons] at h
      exact (nodup_append.mp h).2.2 _ hmem _ mem_cons_self rfl
    rw [append_cons] at h
    rw [foldl_cons, insert, put_of_not_mem hnew, append_cons es' e es]
    exact ih h

lemma collect_entries (h : (es.map Prod.fst).Nodup) : (collect es).entries = es := foldl_insert_entries h

end Keys

/-! ## Tables of lists -/

section Lists

/-- `HashMap::entry(k).or_default()`. -/
def list (t : Table κ (List α)) (k : κ) : List α := (t.get k).getD []

lemma exists_of_mem_list {t : Table κ (List α)} (h : a ∈ t.list k) : ∃ as, t.get k = some as ∧ a ∈ as := by
  unfold list at h
  cases hget : t.get k with
  | none => rw [hget] at h; cases h
  | some as => rw [hget] at h; exact ⟨as, rfl, h⟩

@[grind =] lemma list_insert (t : Table κ (List α)) (k k' : κ) (as : List α) :
    (t.insert k as).list k' = if k = k' then as else t.list k' := by
  rw [list, get_insert]
  split <;> rfl

/-- Of all entries only that of the key counts. -/
lemma flatMap_list {β : Type} {t : Table κ (List α)} (h : t.keys.Nodup) (k : κ)
    {f : List α → List β} (hf : f [] = []) :
    t.entries.flatMap (fun e => if e.1 = k then f e.2 else []) = f (t.list k) := by
  obtain ⟨es⟩ := t
  rw [list, get]
  rw [keys] at h
  induction es with
  | nil => exact hf.symm
  | cons e _ ih =>
    obtain ⟨k', _⟩ := e
    obtain ⟨_, hes⟩ := nodup_cons.mp h
    rw [flatMap_cons, find]
    by_cases hk : k' = k
    · grind [flatMap_eq_nil_iff]
    · simp [hk, ih hes]

end Lists

end Table

end Dtn
