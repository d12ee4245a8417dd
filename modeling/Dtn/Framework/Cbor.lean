import Dtn.Framework.Bytes
import Dtn.Framework.Parser

/-!
# CBOR data items

The part of CBOR (RFC 8949) that a serde data format built on it exposes to
its users. A data item starts with a head: an initial byte that holds a major
type and either a small argument or the width of the argument that follows
(`head` writes the shortest one, `readHead` reads any). Tags in front of it are
skipped (`untag`). Numbers, byte and text strings, arrays and maps are read
through it.

Arrays, maps and tags are levels of nesting, of which a reader has a number
left. A `Decoder` is given this number, takes one for each level and errs if
there is none; behind the item all are there again.

Arrays and maps are read as serde reads them: the reader hands its user a
`Seq`, which is a count of the elements left or, for an indefinite length, a
promise to stop at the break, with the levels left inside; the user asks for one
element after the other (`Seq.next`), and what it did not ask for is trailing
data (`Seq.finish`).

`reads_u64`, `reads_bytes`, `reads_textOf` and `reads_seq` say that each
decoder undoes its encoder; `safe_u64` and the like that it never panics.
-/

namespace Dtn.Cbor

open List Outcome Dtn.Parser Nat

variable {major info n d : Nat} {bs r w : List UInt8} {α : Type}

/-- What decoding a value may report: an error of the reader itself (the end
of the input, a code that is not assigned, an item of another type, text that
is not UTF-8, trailing data, too many levels), or one a visitor raises. -/
inductive Error where
  | reader
  | custom (msg : String)
  | invalidLength (len : Nat) (expected : String)
  | invalidValue (got : Nat) (expected : String)
  | missingField (name : String)
  | duplicateField (name : String)
  deriving DecidableEq

/-! ## Heads -/

/-- The initial byte for a major type and its additional information. -/
def initial (major info : Nat) : UInt8 := UInt8.ofNat (32 * major + info)

/-- The shortest head with this argument. -/
def head (major n : Nat) : List UInt8 :=
  if n < 24 then [initial major n]
  else if n < 2 ^ 8 then initial major 24 :: beBytes 1 n
  else if n < 2 ^ 16 then initial major 25 :: beBytes 2 n
  else if n < 2 ^ 32 then initial major 26 :: beBytes 4 n
  else initial major 27 :: beBytes 8 n

/-- The heads a visitor can accept; a length is `none` if it is indefinite.
Negative numbers, chunked strings, simple values and floats are `other`. -/
inductive Head where
  | uint (n : Nat)
  | bytes (len : Nat)
  | text (len : Nat)
  | array (len : Option Nat)
  | map (len : Option Nat)
  | other
  deriving DecidableEq

/-- The head of a major type with an argument. -/
def Head.ofMajor (n : Nat) : Nat → Head
  | 0 => .uint n
  | 2 => .bytes n
  | 3 => .text n
  | 4 => .array (some n)
  | 5 => .map (some n)
  | _ => .other

/-- The argument that additional information stands for. -/
def readArgument (info : Nat) : Parser Error Nat :=
  if info < 24 then pure info
  else if info < 28 then do return beNat (← Parser.take .reader (2 ^ (info - 24)))
  else .fail .reader

/-- The head after its initial byte. -/
def readRest (major info : Nat) : Parser Error Head :=
  if info = 31 then
    match major with
    | 2 | 3 => pure .other
    | 4 => pure (.array none)
    | 5 => pure (.map none)
    | _ => .fail .reader
  else if major = 7 then pure .other
  else do return .ofMajor (← readArgument info) major

/-- The head of the next item, which has no tag. -/
def readHead : Parser Error Head
  | [] => .err .reader
  | b :: bs => readRest (b.toNat / 32) (b.toNat % 32) bs

/-- A decoder, given the levels of nesting that are left. -/
abbrev Decoder (α : Type) : Type := Nat → Parser Error α

/-- The tags in front of an item, each of which is a level. -/
def untag : Decoder Nat
  | d, [] => .ok (d, [])
  | d, b :: bs =>
    if b.toNat / 32 = 6 then
      (readArgument (b.toNat % 32) >>= fun _ => match d with
        | 0 => .fail .reader
        | d + 1 => untag d) bs
    else .ok (d, b :: bs)

/-- The head of the next item behind its tags, and the levels left there. -/
def item : Decoder (Head × Nat) := fun d => do
  let d ← untag d
  let h ← readHead
  return (h, d)

lemma initial_toNat (hm : major < 8) (hi : info < 32) : (initial major info).toNat = 32 * major + info := by
  rw [initial, UInt8.toNat_ofNat', mod_eq_of_lt (by omega)]

lemma readHead_initial (hm : major < 8) (hi : info < 32) (bs : List UInt8) :
    readHead (initial major info :: bs) = readRest major info bs := by grind [initial_toNat, readHead]

lemma untag_initial (hm : major < 8) (h6 : major ≠ 6) (hi : info < 32) (d : Nat) (bs : List UInt8) :
    untag d (initial major info :: bs) = .ok (d, initial major info :: bs) := by
  cases d <;> rw [untag, if_neg (by rw [initial_toNat hm hi]; omega)]

lemma readRest_argument (hm : major < 7) (hi : info < 28) :
    readRest major info = (do return .ofMajor (← readArgument info) major) := by
  unfold readRest
  rw [if_neg (by omega), if_neg (by omega)]

lemma readArgument_wide (hk : k < 4) (hn : n < 256 ^ 2 ^ k) (r : List UInt8) :
    readArgument (24 + k) (beBytes (2 ^ k) n ++ r) = .ok (n, r) := by
  have h1 : ¬ 24 + k < 24 := by omega
  have h2 : 24 + k < 28 := by omega
  have e : 2 ^ k = (beBytes (2 ^ k) n).length := (length_beBytes ..).symm
  simp only [readArgument, h1, h2, ↓reduceIte, Nat.add_sub_cancel_left, bind_apply]
  rw [show (Parser.take Error.reader (2 ^ k)) (beBytes (2 ^ k) n ++ r) = .ok (beBytes (2 ^ k) n, r) from by
    conv in (2 ^ k) => rw [e]
    exact reads_take _ _ r]
  simp only [ok_bind, pure_apply, beNat_beBytes hn]

/-- Reading a head undoes writing it. -/
lemma readHead_head (hm : major < 7) (hn : n < 2 ^ 64) (r : List UInt8) :
    readHead (head major n ++ r) = .ok (.ofMajor n major, r) := by
  have wide : ∀ k, k < 4 → n < 256 ^ 2 ^ k →
      readHead (initial major (24 + k) :: (beBytes (2 ^ k) n ++ r)) = .ok (.ofMajor n major, r) := by
    intro k hk hb
    rw [readHead_initial (by omega) (by omega), readRest_argument hm (by omega)]
    simp only [bind_apply, readArgument_wide hk hb, ok_bind, pure_apply]
  simp only [head]
  split
  · rename_i h
    rw [singleton_append, readHead_initial (by omega) (by omega), readRest_argument hm (by omega)]
    simp only [readArgument, h, ↓reduceIte, bind_apply, pure_apply, ok_bind]
  · grind

/-- A head that is written has no tag. -/
lemma untag_head (hm : major < 6) (d : Nat) (r : List UInt8) :
    untag d (head major n ++ r) = .ok (d, head major n ++ r) := by
  unfold head
  split <;> [skip; split <;> [skip; split <;> [skip; split]]]
  all_goals exact untag_initial (by omega) (by omega) (by omega) d _

lemma item_head (hm : major < 6) (hn : n < 2 ^ 64) (d : Nat) (r : List UInt8) :
    item d (head major n ++ r) = .ok ((.ofMajor n major, d), r) := by
  rw [item, bind_apply, untag_head hm, ok_bind, bind_apply, readHead_head (by omega) hn, ok_bind, pure_apply]

lemma shrinks_readArgument (info : Nat) : (readArgument info).Shrinks := by
  unfold readArgument
  split
  · exact .pure _
  · split
    · exact (shrinks_take _ _).bind fun _ => .pure _
    · exact .fail _

lemma safe_readArgument (info : Nat) : (readArgument info).Safe := by
  unfold readArgument
  split
  · exact .pure _
  · split
    · exact (safe_take _ _).bind fun _ => .pure _
    · exact .fail _

lemma shrinks_readRest (major info : Nat) : (readRest major info).Shrinks := by
  unfold readRest
  split
  · split <;> first | exact .pure _ | exact .fail _
  · split
    · exact .pure _
    · exact (shrinks_readArgument info).bind fun _ => .pure _

lemma safe_readRest (major info : Nat) : (readRest major info).Safe := by
  unfold readRest
  split
  · split <;> first | exact .pure _ | exact .fail _
  · split
    · exact .pure _
    · exact (safe_readArgument info).bind fun _ => .pure _

lemma safe_readHead : readHead.Safe := fun bs e => by
  cases bs with
  | nil => cases e
  | cons => exact safe_readRest _ _ _ e

lemma readHead_shorter (e : readHead bs = .ok (h, r)) : r.length < bs.length := by
  cases bs with
  | nil => cases e
  | cons => exact lt_succ_of_le (shrinks_readRest _ _ e)

lemma safe_untag (d : Nat) : (untag d).Safe := by
  induction d with
  | zero =>
    rintro (_ | ⟨b, bs⟩) <;> rw [untag]
    · rintro ⟨⟩
    · split <;> [exact (safe_readArgument _).bind (fun _ => .fail _) bs; rintro ⟨⟩]
  | succ d ih =>
    rintro (_ | ⟨b, bs⟩) <;> rw [untag]
    · rintro ⟨⟩
    · split <;> [exact (safe_readArgument _).bind (fun _ => ih) bs; rintro ⟨⟩]

lemma shrinks_untag (d : Nat) : (untag d).Shrinks := by
  induction d with
  | zero =>
    rintro (_ | ⟨b, bs⟩) d' r h <;> rw [untag] at h
    · cases h; exact le_refl _
    · split at h <;> [exact ((shrinks_readArgument _).bind (fun _ => .fail _) h).trans (le_succ _); skip]
      cases h; exact le_refl _
  | succ d ih =>
    rintro (_ | ⟨b, bs⟩) d' r h <;> rw [untag] at h
    · cases h; exact le_refl _
    · split at h <;> [exact ((shrinks_readArgument _).bind (fun _ => ih) h).trans (le_succ _); skip]
      cases h; exact le_refl _

lemma safe_item (d : Nat) : (item d).Safe := (safe_untag d).bind fun _ => safe_readHead.bind fun _ => .pure _

lemma item_shorter (e : item d bs = .ok (h, r)) : r.length < bs.length := by
  obtain ⟨_, _, h1, e⟩ := Parser.bind_eq_ok.mp e
  obtain ⟨_, _, h2, e⟩ := Parser.bind_eq_ok.mp e
  cases e
  exact lt_of_lt_of_le (readHead_shorter h2) (shrinks_untag d h1)

lemma shrinks_item (d : Nat) : (item d).Shrinks := fun _ _ _ e => (item_shorter e).le

/-! ## Numbers and strings -/

/-- An unsigned number. -/
def encU64 (x : UInt64) : List UInt8 := head 0 x.toNat

/-- A byte string. -/
def encBytes (bs : List UInt8) : List UInt8 := head 2 bs.length ++ bs

/-- A text string. -/
def encText (s : String) : List UInt8 := head 3 (utf8 s).length ++ utf8 s

/-- `u64::deserialize`. -/
def u64 : Decoder UInt64 := fun d => do
  match (← item d).1 with
  | .uint n => pure (UInt64.ofNat n)
  | _ => .fail .reader

/-- `u8::deserialize`: a number that does not fit is an error. -/
def u8 : Decoder UInt8 := fun d => do
  match (← item d).1 with
  | .uint n => if n < 2 ^ 8 then pure (UInt8.ofNat n) else .fail (.invalidValue n "u8")
  | _ => .fail .reader

/-- `true` and `false` are the simple values 21 and 20. -/
def simpleBool : Parser Error Bool
  | [] => .err .reader
  | b :: bs =>
    if b = initial 7 21 then .ok (true, bs)
    else if b = initial 7 20 then .ok (false, bs)
    else .err .reader

/-- `bool::deserialize`. -/
def bool : Decoder Bool := fun d => do
  let _ ← untag d
  simpleBool

/-- The text of this many bytes. -/
def textOf (len : Nat) : Parser Error String := do
  match fromUtf8 (← Parser.take .reader len) with
  | some s => pure s
  | none => .fail .reader

/-- `<&[u8]>::deserialize`: it borrows from a byte string or from a text string. -/
def bytes : Decoder (List UInt8) := fun d => do
  match (← item d).1 with
  | .bytes n => Parser.take .reader n
  | .text n => do return utf8 (← textOf n)
  | _ => .fail .reader

lemma reads_u64 (x : UInt64) : (u64 d).Reads (encU64 x) x := fun r => by
  simp only [u64, encU64, bind_apply, item_head (show 0 < 6 by decide) x.toNat_lt, ok_bind,
    Head.ofMajor, pure_apply, UInt64.ofNat_toNat]

lemma reads_u8 (x : UInt8) : (u8 d).Reads (encU64 x.toUInt64) x := fun r => by
  have h : x.toNat < 2 ^ 8 := x.toNat_lt
  have h64 : x.toNat < 2 ^ 64 := by omega
  simp only [u8, encU64, bind_apply, item_head (show 0 < 6 by decide) h64, ok_bind,
    Head.ofMajor, UInt8.toNat_toUInt64, h, ↓reduceIte, pure_apply, UInt8.ofNat_toNat]

lemma reads_bytes (h : bs.length < 2 ^ 64) : (bytes d).Reads (encBytes bs) bs := fun r => by
  simp only [bytes, encBytes, bind_apply, append_assoc, item_head (show 2 < 6 by decide) h,
    ok_bind, Head.ofMajor]
  exact reads_take _ _ r

lemma reads_textOf (s : String) : (textOf (utf8 s).length).Reads (utf8 s) s := fun r => by
  simp only [textOf, bind_apply, reads_take _ _ r, ok_bind, fromUtf8_utf8,
    pure_apply]

lemma shrinks_u64 : (u64 d).Shrinks :=
  (shrinks_item d).bind fun h => by cases h.1 <;> first | exact .pure _ | exact .fail _

lemma safe_u64 : (u64 d).Safe :=
  (safe_item d).bind fun h => by cases h.1 <;> first | exact .pure _ | exact .fail _

lemma safe_u8 : (u8 d).Safe :=
  (safe_item d).bind fun h => by
    cases h.1 <;> dsimp only
    · split
      · exact .pure _
      · exact .fail _
    all_goals exact .fail _

lemma shrinks_textOf (len : Nat) : (textOf len).Shrinks :=
  (shrinks_take _ _).bind fun bs => by
    cases fromUtf8 bs
    · exact .fail _
    · exact .pure _

lemma safe_textOf (len : Nat) : (textOf len).Safe :=
  (safe_take _ _).bind fun bs => by
    cases fromUtf8 bs
    · exact .fail _
    · exact .pure _

lemma shrinks_bytes : (bytes d).Shrinks :=
  (shrinks_item d).bind fun h => by
    cases h.1 with
    | bytes => exact shrinks_take _ _
    | text n => exact (shrinks_textOf n).bind fun _ => .pure _
    | _ => exact .fail _

lemma safe_bytes : (bytes d).Safe :=
  (safe_item d).bind fun h => by
    cases h.1 with
    | bytes => exact safe_take _ _
    | text n => exact (safe_textOf n).bind fun _ => .pure _
    | _ => exact .fail _

lemma rejects_bytes_array (hn : n < 2 ^ 64) (w : List UInt8) : (bytes d).Rejects (head 4 n ++ w) :=
  fun r x => by
  rw [bytes, bind_apply, append_assoc, item_head (show 4 < 6 by decide) hn]
  exact nofun

/-! ## Arrays -/

/-- What is left of the array being read: a count, or everything up to the break. Its elements have `levels` left. -/
inductive Seq where
  | definite (levels left : Nat)
  | indefinite (levels : Nat)
  deriving DecidableEq

/-- The break that ends an array or map of indefinite length. -/
def stop : UInt8 := 0xff

namespace Seq

variable {α β : Type}
variable {msg : String} {Q : Nat → List UInt8 → Prop}

/-- `SeqAccess::size_hint`. -/
def sizeHint : Seq → Option Nat
  | definite _ n => some n
  | indefinite _ => none

/-- An array or map whose head declared this length. -/
def ofLen (d : Nat) : Option Nat → Seq
  | some n => definite d n
  | none => indefinite d

/-- `SeqAccess::next_element`. -/
def next (p : Decoder α) : Seq → Parser Error (Option α × Seq)
  | definite d 0 => pure (none, definite d 0)
  | definite d (n + 1) => do return (some (← p d), definite d n)
  | indefinite d => fun bs =>
    match bs with
    | [] => .err .reader
    | b :: _ => if b = stop then .ok ((none, indefinite d), bs)
      else (do return (some (← p d), indefinite d) : Parser Error _) bs

/-- `seq.next_element()?.ok_or(Error::custom(msg))?`. -/
def field (p : Decoder α) (msg : String) (s : Seq) : Parser Error (α × Seq) := do
  match ← s.next p with
  | (some a, s) => pure (a, s)
  | (none, _) => .fail (.custom msg)

/-- After the visitor: what it did not read is trailing data. -/
def finish : Seq → Parser Error Unit
  | definite _ 0 => pure ()
  | definite _ (_ + 1) => .fail .reader
  | indefinite _ => fun bs =>
    match bs with
    | [] => .err .reader
    | b :: bs => if b = stop then .ok ((), bs) else .err .reader

/-- The elements left, as `while let Some(a) = seq.next_element()?` collects
them. Every element takes a byte, so `fuel` is the length of the input. -/
def collect (p : Decoder α) : Nat → Seq → Parser Error (List α × Seq)
  | 0, _ => .fail .reader
  | fuel + 1, s => do
    match ← s.next p with
    | (some a, s) => do
      let (as, s) ← collect p fuel s
      return (a :: as, s)
    | (none, s) => pure ([], s)

@[simp] lemma next_definite_succ (p : Decoder α) (d n : Nat) (bs : List UInt8) :
    next p (definite d (n + 1)) bs = (p d bs >>= fun ar => .ok ((some ar.1, definite d n), ar.2)) := rfl

lemma reads_field (h : (p d).Reads w a) (msg : String) (n : Nat) :
    (field p msg (definite d (n + 1))).Reads w (a, definite d n) := fun r => by
  simp only [field, bind_apply, next_definite_succ, h r, ok_bind, pure_apply]

lemma yields_next {p : Decoder α} (hp : ∀ d, (p d).Yields P) (s : Seq) :
    (s.next p).Yields fun x => ∀ a, x.1 = some a → P a := fun bs a r h => by
  match s, bs with
  | definite _ 0, bs => cases h; exact nofun
  | definite _ (n + 1), bs =>
    obtain ⟨b, hb, h⟩ := Outcome.bind_eq_ok.mp h
    cases h
    rintro _ ⟨⟩
    exact hp _ hb
  | indefinite _, [] => cases h
  | indefinite _, b :: bs =>
    simp only [next] at h
    split at h
    · cases h; exact nofun
    · obtain ⟨_, _, hb, h⟩ := Parser.bind_eq_ok.mp h
      cases h
      rintro _ ⟨⟩
      exact hp _ hb

lemma yields_field {p : Decoder α} (hp : ∀ d, (p d).Yields P) (msg : String) (s : Seq) :
    (s.field p msg).Yields fun x => P x.1 :=
  (yields_next hp s).bind fun
    | (some _, _), h => .pure (h _ rfl)
    | (none, _), _ => .fail _ _

lemma yields_collect {p : Decoder α} (hp : ∀ d, (p d).Yields P) (fuel : Nat) (s : Seq) :
    (s.collect p fuel).Yields fun x => ∀ a ∈ x.1, P a := by
  induction fuel generalizing s with
  | zero => exact .fail _ _
  | succ _ ih =>
    refine (yields_next hp s).bind fun
      | (some a, s), ha => ?_
      | (none, s), _ => .pure nofun
    refine (ih s).bind fun (as, s) has => .pure ?_
    exact forall_mem_cons.mpr ⟨ha a rfl, has⟩

@[simp] lemma next_indefinite_stop (p : Decoder α) (d : Nat) (bs : List UInt8) :
    next p (indefinite d) (stop :: bs) = .ok ((none, indefinite d), stop :: bs) := by
  simp only [next, ↓reduceIte]

/-- An element whose first byte is not the break is read off an array of indefinite length. -/
lemma next_indefinite (h : p d bs = .ok (a, r)) (hs : bs.head? ≠ some stop)
    (hb : bs ≠ []) : next p (indefinite d) bs = .ok ((some a, indefinite d), r) := by
  grind [bind_apply, pure_apply, next]

/-- The elements of an array of indefinite length, up to the break. -/
lemma collect_indefinite {γ : Type} {enc : γ → List UInt8} {val : γ → α} {cs : List γ}
    (hp : ∀ c ∈ cs, (p d).Reads (enc c) (val c)) (hs : ∀ c ∈ cs, ∃ b w, enc c = b :: w ∧ b ≠ stop)
    (hf : cs.length < fuel) (r : List UInt8) :
    collect p fuel (indefinite d) (cs.flatMap enc ++ stop :: r) = .ok ((cs.map val, indefinite d), stop :: r) := by
  induction cs generalizing fuel with
  | nil =>
    obtain ⟨fuel, rfl⟩ : ∃ k, fuel = k + 1 := ⟨fuel - 1, by simp at hf; omega⟩
    simp only [collect, flatMap_nil, nil_append, bind_apply, next_indefinite_stop,
      ok_bind, pure_apply, map_nil]
  | cons c cs ih =>
    obtain ⟨fuel, rfl⟩ : ∃ k, fuel = k + 1 := ⟨fuel - 1, by simp at hf; omega⟩
    obtain ⟨_, _, hw, hb⟩ := hs c (mem_cons_self ..)
    have hread := hp c (mem_cons_self ..) (cs.flatMap enc ++ stop :: r)
    have hnext := next_indefinite hread (by simp [hw, hb]) (by simp [hw])
    have hrest := ih (fun c hc => hp c (mem_cons_of_mem _ hc))
      (fun c hc => hs c (mem_cons_of_mem _ hc)) (by simp at hf; omega : cs.length < fuel)
    simp only [collect, flatMap_cons, append_assoc, bind_apply, hnext, hrest, ok_bind,
      pure_apply, map_cons]

/-- Behind elements that are read, one that is rejected ends the collection. -/
lemma rejects_collect {γ : Type} {enc : γ → List UInt8} {val : γ → α} {cs : List γ}
    (hp : ∀ c ∈ cs, (p d).Reads (enc c) (val c)) (hs : ∀ c ∈ cs, ∃ b w, enc c = b :: w ∧ b ≠ stop)
    (hw : (p d).Rejects w) (hb : ∃ b v, w = b :: v ∧ b ≠ stop) (fuel : Nat) :
    (collect p fuel (indefinite d)).Rejects (cs.flatMap enc ++ w) := fun r x => by
  induction cs generalizing fuel x with
  | nil =>
    obtain ⟨b, v, rfl, hb⟩ := hb
    cases fuel with
    | zero => exact nofun
    | succ =>
      have hnext : (next p (indefinite d)).Rejects (b :: v) := fun r x e => by
        simp only [next, cons_append, hb, ↓reduceIte] at e
        obtain ⟨a, r', h, -⟩ := Parser.bind_eq_ok.mp e
        exact hw r _ h
      exact Parser.Rejects.bind hnext _ r x
  | cons c cs ih =>
    cases fuel with
    | zero => exact nofun
    | succ fuel =>
      obtain ⟨_, _, hv, hb⟩ := hs c mem_cons_self
      have hread := hp c mem_cons_self (cs.flatMap enc ++ w ++ r)
      have hnext := next_indefinite hread (by simp [hv, hb]) (by simp [hv])
      rw [collect, bind_apply, flatMap_cons, append_assoc, append_assoc,
        ← append_assoc _ w, hnext, ok_bind]
      intro e
      obtain ⟨_, _, h, -⟩ := Parser.bind_eq_ok.mp e
      exact ih (fun c hc => hp c (mem_cons_of_mem _ hc)) (fun c hc => hs c (mem_cons_of_mem _ hc)) fuel _ h

lemma safe_next {p : Decoder α} (hp : ∀ {d}, (p d).Safe) (s : Seq) : (s.next p).Safe := fun bs h => by
  match s, bs with
  | definite _ 0, bs => cases h
  | definite _ (n + 1), bs => exact hp.bind (fun _ => .pure _) bs h
  | indefinite _, [] => cases h
  | indefinite _, b :: bs =>
    simp only [next] at h
    split at h <;> [cases h; exact hp.bind (fun _ => .pure _) _ h]

lemma shrinks_next {p : Decoder α} (hp : ∀ d, (p d).Shrinks) (s : Seq) : (s.next p).Shrinks := fun bs a r h => by
  match s, bs with
  | definite _ 0, bs => cases h; exact le_refl _
  | definite _ (n + 1), bs => exact (hp _).bind (fun _ => .pure _) h
  | indefinite _, [] => cases h
  | indefinite _, b :: bs =>
    simp only [next] at h
    split at h <;> [(cases h; exact le_refl _); exact (hp _).bind (fun _ => .pure _) h]

lemma safe_field {p : Decoder α} (hp : ∀ {d}, (p d).Safe) (msg : String) (s : Seq) : (s.field p msg).Safe :=
  (safe_next hp s).bind fun
    | (some _, _) => .pure _
    | (none, _) => .fail _

lemma shrinks_field {p : Decoder α} (hp : ∀ d, (p d).Shrinks) (msg : String) (s : Seq) : (s.field p msg).Shrinks :=
  (shrinks_next hp s).bind fun
    | (some _, _) => .pure _
    | (none, _) => .fail _

lemma safe_finish (s : Seq) : s.finish.Safe := fun bs h => by
  match s, bs with
  | definite _ 0, bs => cases h
  | definite _ (n + 1), bs => cases h
  | indefinite _, [] => cases h
  | indefinite _, b :: bs => simp only [finish] at h; split at h <;> cases h

lemma shrinks_finish (s : Seq) : s.finish.Shrinks := fun bs a r h => by
  match s, bs with
  | definite _ 0, bs => cases h; exact le_refl _
  | definite _ (n + 1), bs => cases h
  | indefinite _, [] => cases h
  | indefinite _, b :: bs => grind [finish]

/-! ### Where an element is next -/

/-- There is an element left: by the count, or because the break is not next. -/
def More : Seq → List UInt8 → Prop
  | definite _ n, _ => 0 < n
  | indefinite _, bs => ∃ b r, bs = b :: r ∧ b ≠ stop

/-- The levels left for an element. -/
def levels : Seq → Nat
  | definite d _ => d
  | indefinite d => d

/-- What is left after one element. -/
def rest : Seq → Seq
  | definite d n => definite d (n - 1)
  | indefinite d => indefinite d

lemma levels_ofLen (d : Nat) (len : Option Nat) : (ofLen d len).levels = d := by cases len <;> rfl

variable {s : Seq}

lemma next_of_more (h : s.More bs) : s.next p bs = (p s.levels bs >>= fun ar => .ok ((some ar.1, s.rest), ar.2)) := by
  match s with
  | definite _ (n + 1) => rfl
  | indefinite _ =>
    obtain ⟨_, _, rfl, hb⟩ := h
    simp only [next, hb, ↓reduceIte, bind_apply, pure_apply, rest, levels]

/-- Without an element left, `next` neither panics nor finds one. -/
lemma next_of_not_more (h : ¬ s.More bs) : s.next p bs = .err .reader ∨ s.next p bs = .ok ((none, s), bs) := by
  match s, bs with
  | definite _ 0, bs => exact .inr rfl
  | definite _ (n + 1), bs => exact absurd (succ_pos n) h
  | indefinite _, [] => exact .inl rfl
  | indefinite _, b :: bs =>
    have hb : b = stop := Decidable.byContradiction fun hb => h ⟨b, bs, rfl, hb⟩
    exact .inr (by rw [hb, next_indefinite_stop])

lemma field_eq_panic : s.field p msg bs = .panic ↔ s.More bs ∧ p s.levels bs = .panic := by
  by_cases h : s.More bs
  · simp only [field, bind_apply, next_of_more h, h, true_and]
    cases p s.levels bs <;> simp
  · simp only [field, bind_apply, h, false_and, iff_false]
    rcases next_of_not_more (p := p) h with e | e <;> simp [e]

lemma field_eq_ok : s.field p msg bs = .ok ((a, s'), r) ↔ s.More bs ∧ p s.levels bs = .ok (a, r) ∧ s' = s.rest := by
  by_cases h : s.More bs
  · simp only [field, bind_apply, next_of_more h, h, true_and]
    cases p s.levels bs with
    | ok ar =>
      obtain ⟨_, _⟩ := ar
      simp only [ok_bind, pure_apply, Outcome.ok.injEq, Prod.mk.injEq]
      tauto
    | _ => simp
  · simp only [field, bind_apply, h, false_and, iff_false]
    rcases next_of_not_more (p := p) h with e | e <;> simp [e]

lemma rejects_field (msg : String) (s : Seq) (h : (p s.levels).Rejects w) :
    (s.field p msg).Rejects w := fun r _ e => h r _ (field_eq_ok.mp e).2.1

/-- What follows a field whose decoder never panics is all that can. -/
lemma field_bind_eq_panic {p : Decoder α} (hp : ∀ {d}, (p d).Safe) :
    (s.field p msg >>= f) bs = .panic ↔
      s.More bs ∧ ∃ a r, p s.levels bs = .ok (a, r) ∧ f (a, s.rest) r = .panic := by
  rw [(safe_field hp msg s).bind_eq_panic]
  constructor
  · grind [field_eq_ok]
  · grind [field_eq_ok]

/-- After some elements that `p` reads, there is one more for which `Q` holds. -/
inductive Later (p : Decoder α) (Q : Nat → List UInt8 → Prop) : Seq → List UInt8 → Prop
  | here {s : Seq} {bs : List UInt8} : s.More bs → Q s.levels bs → Later p Q s bs
  | next {s : Seq} {bs r : List UInt8} {a : α} :
    s.More bs → p s.levels bs = .ok (a, r) → Later p Q s.rest r → Later p Q s bs

lemma Later.inv (h : Later p Q s bs) :
    s.More bs ∧ (Q s.levels bs ∨ ∃ a r, p s.levels bs = .ok (a, r) ∧ Later p Q s.rest r) := by
  cases h with
  | here hm hq => exact ⟨hm, .inl hq⟩
  | next hm hp hl => exact ⟨hm, .inr ⟨_, _, hp, hl⟩⟩

/-- Collecting elements panics at the first one whose decoder panics. Every
element takes a byte, so the fuel lasts. -/
lemma collect_eq_panic {p : Decoder α} (hQ : ∀ d bs, p d bs = .panic ↔ Q d bs)
    (hp : ∀ {d bs a r}, p d bs = .ok (a, r) → r.length < bs.length)
    (hf : bs.length < fuel) : s.collect p fuel bs = .panic ↔ Later p Q s bs := by
  induction fuel generalizing s bs with
  | zero => exact absurd hf (not_lt_zero _)
  | succ fuel ih =>
    by_cases hm : s.More bs
    · simp only [collect, bind_apply, next_of_more hm]
      cases hpb : p s.levels bs with
      | ok ar =>
        obtain ⟨_, r⟩ := ar
        have hr : s.rest.collect p fuel r = .panic ↔ Later p Q s.rest r := ih (by have := hp hpb; omega)
        have hq : ¬ Q s.levels bs := fun hq => by rw [(hQ _ bs).mpr hq] at hpb; cases hpb
        simp only [ok_bind, bind_apply, Outcome.bind_eq_panic, hr]
        refine ⟨fun h => h.elim (fun h => .next hm hpb h) (fun ⟨_, _, h⟩ => by cases h), fun h => ?_⟩
        rcases h.inv.2 with h | ⟨a', r', he, h⟩
        · exact absurd h hq
        · rw [hpb] at he; cases he; exact .inl h
      | err =>
        have hq : ¬ Q s.levels bs := fun hq => by rw [(hQ _ bs).mpr hq] at hpb; cases hpb
        simp only [err_bind, reduceCtorEq, false_iff]
        intro h
        rcases h.inv.2 with h | ⟨a', r', he, h⟩
        · exact hq h
        · rw [hpb] at he; cases he
      | panic => simp only [panic_bind, true_iff]; exact .here hm ((hQ _ bs).mp hpb)
    · refine ⟨fun h => ?_, fun h => absurd h.inv.1 hm⟩
      rcases next_of_not_more (p := p) hm with e | e <;>
        simp [collect, bind_apply, e] at h

end Seq

/-- `deserialize_seq` with this `visit_seq`. -/
def seq {α : Type} (visit : Seq → Parser Error (α × Seq)) : Decoder α := fun d => do
  match ← item d with
  | (.array len, d + 1) => do
    let (a, s) ← visit (.ofLen d len)
    s.finish
    return a
  | _ => .fail .reader

variable {visit : Seq → Parser Error (α × Seq)}

lemma reads_seq (hn : n < 2 ^ 64) (h : (visit (.definite d n)).Reads w (a, .definite d 0)) :
    (seq visit (d + 1)).Reads (head 4 n ++ w) a := fun r => by
  simp only [seq, bind_apply, append_assoc, item_head (show 4 < 6 by decide) hn, ok_bind,
    Head.ofMajor, Seq.ofLen, h r, Seq.finish, pure_apply]

lemma rejects_seq (hn : n < 2 ^ 64)
    (h : (visit (.definite d n)).Rejects w) : (seq visit (d + 1)).Rejects (head 4 n ++ w) := fun r x => by
  rw [seq, bind_apply, append_assoc, item_head (show 4 < 6 by decide) hn, ok_bind]
  exact Parser.Rejects.bind h _ r x

lemma yields_seq (h : ∀ s, (visit s).Yields fun x => P x.1) : (seq visit d).Yields P :=
  .of_bind fun x => by
    split
    · exact (h _).bind fun _ ha => .of_bind fun _ => .pure ha
    · exact .fail _ _

lemma safe_seq (h : ∀ s, (visit s).Safe) : (seq visit d).Safe :=
  (safe_item d).bind fun x => by
    split
    · exact (h _).bind fun _ => (Seq.safe_finish _).bind fun _ => .pure _
    · exact .fail _

lemma seq_eq_panic : seq visit d bs = .panic ↔
    ∃ len d' r, item d bs = .ok ((.array len, d' + 1), r) ∧ visit (.ofLen d' len) r = .panic := by
  rw [seq, (safe_item d).bind_eq_panic]
  constructor
  · rintro ⟨x, r, hr, hp⟩
    split at hp
    · rename_i len d'
      rcases Parser.bind_eq_panic.mp hp with hv | ⟨⟨a, s⟩, r', -, hv⟩
      · exact ⟨len, d', r, hr, hv⟩
      · exact absurd hv ((Seq.safe_finish s).bind (fun _ => .pure _) r')
    · cases hp
  · rintro ⟨len, d', r, hr, hv⟩
    exact ⟨_, r, hr, Parser.bind_eq_panic.mpr (.inl hv)⟩

lemma seq_shorter (hv : ∀ s, (visit s).Shrinks) (h : seq visit d bs = .ok (a, r)) : r.length < bs.length := by
  obtain ⟨x, _, h1, h2⟩ := Parser.bind_eq_ok.mp h
  have hlt := item_shorter h1
  split at h2
  · have := ((hv _).bind fun _ => (Seq.shrinks_finish _).bind fun _ => .pure _) h2
    omega
  · cases h2

lemma head_array_ne_stop (n : Nat) (w : List UInt8) : ∃ b v, head 4 n ++ w = b :: v ∧ b ≠ stop := by
  have hb : ∀ info, info < 28 → initial 4 info ≠ stop := fun info hi e => by
    have h := congrArg UInt8.toNat e
    rw [initial_toNat (by decide) (by omega), show stop.toNat = 255 from rfl] at h
    omega
  unfold head
  split
  · exact ⟨_, _, rfl, hb n (by omega)⟩
  · split
    · exact ⟨_, _, rfl, hb 24 (by decide)⟩
    · split
      · exact ⟨_, _, rfl, hb 25 (by decide)⟩
      · split
        · exact ⟨_, _, rfl, hb 26 (by decide)⟩
        · exact ⟨_, _, rfl, hb 27 (by decide)⟩

lemma item_indefinite (d : Nat) (r : List UInt8) : item d (initial 4 31 :: r) = .ok ((.array none, d), r) := by
  rw [item, bind_apply, untag_initial (by decide) (by decide) (by decide), ok_bind, bind_apply,
    readHead_initial (by decide) (by decide)]
  rfl

lemma seq_indefinite (h : visit (.indefinite d) (w ++ stop :: r) = .ok ((a, .indefinite d), stop :: r)) :
    seq visit (d + 1) (initial 4 31 :: (w ++ stop :: r)) = .ok (a, r) := by
  rw [seq, bind_apply, item_indefinite, ok_bind]
  simp_all [Seq.ofLen, Seq.finish]

/-- How deep items may be nested. -/
def maxLevels : Nat := 127

/-- `serde_cbor::from_slice`: the value must be the whole input. -/
def fromSlice {α : Type} (p : Decoder α) (bs : List UInt8) : Outcome Error α :=
  match p maxLevels bs with
  | .ok (a, []) => .ok a
  | .ok (_, _ :: _) => .err .reader
  | .err e => .err e
  | .panic => .panic

lemma fromSlice_of_reads (h : (p maxLevels).Reads bs a) : fromSlice p bs = .ok a := by
  have := h []
  rw [append_nil] at this
  simp only [fromSlice, this]

lemma fromSlice_eq_ok : fromSlice p bs = .ok a ↔ p maxLevels bs = .ok (a, []) := by
  unfold fromSlice
  split <;> simp_all

lemma fromSlice_eq_panic : fromSlice p bs = .panic ↔ p maxLevels bs = .panic := by
  unfold fromSlice
  split <;> simp_all

end Dtn.Cbor
