import Dtn.Proof.Tcpcl.Framing

/-!
# The codec on a stream that arrives in chunks

An `Item` is a message as the codec sees it: a type byte and a framed body.
`Codec.At c buf v` says that the codec `c` with `buf` in its buffer has still
to decode `v`; a type byte taken off the buffer counts as part of `v`. One call
of `decode` does what the items say (`decode_item`, `decode_cut`), so does
`drain`, which calls it until it gives nothing (`drain_take`), and so does
`feed`, which drains after each chunk (`feed_chunks`).

`feed_chunks_eq_whole` puts them together: all chunkings give the messages of the
whole stream exactly if no message is refused and no chunk ends at a cut where
a decoder panics.
-/

namespace Dtn.Tcpcl

open List Outcome Nat

variable {p : Nat} {t : MessageType}

/-! ## Feeding a codec -/

namespace Codec

/-- Call `decode` until it returns `Ok(None)`. -/
def drain : Nat → Codec → List UInt8 → Outcome Errors (List Messages × Codec × List UInt8)
  | 0, _, _ => .panic
  | fuel + 1, c, src =>
    decode c src >>= fun
      | (none, c, src) => .ok ([], c, src)
      | (some m, c, src) => drain fuel c src >>= fun (ms, c, src) => .ok (m :: ms, c, src)

/-- Append each chunk to the buffer and drain it. Each message has a byte that is in
the buffer or has become the current type, so the fuel lasts. -/
def feed : Codec → List UInt8 → List (List UInt8) → Outcome Errors (List Messages × Codec × List UInt8)
  | c, buf, [] => .ok ([], c, buf)
  | c, buf, x :: xs =>
    drain ((buf ++ x).length + 2) c (buf ++ x) >>= fun (ms, c, buf) =>
      feed c buf xs >>= fun (ms', c, buf) => .ok (ms ++ ms', c, buf)

/-- A contact header and messages, encoded one after the other. -/
def encodeStream (h : ContactHeader) (ms : List Messages) : Outcome Errors (List UInt8) := do
  let rest ← Outcome.concat encode ms
  return h.encode ++ rest

end Codec

/-- Where the chunks end, from position `n` on. -/
def chunkEnds : Nat → List (List UInt8) → List Nat
  | _, [] => []
  | n, x :: xs => (n + x.length) :: chunkEnds (n + x.length) xs

lemma chunkEnds_add (d n : Nat) (xs : List (List UInt8)) : chunkEnds (d + n) xs = (chunkEnds n xs).map (d + ·) := by
  induction xs generalizing n with
  | nil => rfl
  | cons _ _ ih => rw [chunkEnds, chunkEnds, map_cons, add_assoc, ih]

/-- Position `p` of a sequence of parts of the lengths `len` is one where `bad` holds of the part it is in. -/
def badCutAt {α : Type} (len : α → Nat) (bad : α → Nat → Bool) : List α → Nat → Bool
  | [], _ => false
  | a :: as, p => if p < len a then bad a p else badCutAt len bad as (p - len a)

section BadCut

variable {α : Type} {len : α → Nat} {bad : α → Nat → Bool}

lemma badCutAt_zero (h0 : ∀ a, bad a 0 = false) (as : List α) : badCutAt len bad as 0 = false := by
  induction as with
  | nil => rfl
  | cons => grind [badCutAt]

lemma badCutAt_append (h0 : ∀ a, bad a 0 = false) (hp : p ≤ (as.map len).sum) (bs : List α) :
    badCutAt len bad (as ++ bs) p = badCutAt len bad as p := by
  induction as generalizing p with
  | nil => simp_all [badCutAt_zero]
  | cons => grind [badCutAt]

end BadCut

/-- The length of an encoded message. -/
def Messages.encodedLength (m : Messages) : Nat :=
  match (Codec.encode m : Outcome Errors _) with
  | .ok w => w.length
  | _ => 0

/-- A message cut behind its first `p` bytes, the type byte among them, makes the decoder panic. -/
def Messages.badAt (m : Messages) (p : Nat) : Bool := 1 ≤ p && m.badCut (p - 1)

/-! ## Items -/

/-- A message as it stands in the stream, and how its decoder deals with it. -/
structure Item where
  type : MessageType
  body : List UInt8
  message : Messages
  bad : Nat → Bool
  framed : Framed (Codec.decodeMessage type) body message bad

variable {i : Item} {is : List Item}

namespace Item

def bytes (i : Item) : List UInt8 := i.type.toU8 :: i.body

def badAt (i : Item) (p : Nat) : Bool := 1 ≤ p && i.bad (p - 1)

/-- The part of a sequence of items that a position is in makes the decoder panic. -/
def cutAt (is : List Item) (p : Nat) : Bool := badCutAt (fun i => i.bytes.length) badAt is p

lemma bytes_length_pos (i : Item) : 0 < i.bytes.length := succ_pos _

lemma cutAt_cons_lt (h : p < i.bytes.length) : cutAt (i :: is) p = i.badAt p :=
  if_pos h

lemma cutAt_cons_ge (h : i.bytes.length ≤ p) : cutAt (i :: is) p = cutAt is (p - i.bytes.length) :=
  if_neg (not_lt.mpr h)

/-- Behind whole items the position counts from the first item left. -/
lemma cutAt_append (done rest : List Item) (p : Nat) :
    cutAt (done ++ rest) ((done.flatMap bytes).length + p) = cutAt rest p := by
  induction done with
  | nil => rw [flatMap_nil, length_nil, zero_add, nil_append]
  | cons => grind [cutAt_cons_ge]

lemma cutAt_length (is : List Item) : cutAt is (is.flatMap bytes).length = false := by
  have h := cutAt_append is [] 0
  rwa [append_nil, add_zero] at h

end Item

/-! ## One call -/

lemma MessageType.tryFrom_toU8 (t : MessageType) : tryFrom t.toU8 = some t := by
  cases t <;> rfl

lemma MessageType.toU8_injective (h : t.toU8 = t'.toU8) : t = t' := by grind [tryFrom_toU8]

namespace Codec

variable {c : Codec} {buf r stream : List UInt8} {fuel : Nat} {ms : List Messages} {xs : List (List UInt8)}
  {h : ContactHeader}

/-- The codec has still to decode `v`, the type byte it has taken off the buffer included. -/
inductive At : Codec → List UInt8 → List UInt8 → Prop where
  | fresh (v : List UInt8) : At ⟨true, none⟩ v v
  | typed {t : MessageType} (ht : t ≠ .keepalive) (v : List UInt8) : At ⟨true, some t⟩ v (t.toU8 :: v)

lemma At.append (h : At c buf v) (x : List UInt8) : At c (buf ++ x) (v ++ x) := by
  cases h with
  | fresh => exact .fresh _
  | typed ht => exact .typed ht _

lemma At.length_le (h : At c buf v) : v.length ≤ buf.length + 1 := by
  cases h with
  | fresh => exact le_succ _
  | typed => exact le_refl _

lemma At.of_nil (h : At c buf []) : c = ⟨true, none⟩ ∧ buf = [] := by
  cases h
  exact ⟨rfl, rfl⟩

lemma decodeMessage_nil (ht : t ≠ .keepalive) : decodeMessage t [] = .ok (none, []) := by
  cases t <;> first | rfl | exact absurd rfl ht

/-- The type byte is known now or was before: the rest is the same. -/
lemma decode_of_at (h : At c buf (t.toU8 :: b)) : decode c buf = decodeCurrent t b := by
  rcases hv : t.toU8 :: b with _ | ⟨b0, b1⟩
  · cases hv
  rw [hv] at h
  cases h with
  | fresh =>
    cases hv
    cases t <;> rfl
  | @typed _ ht =>
    obtain ⟨htt, rfl⟩ := List.cons.inj hv
    cases MessageType.toU8_injective htt
    cases b with
    | nil =>
      rw [decodeCurrent, decodeMessage_nil ht]
      rfl
    | cons => rfl

lemma decode_nil (h : At c buf []) : decode c buf = .ok (none, ⟨true, none⟩, []) := by
  obtain ⟨rfl, rfl⟩ := h.of_nil
  rfl

lemma decode_item (i : Item) (h : At c buf (i.bytes ++ r)) :
    decode c buf = .ok (some i.message, ⟨true, none⟩, r) := by
  rw [Item.bytes, cons_append] at h
  rw [decode_of_at h, decodeCurrent, i.framed.full r]
  rfl

/-- Nothing is lost while the item is incomplete. -/
lemma decode_cut (h : At c buf (i.bytes.take n))
    (hn : n < i.bytes.length) : (i.badAt n = true ∧ decode c buf = .panic) ∨
      (i.badAt n = false ∧ ∃ c' buf', decode c buf = .ok (none, c', buf') ∧ At c' buf' (i.bytes.take n)) := by
  cases n with
  | zero => exact .inr ⟨rfl, _, _, decode_nil h, .fresh _⟩
  | succ n =>
    have hlt : n < i.body.length := lt_of_succ_lt_succ hn
    have hbad : i.badAt (n + 1) = i.bad n := by simp [Item.badAt]
    have htype : i.type ≠ .keepalive := by
      intro ht
      have hcut := i.framed.cut n hlt
      rw [ht] at hcut
      have hkeep : ∀ src, decodeMessage .keepalive src = .ok (some (.keepalive ⟨⟩), src) := fun _ => rfl
      rw [hkeep] at hcut
      split at hcut <;> cases hcut
    rw [decode_of_at h, decodeCurrent, i.framed.cut n hlt, hbad]
    rcases Bool.eq_false_or_eq_true (i.bad n) with hb | hb
    · rw [hb]
      exact .inl ⟨rfl, rfl⟩
    · rw [hb]
      exact .inr ⟨rfl, _, _, rfl, .typed htype _⟩

/-! ## All calls on one buffer -/

lemma drain_item (i : Item) (h : At c buf (i.bytes ++ r)) :
    drain (fuel + 1) c buf = drain fuel ⟨true, none⟩ r >>= fun (ms, c, src) => .ok (i.message :: ms, c, src) := by
  rw [drain, decode_item i h]
  rfl

/-- A buffer that ends inside an item gives the items before it, and keeps the rest for later. -/
lemma drain_take (h : At c buf ((is.flatMap Item.bytes).take n)) (hn : n ≤ (is.flatMap Item.bytes).length)
    (hfuel : n < fuel) :
    (Item.cutAt is n = true ∧ drain fuel c buf = .panic) ∨ (Item.cutAt is n = false ∧
      ∃ done rest j c' buf', is = done ++ rest ∧ n = (done.flatMap Item.bytes).length + j ∧
        (∀ i ∈ rest.head?, j < i.bytes.length) ∧ j ≤ (rest.flatMap Item.bytes).length ∧
        drain fuel c buf = .ok (done.map Item.message, c', buf') ∧ At c' buf' ((rest.flatMap Item.bytes).take j)) := by
  obtain ⟨fuel, rfl⟩ := exists_eq_succ_of_ne_zero (ne_zero_of_lt hfuel)
  induction is generalizing n c buf fuel with
  | nil =>
    rw [flatMap_nil, length_nil, le_zero] at hn
    subst hn
    refine .inr ⟨rfl, [], [], 0, _, _, rfl, rfl, fun _ hi => (by cases hi), le_refl _, ?_, .fresh _⟩
    rw [drain, decode_nil h]
    rfl
  | cons i is ih =>
    rw [flatMap_cons, length_append] at hn
    rw [flatMap_cons] at h
    by_cases hlt : n < i.bytes.length
    · -- the buffer ends inside this item
      rw [take_append_of_le_length (le_of_lt hlt)] at h
      rw [Item.cutAt_cons_lt hlt]
      rcases decode_cut h hlt with ⟨hbad, hd⟩ | ⟨hbad, c', buf', hd, h'⟩
      · refine .inl ⟨hbad, ?_⟩
        rw [drain, hd]
        rfl
      · refine .inr ⟨hbad, [], i :: is, n, c', buf', rfl, (zero_add n).symm, ?_, ?_, ?_, ?_⟩
        · rintro j ⟨⟩
          exact hlt
        · rw [flatMap_cons, length_append]; omega
        · rw [drain, hd]
          rfl
        · grind
    · have hpos := i.bytes_length_pos
      rw [take_append, take_of_length_le (by omega)] at h
      obtain ⟨fuel, rfl⟩ := exists_eq_succ_of_ne_zero (show fuel ≠ 0 by omega)
      rw [Item.cutAt_cons_ge (by omega), drain_item i h]
      have hrest : n - i.bytes.length ≤ (is.flatMap Item.bytes).length := by omega
      rcases ih (.fresh _) hrest fuel (by omega) with
        ⟨hbad, hd⟩ | ⟨hbad, done, rest, j, c', buf', hsplit, hj, hhead, hjle, hd, h'⟩
      · refine .inl ⟨hbad, ?_⟩
        rw [hd]
        rfl
      · refine .inr ⟨hbad, i :: done, rest, j, c', buf', by rw [hsplit, cons_append], ?_, hhead, hjle, ?_, h'⟩
        · rw [flatMap_cons, length_append]; omega
        · rw [hd]
          rfl

/-- A message that is refused stops the draining with an error. -/
lemma drain_refused (h : At c buf (is.flatMap Item.bytes ++ (t.toU8 :: (b ++ r))))
    (hb : ∃ e, decodeMessage t (b ++ r) = .err e) (hfuel : is.length < fuel) : ∃ e, drain fuel c buf = .err e := by
  induction is generalizing c buf fuel with
  | nil =>
    obtain ⟨fuel, rfl⟩ := exists_eq_succ_of_ne_zero (ne_zero_of_lt hfuel)
    obtain ⟨e, he⟩ := hb
    refine ⟨e, ?_⟩
    rw [drain, decode_of_at h, decodeCurrent, he]
    rfl
  | cons i _ ih =>
    obtain ⟨_, rfl⟩ := exists_eq_succ_of_ne_zero (ne_zero_of_lt hfuel)
    rw [flatMap_cons, append_assoc] at h
    obtain ⟨e, he⟩ := ih (.fresh _) (lt_of_succ_lt_succ hfuel)
    refine ⟨e, ?_⟩
    rw [drain_item i h, he]
    rfl

/-! ## Chunks -/

/-- Drain the buffer, then go on with the chunks `xs`. -/
def resume (fuel : Nat) (c : Codec) (buf : List UInt8) (xs : List (List UInt8)) :
    Outcome Errors (List Messages × Codec × List UInt8) :=
  drain fuel c buf >>= fun (ms, c, buf) => feed c buf xs >>= fun (ms', c, buf) => .ok (ms ++ ms', c, buf)

lemma feed_cons (c : Codec) (buf x : List UInt8) (xs : List (List UInt8)) :
    feed c buf (x :: xs) = resume ((buf ++ x).length + 2) c (buf ++ x) xs := rfl

lemma resume_of_drain (hd : drain fuel c buf = .ok (ms, c', buf')) (xs : List (List UInt8)) :
    resume fuel c buf xs = feed c' buf' xs >>= fun (ms', c, buf) => .ok (ms ++ ms', c, buf) := by
  rw [resume, hd]
  rfl

/-- However the rest of the stream is cut, it gives the items' messages, or a panic if there is a bad cut. -/
lemma resume_chunks (h : At c buf ((is.flatMap Item.bytes).take j)) (hj : j ≤ (is.flatMap Item.bytes).length)
    (hfuel : j < fuel) (hxs : xs.flatten = (is.flatMap Item.bytes).drop j) :
    resume fuel c buf xs = if (j :: chunkEnds j xs).any (Item.cutAt is) then .panic
      else .ok (is.map Item.message, ⟨true, none⟩, []) := by
  induction xs generalizing is j fuel c buf with
  | nil =>
    have hend : (is.flatMap Item.bytes).length ≤ j := drop_eq_nil_iff.mp hxs.symm
    rcases drain_take h hj hfuel with ⟨hbad, hd⟩ | ⟨hok, done, rest, k, c', buf', rfl, hk, hhead, hkle, hd, h'⟩
    · rw [resume, hd, any_cons, hbad]
      rfl
    · -- the stream is over, so no item is left
      rw [flatMap_append, length_append] at hend
      have hrest : rest = [] := by
        cases rest with
        | nil => rfl
        | cons => grind
      subst hrest
      rw [flatMap_nil, take_nil] at h'
      obtain ⟨rfl, rfl⟩ := h'.of_nil
      rw [resume_of_drain hd, any_cons, hok, append_nil]
      exact congrArg (fun ms => Outcome.ok (ms, _, _)) (append_nil _)
  | cons x xs ih =>
    rcases drain_take h hj hfuel with ⟨hbad, hd⟩ | ⟨hok, done, rest, k, _, buf', rfl, hk, _, _, hd, h'⟩
    · rw [resume, hd, any_cons, hbad]
      rfl
    · have hrest : (rest.flatMap Item.bytes).drop k = x ++ xs.flatten := by grind [drop_length_add_append]
      have htake : (rest.flatMap Item.bytes).take (k + x.length) = (rest.flatMap Item.bytes).take k ++ x := by
        rw [take_add, hrest, take_left]
      have hdrop : xs.flatten = (rest.flatMap Item.bytes).drop (k + x.length) := by
        rw [← drop_drop, hrest, drop_left]
      have hle : k + x.length ≤ (rest.flatMap Item.bytes).length := by grind
      have hnext := h'.append x
      rw [← htake] at hnext
      have hfuel' : k + x.length < (buf' ++ x).length + 2 := by
        have := hnext.length_le
        rw [length_take] at this
        omega
      have hcut : Item.cutAt (done ++ rest) ∘ ((done.flatMap Item.bytes).length + ·) = Item.cutAt rest :=
        funext (Item.cutAt_append done rest)
      rw [any_cons, hok, Bool.false_or, chunkEnds, hk, add_assoc, chunkEnds_add,
        ← map_cons (f := ((done.flatMap Item.bytes).length + ·)), any_map, hcut, resume_of_drain hd, feed_cons,
        ih hnext hle hfuel' hdrop, map_append]
      split <;> rfl

/-! ## The contact header -/

lemma length_header (h : ContactHeader) : h.encode.length = 6 := by
  simp [ContactHeader.encode, length_putU8, dtnMagicBytes]

lemma decode_default (src : List UInt8) : decode default src =
    ContactHeader.decode src >>= fun (m, src) => .ok (m.map .contactHeader, ⟨m.isSome, none⟩, src) := rfl

lemma decode_header (h : ContactHeader) (r : List UInt8) :
    decode default (h.encode ++ r) = .ok (some (.contactHeader h), ⟨true, none⟩, r) := by
  rw [decode_default, (framed_contactHeader h).full r]
  rfl

lemma decode_header_cut (h : ContactHeader) (hp : p < 6) :
    decode default (h.encode.take p) = .ok (none, default, h.encode.take p) := by
  rw [decode_default, (framed_contactHeader h).cut p (by rw [length_header]; exact hp)]
  rfl

/-- With the header complete, the stream goes on behind it. -/
lemma resume_header (h : ContactHeader) (fuel : Nat) (y : List UInt8) (xs : List (List UInt8)) :
    resume (fuel + 1) default (h.encode ++ y) xs =
      resume fuel ⟨true, none⟩ y xs >>= fun (ms, c, buf) => .ok (.contactHeader h :: ms, c, buf) := by
  have hd : drain (fuel + 1) default (h.encode ++ y) =
      drain fuel ⟨true, none⟩ y >>= fun (ms, c, buf) => .ok (.contactHeader h :: ms, c, buf) := by
    rw [drain, decode_header]
    rfl
  rw [resume, hd, resume]
  rcases drain fuel ⟨true, none⟩ y with ⟨_, c, buf⟩ | e | _
  · simp only [ok_bind]
    rcases feed c buf xs with ⟨_, _, _⟩ | e | _ <;> rfl
  · rfl
  · rfl

lemma feed_chunks (h : ContactHeader) (hp : p < 6) (hxs : xs.flatten = h.encode.drop p ++ is.flatMap Item.bytes) :
    feed default (h.encode.take p) xs =
      if (chunkEnds p xs).any (fun q => 6 ≤ q && Item.cutAt is (q - 6)) then .panic
      else .ok (.contactHeader h :: is.map Item.message, ⟨true, none⟩, []) := by
  have hlen := length_header h
  induction xs generalizing p with
  | nil => grind [length_append]
  | cons x xs ih =>
    rw [flatten_cons] at hxs
    have hdl : (h.encode.drop p).length = 6 - p := by rw [length_drop]; omega
    by_cases hn : p + x.length < 6
    · -- the header is still incomplete
      have hx : x = (h.encode.drop p).take x.length := by grind [take_left]
      have hrest : xs.flatten = h.encode.drop (p + x.length) ++ is.flatMap Item.bytes := by grind [drop_left, drop_drop]
      have hbuf : h.encode.take p ++ x = h.encode.take (p + x.length) := by
        conv_lhs => rw [hx]
        rw [take_add]
      have hd : ∀ fuel, drain (fuel + 1) default (h.encode.take (p + x.length)) =
          .ok ([], default, h.encode.take (p + x.length)) := by
        intro fuel
        rw [drain, decode_header_cut h hn]
        rfl
      rw [feed_cons, hbuf, resume_of_drain (hd _), chunkEnds, any_cons, decide_eq_false (not_le.mpr hn),
        Bool.false_and, Bool.false_or, ih hn hrest]
      split <;> rfl
    · obtain ⟨n, hn'⟩ := Nat.exists_eq_add_of_le (Nat.not_lt.mp hn)
      have hx : x = h.encode.drop p ++ (is.flatMap Item.bytes).take n := by
        have := congrArg (List.take x.length) hxs
        rw [take_left, take_append, take_of_length_le (by omega), hdl] at this
        rwa [show x.length - (6 - p) = n by omega] at this
      have hrest : xs.flatten = (is.flatMap Item.bytes).drop n := by
        have := congrArg (List.drop x.length) hxs
        rw [drop_left, drop_append, drop_eq_nil_of_le (by omega), hdl, nil_append] at this
        rwa [show x.length - (6 - p) = n by omega] at this
      have hbuf : h.encode.take p ++ x = h.encode ++ (is.flatMap Item.bytes).take n := by grind [take_append_drop]
      have hle : n ≤ (is.flatMap Item.bytes).length := by grind
      have hfuel : n < (h.encode ++ (is.flatMap Item.bytes).take n).length + 1 := by
        rw [length_append, length_take]
        omega
      have hcut : (fun q => decide (6 ≤ q) && Item.cutAt is (q - 6)) ∘ (6 + ·) = Item.cutAt is := by
        funext q
        simp
      rw [feed_cons, hbuf, resume_header, chunkEnds, hn', chunkEnds_add, ← map_cons (f := (6 + ·)), any_map, hcut,
        resume_chunks (.fresh _) hle hfuel hrest]
      split <;> rfl

/-! ## Streams of messages -/

section

variable (hms : ∀ m ∈ ms, ∃ t, (m.getMessageType : Outcome Errors _) = .ok t)

include hms

lemma exists_items (hw : (Outcome.concat encode ms : Outcome Errors _) = .ok w) (ha : ∀ m ∈ ms, m.Acceptable) :
    ∃ is : List Item, w = is.flatMap Item.bytes ∧ is.map Item.message = ms.map Messages.decoded ∧
      ∀ p, Item.cutAt is p = badCutAt Messages.encodedLength Messages.badAt ms p := by
  induction ms generalizing w with
  | nil => exact ⟨[], concat_nil_eq_ok.mp hw, rfl, fun _ => rfl⟩
  | cons m _ ih =>
    obtain ⟨_, _, hx, hv, rfl⟩ := concat_cons_eq_ok.mp hw
    obtain ⟨t, ht⟩ := hms m mem_cons_self
    obtain ⟨b, rfl, hb⟩ := framed_message ht hx (ha m mem_cons_self)
    obtain ⟨is, rfl, hmap, hcut⟩ := ih (fun m hm => hms m (mem_cons_of_mem _ hm)) hv
      fun m hm => ha m (mem_cons_of_mem _ hm)
    have hlen : m.encodedLength = (t.toU8 :: b).length := by rw [Messages.encodedLength, hx]
    refine ⟨⟨t, b, m.decoded, m.badCut, hb⟩ :: is, rfl, ?_, fun p => ?_⟩
    · rw [map_cons, map_cons, hmap]
    · rw [badCutAt, hlen, ← hcut]
      rfl

/-- A stream with a message that is refused is not decoded. -/
lemma feed_refused (hs : encodeStream h ms = .ok stream) (ha : ¬∀ m ∈ ms, m.Acceptable) :
    ∃ e, feed default [] [stream] = .err e := by
  obtain ⟨_, hw, hs⟩ := bind_eq_ok.mp hs
  cases hs
  -- the first one of them
  obtain ⟨m, hfind⟩ : ∃ m, ms.find? (fun m => !decide m.Acceptable) = some m := by
    rw [← Option.isSome_iff_exists, List.find?_isSome]
    simpa only [not_forall, exists_prop, Bool.not_eq_true', decide_eq_false_iff_not] using ha
  obtain ⟨hm, _, _, rfl, hpre⟩ := List.find?_eq_some_iff_append.mp hfind
  simp only [Bool.not_eq_true', decide_eq_false_iff_not, Bool.not_not, decide_eq_true_eq] at hm hpre
  obtain ⟨_, _, hu, hv, rfl⟩ := concat_append_eq_ok.mp hw
  obtain ⟨_, y, hx, _, rfl⟩ := concat_cons_eq_ok.mp hv
  obtain ⟨t, ht⟩ := hms m (by simp)
  obtain ⟨b, rfl, hb⟩ := message_refused ht hx hm
  obtain ⟨is, rfl, -, -⟩ := exists_items (fun m hm => hms m (mem_append_left _ hm)) hu hpre
  have hat : At ⟨true, none⟩ (is.flatMap Item.bytes ++ (t.toU8 :: b ++ y))
    (is.flatMap Item.bytes ++ (t.toU8 :: (b ++ y))) :=
    .fresh _
  have hfuel : is.length < ([] ++ (h.encode ++ (is.flatMap Item.bytes ++ (t.toU8 :: b ++ y)))).length + 1 := by
    grind [length_le_length_flatMap, Item.bytes]
  obtain ⟨e, he⟩ := drain_refused hat (hb y) hfuel
  refine ⟨e, ?_⟩
  rw [feed_cons, nil_append, resume_header, resume]
  rw [nil_append] at he
  rw [he]
  rfl

/-- A stream of acceptable messages gives these messages, however it is cut; a chunk that ends
where a decoder panics is the only thing that can go wrong. -/
lemma feed_stream (hs : encodeStream h ms = .ok stream) (hc : chunks.flatten = stream) (ha : ∀ m ∈ ms, m.Acceptable) :
    feed default [] chunks =
      if (chunkEnds 0 chunks).any fun p => 6 ≤ p && badCutAt Messages.encodedLength Messages.badAt ms (p - 6)
      then .panic else .ok (.contactHeader h :: ms.map Messages.decoded, ⟨true, none⟩, []) := by
  obtain ⟨_, hw, hs⟩ := bind_eq_ok.mp hs
  obtain ⟨_, rfl, hmap, hcut⟩ := exists_items hms hw ha
  simp only [← hcut, ← hmap]
  exact feed_chunks h (p := 0) (by omega) (hc.trans (Outcome.ok.inj hs).symm)

lemma feed_whole (hs : encodeStream h ms = .ok stream) (ha : ∀ m ∈ ms, m.Acceptable) :
    feed default [] [stream] = .ok (.contactHeader h :: ms.map Messages.decoded, ⟨true, none⟩, []) := by
  obtain ⟨_, hw, hs⟩ := bind_eq_ok.mp hs
  cases hs
  obtain ⟨is, rfl, hmap, -⟩ := exists_items hms hw ha
  have hend := feed_chunks h (p := 0) (by omega) (flatten_singleton (l := h.encode ++ is.flatMap Item.bytes))
  rwa [chunkEnds, any_cons, length_append, length_header, Nat.zero_add, Nat.add_sub_cancel_left, Item.cutAt_length,
    Bool.and_false, hmap] at hend

end

/-- Chunk independence: a stream of acceptable messages that is cut behind the lengths the decoders
look at gives what the whole stream gives, and a stream with another message gives an error. -/
theorem feed_chunks_eq_whole {h : ContactHeader} {ms : List Messages} {stream : List UInt8} {chunks : List (List UInt8)}
    (hms : ∀ m ∈ ms, ∃ t, (m.getMessageType : Outcome Errors _) = .ok t) (hs : encodeStream h ms = .ok stream)
    (hc : chunks.flatten = stream) :
    ((∀ m ∈ ms, m.Acceptable) →
      (∀ p ∈ chunkEnds 0 chunks, 6 ≤ p → badCutAt Messages.encodedLength Messages.badAt ms (p - 6) = false) →
      feed default [] chunks = feed default [] [stream] ∧
        feed default [] [stream] = .ok (.contactHeader h :: ms.map Messages.decoded, ⟨true, none⟩, [])) ∧
      ((∃ m ∈ ms, ¬m.Acceptable) → ∃ e, feed default [] [stream] = .err e) := by
  refine ⟨fun ha hgood => ?_, fun ⟨m, hm, ha⟩ => ?_⟩
  · grind [feed_whole, feed_stream]
  · exact feed_refused hms hs fun h => ha (h m hm)

/-- A contact header and one acknowledgement of four bytes. -/
def ackStream : List UInt8 :=
  [0x64, 0x74, 0x6E, 0x21, 4, 0, 2, 3, 0, 0, 0, 0, 0, 0, 0, 0, 0, 0, 0, 0, 0, 0, 0, 4]

theorem feed_ackStream : feed default [] [ackStream.take 15, ackStream.drop 15] = feed default [] [ackStream] ∧
    feed default [] [ackStream] =
      .ok ([.contactHeader ⟨4, false⟩, .xferAck ⟨⟨true, true⟩, 0, 4⟩], ⟨true, none⟩, []) := by
  have hs : encodeStream ⟨4, false⟩ [.xferAck ⟨⟨true, true⟩, 0, 4⟩] = .ok ackStream := by decide
  have hc : [ackStream.take 15, ackStream.drop 15].flatten = ackStream := by decide
  exact (feed_chunks_eq_whole (by simp [Messages.getMessageType]) hs hc).1 (by decide) (by decide)

-- cut behind the first nine of the 17 bytes of its body, the acknowledgement makes the decoder panic
example : feed default [] [ackStream.take 16, ackStream.drop 16] = .panic := by decide

/-- A session initialisation with a critical extension is an error. -/
theorem feed_critical : ∃ stream,
    encodeStream ⟨4, false⟩ [.sessInit ⟨60, 1000, 1000, "", [⟨true, 7, []⟩]⟩] = .ok stream ∧
      feed default [] [stream] = .err (.unkownCriticalSessionExtension 7) :=
  ⟨_, rfl, by decide⟩

end Codec

end Dtn.Tcpcl
