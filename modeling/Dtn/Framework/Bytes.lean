import Mathlib.Tactic.Ring

/-!
# Byte strings: big-endian numbers and UTF-8

What a wire format takes from its bytes: numbers of a fixed width, most
significant byte first (`beBytes`, `beNat`), and text (`utf8`, `fromUtf8`).
A number that the width can hold is read back (`beNat_beBytes`), bytes are those
of the number they stand for (`beBytes_beNat`), and a text is read back
(`fromUtf8_utf8`, `fromUtf8_eq_some`). A text begins with another one exactly if
its bytes do (`utf8_start_iff`).
-/

namespace Dtn

open List Nat

/-- The size of the largest allocation, `isize::MAX` bytes. -/
def isizeMax : Nat := 2 ^ 63 - 1

/-- The `k` low bytes of `n`, the most significant first. -/
def beBytes : Nat → Nat → List UInt8
  | 0, _ => []
  | k + 1, n => UInt8.ofNat (n / 256 ^ k) :: beBytes k n

/-- The number whose bytes are `bs`, the most significant first. -/
def beNat : List UInt8 → Nat
  | [] => 0
  | b :: bs => b.toNat * 256 ^ bs.length + beNat bs

@[simp] lemma length_beBytes (k n : Nat) : (beBytes k n).length = k := by
  induction k with
  | zero => rfl
  | succ _ ih => simp only [beBytes, length_cons, ih]

lemma beNat_beBytes_mod (k n : Nat) : beNat (beBytes k n) = n % 256 ^ k := by
  induction k with
  | zero => simp [beBytes, beNat, mod_one]
  | succ => grind [length_beBytes, UInt8.toNat_ofNat', mod_pow_succ, beBytes, beNat]

lemma beNat_beBytes (h : n < 256 ^ k) : beNat (beBytes k n) = n := by
  rw [beNat_beBytes_mod, mod_eq_of_lt h]

lemma beNat_lt (bs : List UInt8) : beNat bs < 256 ^ bs.length := by
  induction bs with
  | nil => exact one_pos
  | cons b bs =>
    have hb : (b.toNat + 1) * 256 ^ bs.length ≤ 256 * 256 ^ bs.length := mul_le_mul_right _ b.toNat_lt
    rw [beNat, length_cons, pow_succ, mul_comm (256 ^ _)]
    rw [add_mul, one_mul] at hb
    omega

lemma beNat_injective (hlen : bs.length = cs.length) (h : beNat bs = beNat cs) : bs = cs := by
  induction bs generalizing cs with
  | nil => exact (length_eq_zero_iff.mp hlen.symm).symm
  | cons _ bs ih =>
    obtain ⟨_, cs, rfl⟩ := exists_cons_of_length_eq_add_one hlen.symm
    replace hlen : bs.length = cs.length := succ.inj hlen
    have hbs := beNat_lt bs
    have hcs := beNat_lt cs
    simp only [beNat, hlen] at h hbs
    have hpos : 0 < 256 ^ cs.length := zero_lt_of_lt hcs
    -- the first byte is the quotient, the others are the remainder
    have hdiv := congrArg (· / 256 ^ cs.length) h
    have hmod := congrArg (· % 256 ^ cs.length) h
    simp only [add_comm (_ * _), add_mul_div_right _ _ hpos, div_eq_of_lt hbs,
      div_eq_of_lt hcs, zero_add] at hdiv
    simp only [add_comm (_ * _), add_mul_mod_self_right, mod_eq_of_lt hbs, mod_eq_of_lt hcs] at hmod
    rw [UInt8.toNat_inj.mp hdiv, ih hlen hmod]

lemma beBytes_beNat (h : bs.length = k) : beBytes k (beNat bs) = bs := by
  refine beNat_injective (by rw [length_beBytes, h]) (beNat_beBytes ?_)
  rw [← h]
  exact beNat_lt bs

/-! ## Text -/

/-- The UTF-8 bytes of a string. -/
def utf8 (s : String) : List UInt8 := s.toByteArray.data.toList

/-- The string with these UTF-8 bytes (`str::from_utf8`). -/
def fromUtf8 (bs : List UInt8) : Option String := String.fromUTF8? ⟨bs.toArray⟩

lemma fromUtf8_utf8 (s : String) : fromUtf8 (utf8 s) = some s := by
  obtain ⟨⟨⟨_⟩⟩, h⟩ := s
  simp [fromUtf8, utf8, String.fromUTF8?, h, String.fromUTF8]

lemma fromUtf8_eq_some : fromUtf8 bs = some s ↔ bs = utf8 s := by
  refine ⟨fun h => ?_, fun h => h ▸ fromUtf8_utf8 s⟩
  simp only [fromUtf8, String.fromUTF8?, Option.dite_none_right_eq_some, Option.some.injEq] at h
  obtain ⟨_, rfl⟩ := h
  rfl

lemma utf8_injective (h : utf8 s = utf8 t) : s = t :=
  Option.some.inj ((fromUtf8_utf8 s).symm.trans (h ▸ fromUtf8_utf8 t))

lemma utf8_append (s t : String) : utf8 (s ++ t) = utf8 s ++ utf8 t := by rfl

lemma utf8_eq_flatMap (s : String) : utf8 s = s.toList.flatMap String.utf8EncodeChar := by
  have hof (cs : List Char) : utf8 (String.ofList cs) = cs.flatMap String.utf8EncodeChar := by
    rw [utf8, String.toByteArray_ofList, List.utf8Encode, data_toByteArray]
  rw [← hof, String.ofList_toList]

/-- The bytes of no character begin with those of another. -/
lemma utf8EncodeChar_append_inj (h : String.utf8EncodeChar c ++ bs = String.utf8EncodeChar c' ++ bs') : c = c' := by
  have hdecode (c : Char) (bs : List UInt8) :
      (String.utf8EncodeChar c ++ bs).toByteArray.utf8DecodeChar? 0 = some c := by
    rw [toByteArray_append]
    exact ByteArray.utf8DecodeChar?_utf8EncodeChar_append
  have := hdecode c bs
  rw [h, hdecode] at this
  exact (Option.some.inj this).symm

lemma flatMap_utf8EncodeChar_start {cs cs' : List Char}
    (h : cs.flatMap String.utf8EncodeChar ++ bs = cs'.flatMap String.utf8EncodeChar) : ∃ r, cs ++ r = cs' := by
  induction cs generalizing cs' with
  | nil => exact ⟨cs', rfl⟩
  | cons =>
    rw [flatMap_cons, append_assoc] at h
    cases cs' with
    | nil => simp_all
    | cons => grind [utf8EncodeChar_append_inj, append_cancel_left]

/-- The bytes of a text begin with those of another exactly if the text does. -/
lemma utf8_start_iff : (utf8 s).isPrefixOf (utf8 t) = true ↔ ∃ r, t = s ++ r := by
  rw [ isPrefixOf_iff_prefix]
  constructor
  · rintro ⟨_, h⟩
    rw [utf8_eq_flatMap, utf8_eq_flatMap] at h
    obtain ⟨r, hr⟩ := flatMap_utf8EncodeChar_start h
    exact ⟨String.ofList r, String.toList_inj.mp (by rw [String.toList_append, String.toList_ofList, hr])⟩
  · grind [utf8_append]

/-- Non-empty encodings are at least as long, put together, as there are values. -/
lemma length_le_length_flatMap {α : Type} {enc : α → List UInt8} {as : List α} (h : ∀ a ∈ as, enc a ≠ []) :
    as.length ≤ (as.flatMap enc).length := by
  induction as with
  | nil => exact le_refl _
  | cons => grind [length_pos_iff]

end Dtn
