import Dtn.Impl.Tcpcl.Messages

/-!
# What each message's decoder does with a part of the message

`Framed p w a bad` says everything about the decoder `p` of a message with the
body `w`: given the body it reads `a`, and given only the first `k` bytes of
it it waits for more, except that it panics if `bad k`. Each message of the
protocol is framed (`framed_sessInit` and so on), with the cuts of
`Messages.badCut`.
-/

namespace Dtn.Tcpcl

open List Outcome Dtn.Parser

variable {ε : Type}
variable {src w u r x : List UInt8} {k n i : Nat} {m : SessInit}

/-! ## Numbers -/

lemma length_putU8 (n : UInt8) : (putU8 n).length = 1 := length_beBytes ..
lemma length_putU16 (n : UInt16) : (putU16 n).length = 2 := length_beBytes ..
lemma length_putU64 (n : UInt64) : (putU64 n).length = 8 := length_beBytes ..

lemma reads_getU8 (n : UInt8) : (getU8 : Parser ε UInt8).Reads (putU8 n) n := by
  have h : beNat (putU8 n) = n.toNat := beNat_beBytes n.toNat_lt
  refine (reads_get_of_length (length_putU8 n)).bind_nil ?_
  rw [h, UInt8.ofNat_toNat]
  exact .pure _

lemma reads_getU16 (n : UInt16) : (getU16 : Parser ε UInt16).Reads (putU16 n) n := by
  have h : beNat (putU16 n) = n.toNat := beNat_beBytes n.toNat_lt
  refine (reads_get_of_length (length_putU16 n)).bind_nil ?_
  rw [h, UInt16.ofNat_toNat]
  exact .pure _

lemma reads_getU64 (n : UInt64) : (getU64 : Parser ε UInt64).Reads (putU64 n) n := by
  have h : beNat (putU64 n) = n.toNat := beNat_beBytes n.toNat_lt
  refine (reads_get_of_length (length_putU64 n)).bind_nil ?_
  rw [h, UInt64.ofNat_toNat]
  exact .pure _

lemma getU8_of_le (h : 1 ≤ src.length) :
    (getU8 src : Outcome ε _) = .ok (UInt8.ofNat (beNat (src.take 1)), src.drop 1) := by
  rw [getU8, bind_apply, get_of_le h]
  rfl

lemma getU16_of_le (h : 2 ≤ src.length) :
    (getU16 src : Outcome ε _) = .ok (UInt16.ofNat (beNat (src.take 2)), src.drop 2) := by
  rw [getU16, bind_apply, get_of_le h]
  rfl

lemma getU32_of_le (h : 4 ≤ src.length) :
    (getU32 src : Outcome ε _) = .ok (UInt32.ofNat (beNat (src.take 4)), src.drop 4) := by
  rw [getU32, bind_apply, get_of_le h]
  rfl

lemma getU64_of_le (h : 8 ≤ src.length) :
    (getU64 src : Outcome ε _) = .ok (UInt64.ofNat (beNat (src.take 8)), src.drop 8) := by
  rw [getU64, bind_apply, get_of_le h]
  rfl

lemma getU64_eq_panic (h : src.length < 8) : (getU64 src : Outcome ε _) = .panic := by
  rw [getU64, bind_apply, get_eq_panic h]
  rfl

lemma putLength_eq_ok :
    (putLength k n : Outcome ε (List UInt8)) = .ok w ↔ n < 256 ^ k ∧ w = beBytes k n := by grind [putLength]

lemma reads_length16 (hn : n < 256 ^ 2) : (getU16 : Parser ε UInt16).Reads (beBytes 2 n) (UInt16.ofNat n) := by
  refine (reads_get_of_length (length_beBytes ..)).bind_nil ?_
  rw [beNat_beBytes hn]
  exact .pure _

lemma reads_length32 (hn : n < 256 ^ 4) : (getU32 : Parser ε UInt32).Reads (beBytes 4 n) (UInt32.ofNat n) := by
  refine (reads_get_of_length (length_beBytes ..)).bind_nil ?_
  rw [beNat_beBytes hn]
  exact .pure _

lemma flag_bit (b : Bool) : ((if b then 1 else 0 : UInt8) &&& 1 == 1) = b := by
  cases b <;> decide

lemma MessageFlags.fromBitsTruncate_bits (f : MessageFlags) : fromBitsTruncate f.bits = f := by
  obtain ⟨fin, start⟩ := f
  cases fin <;> cases start <;> decide

/-! ## Looking at the buffer -/

lemma peek_of_append (hu : u.length = i) (hv : v.length = k) :
    (peek i k (u ++ (v ++ r)) : Outcome ε Nat) = .ok (beNat v) := by grind [peek]

/-- Bytes that are there already are the same in every longer buffer. -/
lemma peek_append (h : i + k ≤ u.length) (r : List UInt8) :
    (peek i k (u ++ r) : Outcome ε Nat) = peek i k u := by grind [peek]

lemma peek_take (h : i + k ≤ j) (hj : j ≤ u.length) :
    (peek i k (u.take j) : Outcome ε Nat) = peek i k u := by grind [take_append_drop, peek_append]

lemma peek_eq_panic (h : u.length < i + k) : (peek i k u : Outcome ε Nat) = .panic := by
  rw [peek, if_neg (Nat.not_le.mpr h)]

/-! ## Framed messages -/

/-- The decoder `p` reads `a` from the body `w`. Given the first `k` bytes only, it
panics if `bad k`; otherwise it asks for more and leaves the buffer alone. -/
structure Framed {α : Type} (p : Parser Errors (Option α)) (w : List UInt8) (a : α) (bad : Nat → Bool) : Prop where
  full : p.Reads w (some a)
  cut : ∀ k < w.length, p (w.take k) = if bad k then .panic else .ok (none, w.take k)

lemma Framed.map {α β : Type} {p : Parser Errors (Option α)} {a : α} (h : Framed p w a bad)
    (f : α → β) : Framed (do return (← p).map f) w (f a) bad where
  full := h.full.bind_nil (.pure _)
  cut k hk := by
    rw [bind_apply, h.cut k hk]
    split <;> rfl

/-- Where a cut makes the decoder panic: `k` bytes of the body are there. -/
def Messages.badCut : Messages → Nat → Bool
  | .sessInit m, k => 24 ≤ k && k < 24 + (utf8 m.nodeId).length
  | .xferSegment m, k => 10 ≤ k && k < (if m.flags.start then 13 else 17)
  | .xferAck _, k => 9 ≤ k && k < 17
  | .xferRefuse _, k => 5 ≤ k && k < 9
  | _, _ => false

/-- The message is not one the decoder refuses: no critical extension, and no longer segment than it takes. -/
def Messages.Acceptable : Messages → Prop
  | .sessInit m => ∀ e ∈ m.sessionExtensions, e.critical = false
  | .xferSegment m => (m.flags.start = true → ∀ e ∈ m.transferExtensions, e.critical = false) ∧
      m.data.length ≤ maxSegmentMru
  | _ => True

instance (m : Messages) : Decidable m.Acceptable := by
  cases m <;> unfold Messages.Acceptable <;> infer_instance

/-- A message of fixed size whose guard asks for all of it. -/
lemma framed_of_guard {α : Type} {p q : Parser Errors (Option α)} {a : α}
    (hq : ∀ src, q src = if src.length < n then .ok (none, src) else p src) (hn : w.length = n)
    (hp : p.Reads w (some a)) : Framed q w a fun _ => false where
  full r := by
    have hlen : ¬(w ++ r).length < n := by rw [length_append]; omega
    rw [hq, if_neg hlen, hp r]
  cut k hk := by grind

lemma framed_sessTerm (m : SessTerm) : Framed SessTerm.decode m.encode m fun _ => false := by
  have hread : ∀ x : SessTerm.ReasonCode, SessTerm.ReasonCode.ofU8 x.toU8 = x := by intro x; cases x <;> rfl
  refine framed_of_guard (fun _ => rfl) (by simp [SessTerm.encode, length_putU8]) ?_
  refine (reads_getU8 _).bind ((reads_getU8 _).bind_nil ?_)
  rw [flag_bit, hread]
  exact .pure _

lemma framed_msgReject (m : MsgReject) : Framed MsgReject.decode m.encode m fun _ => false := by
  have hread : ∀ x : MsgReject.ReasonCode, MsgReject.ReasonCode.ofU8 x.toU8 = x := by intro x; cases x <;> rfl
  refine framed_of_guard (fun _ => rfl) (by simp [MsgReject.encode, length_putU8]) ?_
  refine (reads_getU8 _).bind ((reads_getU8 _).bind_nil ?_)
  rw [hread]
  exact .pure _

lemma framed_keepalive (m : Keepalive) : Framed Keepalive.decode m.encode m fun _ => false where
  full _ := rfl
  cut _ hk := absurd hk (Nat.not_lt_zero _)

lemma framed_contactHeader (m : ContactHeader) : Framed ContactHeader.decode m.encode m fun _ => false := by
  refine framed_of_guard (fun _ => rfl) (by simp [ContactHeader.encode, length_putU8, dtnMagicBytes]) ?_
  have hmagic : (Parser.get 4 : Parser Errors _).Reads dtnMagicBytes dtnMagicBytes := reads_get_of_length rfl
  refine hmagic.bind ?_
  rw [if_neg (by simp)]
  refine (reads_getU8 _).bind ((reads_getU8 _).bind_nil ?_)
  rw [flag_bit]
  exact .pure _

/-! ## Messages whose guard asks for less -/

lemma framed_xferAck (m : XferAck) : Framed XferAck.decode m.encode m (Messages.xferAck m).badCut where
  full r := by
    have hlen : ¬(m.encode ++ r).length < 9 := by grind [length_putU64, XferAck.encode]
    rw [XferAck.decode, if_neg hlen]
    refine (reads_getU8 _).bind ((reads_getU64 _).bind ((reads_getU64 _).bind_nil ?_)) r
    rw [MessageFlags.fromBitsTruncate_bits]
    exact .pure _
  cut k hk := by
    have hw : m.encode.length = 17 := by rfl
    have hlen : (m.encode.take k).length = k := by rw [length_take]; omega
    generalize m.encode.take k = src at hlen
    rw [XferAck.decode, hlen]
    by_cases h : k < 9
    · grind [Messages.badCut]
    · -- the flags and the transfer id are there, the length is not
      have hbad : (Messages.xferAck m).badCut k = true := by simp [Messages.badCut]; omega
      rw [if_neg h, hbad, bind_apply, getU8_of_le (by omega), ok_bind, bind_apply,
        getU64_of_le (by rw [length_drop]; omega), ok_bind, bind_apply,
        getU64_eq_panic (by simp only [length_drop]; omega)]
      rfl

lemma framed_xferRefuse (m : XferRefuse) : Framed XferRefuse.decode m.encode m (Messages.xferRefuse m).badCut where
  full r := by
    have hread : ∀ x : XferRefuse.ReasonCode, XferRefuse.ReasonCode.ofU8 x.toU8 = x := by intro x; cases x <;> rfl
    have hlen : ¬(m.encode ++ r).length < 5 := by grind [length_putU64, XferRefuse.encode]
    rw [XferRefuse.decode, if_neg hlen]
    refine (reads_getU8 _).bind ((reads_getU64 _).bind_nil ?_) r
    rw [hread]
    exact .pure _
  cut k hk := by
    have hw : m.encode.length = 9 := by rfl
    have hlen : (m.encode.take k).length = k := by rw [length_take]; omega
    generalize m.encode.take k = src at hlen
    rw [XferRefuse.decode, hlen]
    by_cases h : k < 5
    · grind [Messages.badCut]
    · have hbad : (Messages.xferRefuse m).badCut k = true := by simp [Messages.badCut]; omega
      rw [if_neg h, hbad, bind_apply, getU8_of_le (by omega), ok_bind, bind_apply,
        getU64_eq_panic (by rw [length_drop]; omega)]
      rfl

/-! ## Extension items -/

/-- The bytes of an item. -/
def itemBytes (flags : UInt8) (extensionType : UInt16) (value : List UInt8) : List UInt8 :=
  putU8 flags ++ (putU16 extensionType ++ (beBytes 2 value.length ++ value))

lemma length_itemBytes (flags : UInt8) (extensionType : UInt16) (value : List UInt8) :
    (itemBytes flags extensionType value).length = 5 + value.length := by
  simp only [itemBytes, length_append, length_putU8, length_putU16, length_beBytes]
  omega

/-- A kind of items, by its fields: what is made of the fields that are read, the error for a critical item, and
what an item becomes that is written and read again. -/
structure ItemKind (α : Type) where
  critical : α → Bool
  extensionType : α → UInt16
  value : α → List UInt8
  make : UInt8 → UInt16 → UInt16 → List UInt8 → α
  error : α → Errors
  decoded : α → α
  critical_make : ∀ flags t n v, critical (make flags t n v) = (flags &&& 1 == 1)
  make_fields : ∀ e, (value e).length < 256 ^ 2 →
    make (if critical e then 1 else 0) (extensionType e) (.ofNat (value e).length) (value e) = decoded e

namespace ItemKind

variable {α : Type} {K : ItemKind α} {e : α} {es : List α} {flags : UInt8} {t : UInt16} {v : List UInt8}

def write (K : ItemKind α) (e : α) : Outcome ε (List UInt8) := do
  let length ← putLength 2 (K.value e).length
  return putU8 (if K.critical e then 1 else 0) ++ (putU16 (K.extensionType e) ++ (length ++ K.value e))

def decode (K : ItemKind α) : Parser Errors α := do
  let flags ← getU8
  let extensionType ← getU16
  let valueLength ← getU16
  let value ← Parser.get valueLength.toNat
  return K.make flags extensionType valueLength value

def decodeNext (K : ItemKind α) : Parser Errors α := do
  let item ← K.decode
  if K.critical item then .fail (K.error item) else return item

lemma write_eq_ok (hx : (K.write e : Outcome ε _) = .ok x) :
    (K.value e).length < 256 ^ 2 ∧ x = itemBytes (if K.critical e then 1 else 0) (K.extensionType e) (K.value e) := by
  obtain ⟨_, hl, hx⟩ := Outcome.bind_eq_ok.mp hx
  obtain ⟨hlen, rfl⟩ := putLength_eq_ok.mp hl
  exact ⟨hlen, (Outcome.ok.inj hx).symm⟩

lemma write_ne_nil (hx : (K.write e : Outcome ε _) = .ok x) : x ≠ [] := by
  obtain ⟨-, rfl⟩ := write_eq_ok hx
  rw [← length_pos_iff, length_itemBytes]
  omega

lemma reads_decode (hlen : v.length < 256 ^ 2) :
    K.decode.Reads (itemBytes flags t v) (K.make flags t (.ofNat v.length) v) :=
  (reads_getU8 _).bind ((reads_getU16 _).bind ((reads_length16 hlen).bind
    ((reads_get_of_length (UInt16.toNat_ofNat_of_lt' hlen).symm).bind_nil (.pure _))))

lemma reads_decodeNext (hlen : v.length < 256 ^ 2) (hc : (flags &&& 1 == 1) = false) :
    K.decodeNext.Reads (itemBytes flags t v) (K.make flags t (.ofNat v.length) v) := by
  refine (reads_decode hlen).bind_nil ?_
  rw [K.critical_make, hc]
  exact .pure _

lemma decodeNext_eq_err (hlen : v.length < 256 ^ 2) (hc : (flags &&& 1 == 1) = true) (r : List UInt8) :
    K.decodeNext (itemBytes flags t v ++ r) = .err (K.error (K.make flags t (.ofNat v.length) v)) := by
  rw [decodeNext, bind_apply, reads_decode hlen, ok_bind, K.critical_make, hc]
  rfl

lemma reads_written (hx : (K.write e : Outcome ε _) = .ok x) (hc : K.critical e = false) :
    K.decodeNext.Reads x (K.decoded e) := by
  obtain ⟨hlen, rfl⟩ := write_eq_ok hx
  rw [← K.make_fields e hlen]
  exact reads_decodeNext hlen (by rw [flag_bit, hc])

/-- The loop over the items reads what was written. -/
lemma decodeAll_writeAll (hx : (Outcome.concat K.write es : Outcome Errors _) = .ok x)
    (hc : ∀ e ∈ es, K.critical e = false) (r : List UInt8) :
    untilLeft r.length K.decodeNext ((x ++ r).length + 1) (x ++ r) = .ok (es.map K.decoded, r) :=
  untilLeft_concat hx (fun e he x hx => ⟨write_ne_nil hx, reads_written hx (hc e he)⟩) r
    (by rw [length_append]; omega)

/-- It stops at a critical item. -/
lemma decodeAll_writeAll_err (hx : (Outcome.concat K.write es : Outcome Errors _) = .ok x)
    (hc : ∃ e ∈ es, K.critical e = true) (r : List UInt8) :
    ∃ e, untilLeft r.length K.decodeNext ((x ++ r).length + 1) (x ++ r) = .err e := by
  refine untilLeft_concat_err hx (fun _ _ => write_ne_nil) (fun _ _ hx h => ⟨_, reads_written hx h⟩)
    (fun e x hx h => ?_) hc r (by rw [length_append]; omega)
  obtain ⟨hlen, rfl⟩ := write_eq_ok hx
  exact ⟨_, decodeNext_eq_err hlen (by rw [flag_bit, h])⟩

end ItemKind

lemma SessionExtension.eta (e : SessionExtension) :
    ⟨(if e.critical then 1 else 0 : UInt8) &&& 1 == 1, e.extensionType, e.value⟩ = e := by
  rw [flag_bit]

def SessionExtension.kind : ItemKind SessionExtension where
  critical := critical
  extensionType := extensionType
  value := value
  make flags t _ v := ⟨flags &&& 1 == 1, t, v⟩
  error e := .unkownCriticalSessionExtension e.extensionType
  decoded := id
  critical_make _ _ _ _ := rfl
  make_fields e _ := eta e

/-- What `decode` makes of an extension: its value is preceded by as many zeros. -/
def TransferExtension.decoded (e : TransferExtension) : TransferExtension :=
  { e with value := List.replicate e.value.length 0 ++ e.value }

lemma TransferExtension.make_fields (e : TransferExtension) (hlen : e.value.length < 256 ^ 2) :
    ⟨(if e.critical then 1 else 0 : UInt8) &&& 1 == 1, e.extensionType,
      List.replicate (UInt16.ofNat e.value.length).toNat 0 ++ e.value⟩ = e.decoded := by
  rw [flag_bit, UInt16.toNat_ofNat_of_lt' hlen, decoded]

def TransferExtension.kind : ItemKind TransferExtension where
  critical := critical
  extensionType := extensionType
  value := value
  make flags t n v := ⟨flags &&& 1 == 1, t, List.replicate n.toNat 0 ++ v⟩
  error e := .unkownCriticalTransferExtension e.extensionType
  decoded := decoded
  critical_make _ _ _ _ := rfl
  make_fields := make_fields

/-! ## Session initialisation -/

namespace SessInit

/-- Where the fields of an encoded message stand. -/
lemma encode_eq_ok (hw : (m.encode : Outcome Errors _) = .ok w) :
    ∃ x, (utf8 m.nodeId).length < 256 ^ 2 ∧ (SessionExtension.writeAll m.sessionExtensions : Outcome Errors _) = .ok x ∧
    x.length < 256 ^ 4 ∧
      w = putU16 m.keepaliveInterval ++ (putU64 m.segmentMru ++ (putU64 m.transferMru ++
        (beBytes 2 (utf8 m.nodeId).length ++ (utf8 m.nodeId ++ (beBytes 4 x.length ++ x))))) := by
  obtain ⟨_, hl, hw⟩ := Outcome.bind_eq_ok.mp hw
  obtain ⟨x, hx, hw⟩ := Outcome.bind_eq_ok.mp hw
  obtain ⟨_, hk, hw⟩ := Outcome.bind_eq_ok.mp hw
  obtain ⟨hlen, rfl⟩ := putLength_eq_ok.mp hl
  obtain ⟨hxlen, rfl⟩ := putLength_eq_ok.mp hk
  exact ⟨x, hlen, hx, hxlen, (Outcome.ok.inj hw).symm⟩

variable {m : SessInit} {w x : List UInt8}

lemma layout (hlen : (utf8 m.nodeId).length < 256 ^ 2) (hxlen : x.length < 256 ^ 4)
    (hw : w = putU16 m.keepaliveInterval ++ (putU64 m.segmentMru ++ (putU64 m.transferMru ++
      (beBytes 2 (utf8 m.nodeId).length ++ (utf8 m.nodeId ++ (beBytes 4 x.length ++ x)))))) :
    w.length = 24 + (utf8 m.nodeId).length + x.length ∧ (peek 18 2 w : Outcome ε _) = .ok (utf8 m.nodeId).length ∧
      (peek (20 + (utf8 m.nodeId).length) 4 w : Outcome ε _) = .ok x.length := by
  refine ⟨?_, ?_, ?_⟩
  · grind [length_putU16, length_putU64, length_beBytes]
  · have hshape : w = (putU16 m.keepaliveInterval ++ (putU64 m.segmentMru ++ putU64 m.transferMru)) ++
        (beBytes 2 (utf8 m.nodeId).length ++ (utf8 m.nodeId ++ (beBytes 4 x.length ++ x))) := by
      rw [hw]; simp only [append_assoc]
    rw [hshape, peek_of_append (by simp only [length_append, length_putU16, length_putU64]) (length_beBytes ..),
      beNat_beBytes hlen]
  · have hshape : w = (putU16 m.keepaliveInterval ++ (putU64 m.segmentMru ++ (putU64 m.transferMru ++
        (beBytes 2 (utf8 m.nodeId).length ++ utf8 m.nodeId)))) ++ (beBytes 4 x.length ++ x) := by
      rw [hw]; simp only [append_assoc]
    rw [hshape, peek_of_append (by simp only [length_append, length_putU16, length_putU64, length_beBytes]; omega)
      (length_beBytes ..), beNat_beBytes hxlen]

/-- With the whole frame there, `decode` is `decodeFrame`. -/
lemma decode_append (hlen : w.length = 24 + n + e) (hn : (peek 18 2 w : Outcome Errors _) = .ok n)
    (he : (peek (20 + n) 4 w : Outcome Errors _) = .ok e) (r : List UInt8) :
    decode (w ++ r) = decodeFrame n e (w ++ r) := by grind [peek_append, decode]

/-- With a part of it there, `decode` looks for the second length behind the node id. -/
lemma decode_take (hlen : w.length = 24 + n + e) (hn : (peek 18 2 w : Outcome Errors _) = .ok n)
    (he : (peek (20 + n) 4 w : Outcome Errors _) = .ok e) (hk : k < w.length) :
    decode (w.take k) = if 24 ≤ k && k < 24 + n then .panic else .ok (none, w.take k) := by
  have hr : (w.take k).length = k := by rw [length_take]; omega
  by_cases h24 : k < 24
  · grind [decode]
  · rw [decode, if_neg (by omega), peek_take (by omega) (by omega), hn, ok_bind]
    by_cases hid : k < 24 + n
    · rw [peek_eq_panic (by omega), if_pos (by simp only [Bool.and_eq_true, decide_eq_true_eq]; omega)]
      rfl
    · grind [peek_take]

end SessInit

lemma framed_sessInit (hw : (m.encode : Outcome Errors _) = .ok w)
    (ha : (Messages.sessInit m).Acceptable) : Framed SessInit.decode w m (Messages.sessInit m).badCut := by
  obtain ⟨x, hlen, hx, hxlen, hw⟩ := SessInit.encode_eq_ok hw
  obtain ⟨hwlen, hn, he⟩ := SessInit.layout hlen hxlen hw
  refine ⟨fun r => ?_, fun k hk => SessInit.decode_take hwlen hn he hk⟩
  rw [SessInit.decode_append hwlen hn he, hw]
  refine (reads_getU16 _).bind ((reads_getU64 _).bind ((reads_getU64 _).bind
    ((reads_get_of_length (length_beBytes ..)).bind ((reads_get _).bind ?_)))) r
  rw [fromUtf8_utf8]
  refine (reads_get_of_length (length_beBytes ..)).bind (Parser.Reads.bind_nil (fun r => ?_) (.pure _))
  have htarget : (x ++ r).length - x.length = r.length := by rw [length_append]; omega
  have hread := SessionExtension.kind.decodeAll_writeAll hx ha r
  rw [htarget]
  exact hread.trans (by rw [SessionExtension.kind, map_id])

lemma sessInit_refused (hw : (m.encode : Outcome Errors _) = .ok w) (ha : ¬(Messages.sessInit m).Acceptable)
    (r : List UInt8) : ∃ e, SessInit.decode (w ++ r) = .err e := by
  obtain ⟨x, hlen, hx, hxlen, hw⟩ := SessInit.encode_eq_ok hw
  obtain ⟨hwlen, hn, he⟩ := SessInit.layout hlen hxlen hw
  have hcrit : ∃ e ∈ m.sessionExtensions, e.critical = true := by grind [Messages.Acceptable]
  obtain ⟨e, herr⟩ := SessionExtension.kind.decodeAll_writeAll_err hx hcrit r
  have htarget : (x ++ r).length - x.length = r.length := by rw [length_append]; omega
  refine ⟨e, ?_⟩
  rw [SessInit.decode_append hwlen hn he, hw]
  simp only [append_assoc]
  rw [SessInit.decodeFrame, (reads_getU16 _).bind_append, (reads_getU64 _).bind_append, (reads_getU64 _).bind_append,
    (reads_get_of_length (length_beBytes ..)).bind_append, (reads_get _).bind_append, fromUtf8_utf8]
  dsimp only
  rw [(reads_get_of_length (length_beBytes ..)).bind_append]
  refine Parser.bind_eq_err ?_ _
  rw [htarget]
  exact herr

/-! ## Transfer segments -/

namespace XferSegment

variable {m : XferSegment} {f : MessageFlags} {w ext : List UInt8} {s d k : Nat}

/-- What `decode` makes of a segment: only a first one has extensions. -/
def decoded (m : XferSegment) : XferSegment :=
  { m with transferExtensions := if m.flags.start then m.transferExtensions.map .decoded else [] }

lemma encode_eq_ok (hw : (m.encode : Outcome Errors _) = .ok w) :
    ∃ ext, (m.encodeExtensions : Outcome Errors _) = .ok ext ∧ m.data.length < 256 ^ 8 ∧
      w = putU8 m.flags.bits ++ (putU64 m.transferId ++ (ext ++ (beBytes 8 m.data.length ++ m.data))) := by
  obtain ⟨ext, hext, hw⟩ := Outcome.bind_eq_ok.mp hw
  obtain ⟨_, hl, hw⟩ := Outcome.bind_eq_ok.mp hw
  obtain ⟨hlen, rfl⟩ := putLength_eq_ok.mp hl
  exact ⟨ext, hext, hlen, (Outcome.ok.inj hw).symm⟩

/-- Of an encoded segment: its length, its flags and the length of its data. -/
lemma layout (hlen : m.data.length < 256 ^ 8)
    (hw : w = putU8 m.flags.bits ++ (putU64 m.transferId ++ (ext ++ (beBytes 8 m.data.length ++ m.data)))) :
    w.length = 17 + ext.length + m.data.length ∧
      (peek 0 1 w : Outcome Errors _) = .ok (beNat (putU8 m.flags.bits)) ∧
      (peek (9 + ext.length) 8 w : Outcome Errors _) = .ok m.data.length := by
  refine ⟨?_, ?_, ?_⟩
  · grind [length_putU8, length_putU64, length_beBytes]
  · rw [hw]
    exact peek_of_append (u := []) rfl (length_putU8 _)
  · grind [peek_of_append, length_beBytes, beNat_beBytes, putU8, putU64]

lemma flags_of_peek (f : MessageFlags) : MessageFlags.fromBitsTruncate (UInt8.ofNat (beNat (putU8 f.bits))) = f := by
  have h : beNat (putU8 f.bits) = f.bits.toNat := beNat_beBytes f.bits.toNat_lt
  rw [h, UInt8.ofNat_toNat, MessageFlags.fromBitsTruncate_bits]

section Sized

variable (hlen : w.length = s + d) (hd : (peek (s - 8) 8 w : Outcome Errors _) = .ok d) (hs : 8 ≤ s)
include hlen hd hs

lemma decodeSized_append (hmax : d ≤ maxSegmentMru) (r : List UInt8) :
    decodeSized f s (w ++ r) = decodeFrame f d (w ++ r) := by grind [peek_append, decodeSized]

lemma decodeSized_append_err (hmax : maxSegmentMru < d) (r : List UInt8) :
    decodeSized f s (w ++ r) = .err .segmentTooLong := by
  rw [decodeSized, peek_append (by omega), hd, ok_bind, if_pos hmax]

lemma decodeSized_take (hmax : d ≤ maxSegmentMru) (hk : k < w.length) :
    decodeSized f s (w.take k) = if k < s then .panic else .ok (none, w.take k) := by
  have hr : (w.take k).length = k := by rw [length_take]; omega
  rw [decodeSized]
  by_cases h : k < s
  · rw [peek_eq_panic (by omega), if_pos h]
    rfl
  · grind [peek_take]

end Sized

lemma encodeExtensions_eq_ok (hext : (m.encodeExtensions : Outcome Errors _) = .ok ext) :
    (m.flags.start = false ∧ ext = []) ∨ (m.flags.start = true ∧ ∃ x,
      (TransferExtension.writeAll m.transferExtensions : Outcome Errors _) = .ok x ∧ x.length < 256 ^ 4 ∧
      ext = beBytes 4 x.length ++ x) := by
  unfold encodeExtensions at hext
  split at hext
  · rename_i hstart
    obtain ⟨x, hx, hext⟩ := Outcome.bind_eq_ok.mp hext
    obtain ⟨_, hl, hext⟩ := Outcome.bind_eq_ok.mp hext
    obtain ⟨hxlen, rfl⟩ := putLength_eq_ok.mp hl
    exact .inr ⟨hstart, x, hx, hxlen, (Outcome.ok.inj hext).symm⟩
  · grind

/-- The extensions' length and the loop over them, given at least the length of the data behind. -/
lemma decodeExtensions_start (hf : f.start = true) (hxlen : x.length < 256 ^ 4)
    (hr : 8 ≤ r.length) : decodeExtensions f ((beBytes 4 x.length ++ x) ++ r) =
      TransferExtension.decodeAll r.length ((x ++ r).length + 1) (x ++ r) := by
  have hback : (UInt32.ofNat x.length).toNat = x.length := UInt32.toNat_ofNat_of_lt' hxlen
  have h12 : ¬((beBytes 4 x.length ++ x) ++ r).length < 12 := by
    simp only [length_append, length_beBytes]; omega
  have htarget : (x ++ r).length - x.length = r.length := by rw [length_append]; omega
  rw [decodeExtensions, if_pos hf, if_neg h12, append_assoc, (reads_length32 hxlen).bind_append, hback,
    decodeExtensionItems, if_neg (by rw [length_append]; omega), htarget]

lemma decodeExtensions_eq_ok (hext : (m.encodeExtensions : Outcome Errors _) = .ok ext)
    (ha : m.flags.start = true → ∀ e ∈ m.transferExtensions, e.critical = false) (hr : 8 ≤ r.length) :
    decodeExtensions m.flags (ext ++ r) = .ok (m.decoded.transferExtensions, r) := by
  rcases encodeExtensions_eq_ok hext with ⟨hs, rfl⟩ | ⟨hs, _, hx, hxlen, rfl⟩
  · rw [decodeExtensions, decoded, hs]
    rfl
  · rw [decodeExtensions_start hs hxlen hr, decoded, if_pos hs]
    exact TransferExtension.kind.decodeAll_writeAll hx (ha hs) r

lemma decodeExtensions_eq_err (hext : (m.encodeExtensions : Outcome Errors _) = .ok ext) (hs : m.flags.start = true)
    (hc : ∃ e ∈ m.transferExtensions, e.critical = true) (hr : 8 ≤ r.length) :
    ∃ e, decodeExtensions m.flags (ext ++ r) = .err e := by
  rcases encodeExtensions_eq_ok hext with ⟨hs', -⟩ | ⟨-, _, hx, hxlen, rfl⟩
  · rw [hs] at hs'
    cases hs'
  · rw [decodeExtensions_start hs hxlen hr]
    exact TransferExtension.kind.decodeAll_writeAll_err hx hc r

lemma peek_extensions (hxlen : x.length < 256 ^ 4)
    (hw : w = putU8 m.flags.bits ++ (putU64 m.transferId ++ ((beBytes 4 x.length ++ x) ++
      (beBytes 8 m.data.length ++ m.data)))) : (peek 9 4 w : Outcome Errors _) = .ok x.length := by
  have hshape : w = (putU8 m.flags.bits ++ putU64 m.transferId) ++ (beBytes 4 x.length ++
      (x ++ (beBytes 8 m.data.length ++ m.data))) := by
    rw [hw]; simp only [append_assoc]
  rw [hshape, peek_of_append (by simp only [length_append, length_putU8, length_putU64]) (length_beBytes ..),
    beNat_beBytes hxlen]

/-- The size of the frame without its data, as `decode` works it out. -/
lemma decode_append (hext : (m.encodeExtensions : Outcome Errors _) = .ok ext) (hlen : m.data.length < 256 ^ 8)
    (hw : w = putU8 m.flags.bits ++ (putU64 m.transferId ++ (ext ++ (beBytes 8 m.data.length ++ m.data))))
    (r : List UInt8) : decode (w ++ r) = decodeSized m.flags (17 + ext.length) (w ++ r) := by
  obtain ⟨_, hflags, -⟩ := layout hlen hw
  have hr : (w ++ r).length = w.length + r.length := length_append
  rw [decode, if_neg (by omega), peek_append (by omega), hflags, ok_bind]
  dsimp only
  rw [flags_of_peek]
  rcases encodeExtensions_eq_ok hext with ⟨hs, rfl⟩ | ⟨hs, x, -, hxlen, rfl⟩
  · rw [hs]
    rfl
  · have hxl : (beBytes 4 x.length ++ x).length = 4 + x.length := by rw [length_append, length_beBytes]
    rw [if_pos hs, peek_append (by omega), peek_extensions hxlen hw, ok_bind, if_neg (by omega), hxl]
    congr 1
    omega

/-- A part of the frame: the read of a length that is not there yet panics. -/
lemma decode_take (hext : (m.encodeExtensions : Outcome Errors _) = .ok ext) (hlen : m.data.length < 256 ^ 8)
    (hw : w = putU8 m.flags.bits ++ (putU64 m.transferId ++ (ext ++ (beBytes 8 m.data.length ++ m.data))))
    (hmax : m.data.length ≤ maxSegmentMru) (hk : k < w.length) :
    decode (w.take k) = if (Messages.xferSegment m).badCut k then .panic else .ok (none, w.take k) := by
  obtain ⟨hwlen, hflags, hdata⟩ := layout hlen hw
  have hr : (w.take k).length = k := by rw [length_take]; omega
  by_cases h10 : k < 10
  · grind [Messages.badCut, decode]
  rw [decode, if_neg (by omega), peek_take (by omega) (by omega), hflags, ok_bind]
  rw [flags_of_peek]
  rcases encodeExtensions_eq_ok hext with ⟨hs, rfl⟩ | ⟨hs, x, -, hxlen, rfl⟩
  · have hbad : (Messages.xferSegment m).badCut k = decide (k < 17) := by simp [Messages.badCut, hs]; omega
    rw [if_neg (by rw [hs]; exact Bool.false_ne_true), hbad,
      decodeSized_take (d := m.data.length) (by rw [hwlen, length_nil]) hdata (by omega) hmax hk]
    simp only [decide_eq_true_eq]
  · have hxl : (beBytes 4 x.length ++ x).length = 4 + x.length := by rw [length_append, length_beBytes]
    have hbad : (Messages.xferSegment m).badCut k = decide (k < 13) := by simp [Messages.badCut, hs]; omega
    rw [if_pos hs, hbad]
    by_cases h13 : k < 13
    · rw [peek_eq_panic (by omega), decide_eq_true h13]
      rfl
    · rw [peek_take (by omega) (by omega), peek_extensions hxlen hw, ok_bind,
        decide_eq_false h13]
      by_cases hx : k < 21 + x.length
      · rw [if_pos (by omega)]
        rfl
      · grind [decodeSized_take]

end XferSegment

lemma framed_xferSegment {m : XferSegment} (hw : (m.encode : Outcome Errors _) = .ok w)
    (ha : (Messages.xferSegment m).Acceptable) :
    Framed XferSegment.decode w m.decoded (Messages.xferSegment m).badCut := by
  obtain ⟨ext, hext, hlen, hw⟩ := XferSegment.encode_eq_ok hw
  obtain ⟨hcrit, hmax⟩ := ha
  refine ⟨fun r => ?_, fun k hk => XferSegment.decode_take hext hlen hw hmax hk⟩
  obtain ⟨hwlen, -, hdata⟩ := XferSegment.layout hlen hw
  have hat : 17 + ext.length - 8 = 9 + ext.length := by omega
  have hr : 8 ≤ (beBytes 8 m.data.length ++ (m.data ++ r)).length := by
    rw [length_append, length_beBytes]; omega
  rw [XferSegment.decode_append hext hlen hw, XferSegment.decodeSized_append hwlen (by rw [hat]; exact hdata)
    (by omega) hmax, hw]
  simp only [append_assoc]
  rw [XferSegment.decodeFrame, (reads_get_of_length (length_putU8 _)).bind_append, (reads_getU64 _).bind_append,
    bind_apply, XferSegment.decodeExtensions_eq_ok hext hcrit hr, ok_bind,
    (reads_get_of_length (length_beBytes ..)).bind_append, (reads_get _).bind_append]
  rfl

lemma xferSegment_refused {m : XferSegment} (hw : (m.encode : Outcome Errors _) = .ok w)
    (ha : ¬(Messages.xferSegment m).Acceptable) (r : List UInt8) : ∃ e, XferSegment.decode (w ++ r) = .err e := by
  obtain ⟨ext, hext, hlen, hw⟩ := XferSegment.encode_eq_ok hw
  obtain ⟨hwlen, -, hdata⟩ := XferSegment.layout hlen hw
  have hat : 17 + ext.length - 8 = 9 + ext.length := by omega
  rw [XferSegment.decode_append hext hlen hw]
  by_cases hmax : m.data.length ≤ maxSegmentMru
  · have hcrit : m.flags.start = true ∧ ∃ e ∈ m.transferExtensions, e.critical = true := by grind [Messages.Acceptable]
    have hr : 8 ≤ (beBytes 8 m.data.length ++ (m.data ++ r)).length := by
      rw [length_append, length_beBytes]; omega
    obtain ⟨e, he⟩ := XferSegment.decodeExtensions_eq_err hext hcrit.1 hcrit.2 hr
    refine ⟨e, ?_⟩
    rw [XferSegment.decodeSized_append hwlen (by rw [hat]; exact hdata) (by omega) hmax, hw]
    simp only [append_assoc]
    rw [XferSegment.decodeFrame, (reads_get_of_length (length_putU8 _)).bind_append,
      (reads_getU64 _).bind_append]
    exact Parser.bind_eq_err he _
  · exact ⟨_, XferSegment.decodeSized_append_err hwlen (by rw [hat]; exact hdata) (by omega) (by omega) r⟩

/-! ## Every message -/

/-- What the receiver gets: only transfer extensions change. -/
def Messages.decoded : Messages → Messages
  | .xferSegment m => .xferSegment m.decoded
  | m => m

lemma eq_cons_of_ok {n : UInt8} {b : List UInt8} (h : (.ok (putU8 n ++ b) : Outcome Errors _) = .ok w) :
    w = n :: b := by
  simpa [putU8, beBytes] using (Outcome.ok.inj h).symm

/-- A message is its type and a framed body. -/
lemma framed_message {m : Messages} {t : MessageType} (ht : (m.getMessageType : Outcome Errors _) = .ok t)
    (hw : (Codec.encode m : Outcome Errors _) = .ok w)
    (ha : m.Acceptable) : ∃ b, w = t.toU8 :: b ∧ Framed (Codec.decodeMessage t) b m.decoded m.badCut := by
  cases m with
  | contactHeader => cases ht
  | sessInit =>
    cases ht
    obtain ⟨b, hb, hw⟩ := Outcome.bind_eq_ok.mp hw
    exact ⟨b, eq_cons_of_ok hw, (framed_sessInit hb ha).map _⟩
  | xferSegment =>
    cases ht
    obtain ⟨b, hb, hw⟩ := Outcome.bind_eq_ok.mp hw
    exact ⟨b, eq_cons_of_ok hw, (framed_xferSegment hb ha).map _⟩
  | sessTerm m =>
    cases ht
    exact ⟨m.encode, eq_cons_of_ok hw, (framed_sessTerm m).map _⟩
  | keepalive m =>
    cases ht
    exact ⟨m.encode, eq_cons_of_ok hw, (framed_keepalive m).map _⟩
  | msgReject m =>
    cases ht
    exact ⟨m.encode, eq_cons_of_ok hw, (framed_msgReject m).map _⟩
  | xferAck m =>
    cases ht
    exact ⟨m.encode, eq_cons_of_ok hw, (framed_xferAck m).map _⟩
  | xferRefuse m =>
    cases ht
    exact ⟨m.encode, eq_cons_of_ok hw, (framed_xferRefuse m).map _⟩

/-- The decoder turns a message away that is not acceptable, once it is there. -/
lemma message_refused {m : Messages} {t : MessageType} (ht : (m.getMessageType : Outcome Errors _) = .ok t)
    (hw : (Codec.encode m : Outcome Errors _) = .ok w)
    (ha : ¬m.Acceptable) : ∃ b, w = t.toU8 :: b ∧ ∀ r, ∃ e, Codec.decodeMessage t (b ++ r) = .err e := by
  cases m with
  | sessInit =>
    cases ht
    obtain ⟨b, hb, hw⟩ := Outcome.bind_eq_ok.mp hw
    refine ⟨b, eq_cons_of_ok hw, fun r => ?_⟩
    obtain ⟨e, he⟩ := sessInit_refused hb ha r
    exact ⟨e, Parser.bind_eq_err he _⟩
  | xferSegment =>
    cases ht
    obtain ⟨b, hb, hw⟩ := Outcome.bind_eq_ok.mp hw
    refine ⟨b, eq_cons_of_ok hw, fun r => ?_⟩
    obtain ⟨e, he⟩ := xferSegment_refused hb ha r
    exact ⟨e, Parser.bind_eq_err he _⟩
  | contactHeader | sessTerm | keepalive | msgReject | xferAck | xferRefuse => exact absurd trivial ha

end Dtn.Tcpcl
