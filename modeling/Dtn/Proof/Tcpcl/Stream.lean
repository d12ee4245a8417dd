import Dtn.Proof.Tcpcl.Codec

/-!
# Messages as a stream of bytes

A `Plain` message arrives as it was sent, and a `Bare` one, without extension
items and with lengths that fit, is plain. A stream of a contact header and of
bare messages is decoded into exactly these (`drain_encodeStream`). `Synced`
relates a codec in the middle of a stream to the messages on their way: the
bytes in its buffer and in the channel are what is left of them, so the codec
gives the first of them or waits for more (`Synced.decode`).
-/

namespace Dtn.Tcpcl

open List Outcome Codec

/-! ## Messages that arrive as they were sent -/

/-- A message that arrives as it was sent. -/
structure Messages.Plain (m : Messages) : Prop where
  type : ∃ t, (m.getMessageType : Outcome Errors _) = .ok t
  acceptable : m.Acceptable
  decoded : m.decoded = m
  encoded : ∃ w, ∀ {ε : Type}, (encode m : Outcome ε _) = .ok w

/-- A message behind the contact header that has no extension items, and lengths that fit. -/
def Messages.Bare : Messages → Prop
  | .contactHeader _ => False
  | .sessInit m => (utf8 m.nodeId).length ≤ 65535 ∧ m.sessionExtensions = []
  | .xferSegment m => m.data.length ≤ maxSegmentMru ∧ m.transferExtensions = []
  | _ => True

instance : (m : Messages) → Decidable m.Bare
  | .contactHeader _ => inferInstanceAs (Decidable False)
  | .sessInit _ | .xferSegment _ => inferInstanceAs (Decidable (_ ∧ _))
  | .sessTerm _ | .keepalive _ | .msgReject _ | .xferAck _ | .xferRefuse _ => inferInstanceAs (Decidable True)

lemma plain_sessInit (hlen : (utf8 m.nodeId).length ≤ 65535) (hext : m.sessionExtensions = []) :
    (Messages.sessInit m).Plain where
  type := ⟨_, rfl⟩
  acceptable := fun e he => by
    rw [hext] at he
    cases he
  decoded := rfl
  encoded := by
    have hid : (utf8 m.nodeId).length < 256 ^ 2 := Nat.lt_of_le_of_lt hlen (by decide)
    refine ⟨putU8 MessageType.sessInit.toU8 ++ (putU16 m.keepaliveInterval ++ (putU64 m.segmentMru ++
      (putU64 m.transferMru ++ (beBytes 2 (utf8 m.nodeId).length ++ (utf8 m.nodeId ++ (beBytes 4 0 ++ [])))))),
        fun {ε} => ?_⟩
    rw [encode, SessInit.encode, putLength, if_pos hid, hext]
    rfl

lemma plain_segment (fl : MessageFlags) (id : UInt64) (h : data.length ≤ maxSegmentMru) :
    (Messages.xferSegment (.new fl id data)).Plain where
  type := ⟨_, rfl⟩
  acceptable := ⟨fun _ => nofun, h⟩
  decoded := by
    obtain ⟨fin, start⟩ := fl
    cases start <;> rfl
  encoded := by
    have hdata : data.length < 256 ^ 8 := h.trans_lt (by decide)
    obtain ⟨fin, start⟩ := fl
    refine ⟨putU8 MessageType.xferSegment.toU8 ++ (putU8 (⟨fin, start⟩ : MessageFlags).bits ++ (putU64 id ++
      ((if start then beBytes 4 0 else []) ++ (beBytes 8 data.length ++ data)))), fun {ε} => ?_⟩
    rw [encode, XferSegment.encode, XferSegment.encodeExtensions, XferSegment.new, putLength, if_pos hdata]
    cases start <;> rfl

lemma Messages.Bare.plain {m : Messages} (h : m.Bare) : m.Plain := by
  cases m with
  | contactHeader => exact h.elim
  | sessInit => exact plain_sessInit h.1 h.2
  | xferSegment m =>
    obtain ⟨flags, id, _, _⟩ := m
    obtain ⟨hlen, rfl⟩ := h
    exact plain_segment flags id hlen
  | sessTerm | keepalive | msgReject | xferAck | xferRefuse =>
    exact ⟨⟨_, rfl⟩, trivial, rfl, ⟨_, rfl⟩⟩

lemma concat_encode_eq_ok (h : ∀ m ∈ ms, m.Plain) :
    ∃ w, ∀ {ε : Type}, (Outcome.concat encode ms : Outcome ε _) = .ok w := by
  induction ms with
  | nil => exact ⟨[], rfl⟩
  | cons m _ ih =>
    obtain ⟨x, hx⟩ := (h m mem_cons_self).encoded
    obtain ⟨v, hv⟩ := ih fun m hm => h m (mem_cons_of_mem _ hm)
    exact ⟨x ++ v, concat_cons_eq_ok.mpr ⟨x, v, hx, hv, rfl⟩⟩

namespace Codec

lemma drain_items (is : List Item) :
    drain (is.length + 1) ⟨true, none⟩ (is.flatMap Item.bytes) = .ok (is.map Item.message, ⟨true, none⟩, []) := by
  induction is with
  | nil => rfl
  | cons i _ ih =>
    rw [flatMap_cons, length_cons, drain_item i (.fresh _), ih]
    rfl

/-- What the encoder makes of a contact header and of messages without extension items, the
decoder turns back into these, call by call, and then it waits for the next message. -/
theorem drain_encodeStream (h : ContactHeader) {ms : List Messages} (hms : ∀ m ∈ ms, m.Bare) :
    ∃ stream, encodeStream h ms = .ok stream ∧
      drain (ms.length + 2) default stream = .ok (.contactHeader h :: ms, ⟨true, none⟩, []) := by
  have hplain : ∀ m ∈ ms, m.Plain := fun m hm => (hms m hm).plain
  obtain ⟨w, hw⟩ := concat_encode_eq_ok hplain
  obtain ⟨is, rfl, hmap, -⟩ := exists_items (fun m hm => (hplain m hm).type) hw fun m hm => (hplain m hm).acceptable
  have hdecoded : ms.map Messages.decoded = ms :=
    (map_congr_left fun m hm => (hplain m hm).decoded).trans (map_id ms)
  rw [hdecoded] at hmap
  refine ⟨h.encode ++ is.flatMap Item.bytes, by rw [encodeStream, hw]; rfl, ?_⟩
  rw [drain, decode_header, ok_bind]
  dsimp only
  rw [← hmap, length_map, drain_items]
  rfl

/-- One message of each kind. -/
def allMessages : List Messages :=
  [.sessInit ⟨60, 1000, 2000, "dtn://n", []⟩, .sessTerm ⟨true, .busy⟩, .keepalive ⟨⟩,
    .msgReject ⟨.messageUnexpected, 9⟩,
    .xferSegment ⟨⟨false, true⟩, 3, [], [1, 2]⟩, .xferSegment ⟨⟨true, false⟩, 3, [], [3]⟩,
      .xferAck ⟨⟨true, false⟩, 3, 3⟩,
    .xferRefuse ⟨.retransmit, 4⟩]

theorem drain_allMessages : (∀ m ∈ allMessages, m.Bare) ∧ ∃ stream, encodeStream ⟨4, true⟩ allMessages = .ok stream ∧
    drain 10 default stream = .ok (.contactHeader ⟨4, true⟩ :: allMessages, ⟨true, none⟩, []) :=
  have hbare : ∀ m ∈ allMessages, m.Bare := by decide
  ⟨hbare, drain_encodeStream ⟨4, true⟩ hbare⟩

end Codec

/-! ## The bytes of the messages on their way -/

/-- The buffer of the codec `c` and the channel hold the bytes of `inbox`, and the buffer does not end in a bad cut. -/
def Synced (c : Codec) (buf channel : List UInt8) (inbox : List Messages) : Prop :=
  ∃ v, Codec.At c buf v ∧ (Outcome.concat encode inbox : Outcome Errors _) = .ok (v ++ channel) ∧
    badCutAt Messages.encodedLength Messages.badAt inbox v.length = false

lemma Codec.At.length_eq (h : At c buf v) : v.length = buf.length + if c.currMessageType.isSome then 1 else 0 := by
  cases h <;> rfl

lemma Codec.At.done (h : At c buf v) : c.contactHeaderDone = true := by
  cases h <;> rfl

lemma length_concat_encode (h : (Outcome.concat encode ms : Outcome Errors _) = .ok w) : w.length =
    (ms.map Messages.encodedLength).sum := by
  induction ms generalizing w with
  | nil => rw [concat_nil_eq_ok.mp h]; rfl
  | cons => grind [concat_cons_eq_ok, Messages.encodedLength]

lemma badAt_zero (m : Messages) : m.badAt 0 = false := rfl

namespace Synced

variable {c : Codec} {buf channel : List UInt8} {inbox : List Messages}

lemma fill (h : Synced c buf channel inbox) (hcut : badCutAt Messages.encodedLength Messages.badAt inbox
      (buf.length + (if c.currMessageType.isSome then 1 else 0) + n) = false) (hn : n ≤ channel.length) :
    Synced c (buf ++ channel.take n) (channel.drop n) inbox := by
  obtain ⟨v, hat, hw, -⟩ := h
  refine ⟨v ++ channel.take n, hat.append _, ?_, ?_⟩
  · rw [append_assoc, take_append_drop]
    exact hw
  · rw [length_append, length_take, Nat.min_eq_left hn, hat.length_eq]
    exact hcut

lemma push (h : Synced c buf channel inbox)
    (hw : (Outcome.concat encode ms : Outcome Errors _) = .ok w) : Synced c buf (channel ++ w) (inbox ++ ms) := by
  obtain ⟨v, hat, hv, hcut⟩ := h
  refine ⟨v, hat, concat_append_eq_ok.mpr ⟨_, _, hv, hw, (append_assoc ..).symm⟩, ?_⟩
  rw [badCutAt_append badAt_zero]
  · exact hcut
  · rw [← length_concat_encode hv, length_append]
    omega

lemma done (h : Synced c buf channel inbox) : c.contactHeaderDone = true := by
  obtain ⟨_, hat, -⟩ := h
  exact hat.done

/-- The codec gives the first message on its way, or nothing while that is incomplete. -/
lemma decode (h : Synced c buf channel inbox) (hp : ∀ m ∈ inbox, m.Plain) :
    (∃ c' buf', c.decode buf = .ok (none, c', buf') ∧ Synced c' buf' channel inbox) ∨
      ∃ m ms buf', inbox = m :: ms ∧ c.decode buf = .ok (some m, ⟨true, none⟩, buf') ∧
        Synced ⟨true, none⟩ buf' channel ms := by
  obtain ⟨v, hat, hw, hcut⟩ := h
  cases inbox with
  | nil =>
    obtain ⟨rfl, rfl⟩ := append_eq_nil_iff.mp (concat_nil_eq_ok.mp hw)
    exact .inl ⟨_, _, decode_nil hat, [], .fresh _, rfl, rfl⟩
  | cons m ms =>
    obtain ⟨x, _, hx, hu, hsplit⟩ := concat_cons_eq_ok.mp hw
    have hplain := hp m mem_cons_self
    obtain ⟨t, ht⟩ := hplain.type
    have hlen : m.encodedLength = x.length := by rw [Messages.encodedLength, hx]
    obtain ⟨b, rfl, hb⟩ := framed_message ht hx hplain.acceptable
    let i : Item := ⟨t, b, m.decoded, m.badCut, hb⟩
    rw [badCutAt, hlen] at hcut
    by_cases hlt : v.length < (t.toU8 :: b).length
    · -- the buffer ends inside the message
      rw [if_pos hlt] at hcut
      have hv : v = i.bytes.take v.length :=
        prefix_iff_eq_take.mp (prefix_of_prefix_length_le (prefix_append v channel) ⟨_, hsplit.symm⟩ (Nat.le_of_lt hlt))
      rw [hv] at hat
      rcases decode_cut hat hlt with ⟨hbad, -⟩ | ⟨-, c', buf', hd, hat'⟩
      · cases hcut.symm.trans hbad
      · rw [← hv] at hat'
        exact .inl ⟨c', buf', hd, v, hat', hw, by rw [badCutAt, hlen, if_pos hlt]; exact hcut⟩
    · rw [if_neg hlt] at hcut
      obtain ⟨r, rfl⟩ : i.bytes <+: v :=
        prefix_of_prefix_length_le ⟨_, hsplit.symm⟩ (prefix_append v channel) (Nat.not_lt.mp hlt)
      have hd := decode_item i hat
      rw [show i.message = m from hplain.decoded] at hd
      refine .inr ⟨m, ms, r, rfl, hd, r, .fresh r, ?_, ?_⟩
      · rw [hu, ← append_cancel_left ((append_assoc ..).symm.trans hsplit)]
      · rwa [length_append, show i.bytes.length = (t.toU8 :: b).length from rfl, Nat.add_sub_cancel_left] at hcut

end Synced

end Dtn.Tcpcl
