import Dtn.Proof.Tcpcl.Framing

/-!
# Extension items

A message with extension items comes back from its encoding if nothing is added
to their values: the items of a session do, but those of a transfer come back
with as many zeros in front of the value as it has bytes (`roundTrips_iff`).

The loop over the items looks only at how much of the buffer is left, so an item
that is longer than its list is read from what follows. `contained` goes through
a list of items as its own lengths say; `ItemParser.loop_contained` and
`ItemParser.loop_spills` say what the loop makes of a list that is made of items
and of one that is not, and `staysInside_iff` what becomes of the message.
-/

namespace Dtn.Tcpcl

open List Outcome Dtn.Parser Nat

variable {ε : Type}
variable {bs : List UInt8}

/-! ## Messages that come back -/

/-- The message is encoded, and of this encoding the decoder takes all and gives the message. -/
def SessInit.RoundTrips (m : SessInit) : Prop :=
  ∃ w, (m.encode : Outcome Errors _) = .ok w ∧ SessInit.decode.Reads w (some m)

def XferSegment.RoundTrips (m : XferSegment) : Prop :=
  ∃ w, (m.encode : Outcome Errors _) = .ok w ∧ XferSegment.decode.Reads w (some m)

/-- The size of items whose values have these lengths. -/
def itemsLength (lengths : List Nat) : Nat := (lengths.map (5 + ·)).sum

lemma putLength_of_lt (h : n < 256 ^ k) : (putLength k n : Outcome ε _) = .ok (beBytes k n) := if_pos h

lemma ItemKind.writeAll_of_le {α : Type} {K : ItemKind α} {es : List α} (h : ∀ e ∈ es, (K.value e).length ≤ 65535) :
    ∃ x, (concat K.write es : Outcome ε _) = .ok x ∧ x.length = itemsLength (es.map fun e => (K.value e).length) := by
  refine ⟨_, concat_of_ok (g := fun e =>
    itemBytes (if K.critical e then 1 else 0) (K.extensionType e) (K.value e)) fun e he => ?_, ?_⟩
  · have hlen : (K.value e).length < 256 ^ 2 := (h e he).trans_lt (by decide)
    rw [write, putLength_of_lt hlen]
    rfl
  · simp only [length_flatMap, length_itemBytes, itemsLength, map_map]
    rfl

lemma SessInit.encode_of_le {m : SessInit} (hid : (utf8 m.nodeId).length ≤ 65535)
    (hvalues : ∀ e ∈ m.sessionExtensions, e.value.length ≤ 65535)
    (htotal : itemsLength (m.sessionExtensions.map (·.value.length)) < 2 ^ 32) :
    ∃ w, (m.encode : Outcome Errors _) = .ok w := by
  obtain ⟨x, hx, hlen⟩ := SessionExtension.kind.writeAll_of_le (ε := Errors) hvalues
  have hx : (SessionExtension.writeAll m.sessionExtensions : Outcome Errors _) = .ok x := hx
  rw [encode, putLength_of_lt (show (utf8 m.nodeId).length < 256 ^ 2 by omega), ok_bind, hx, ok_bind,
    putLength_of_lt (show x.length < 256 ^ 4 from hlen ▸ htotal)]
  exact ⟨_, rfl⟩

lemma XferSegment.encode_of_le {m : XferSegment} (hdata : m.data.length ≤ maxSegmentMru)
    (hvalues : ∀ e ∈ m.transferExtensions, e.value.length ≤ 65535)
    (htotal : itemsLength (m.transferExtensions.map (·.value.length)) < 2 ^ 32) :
    ∃ w, (m.encode : Outcome Errors _) = .ok w := by
  obtain ⟨x, hx, hlen⟩ := TransferExtension.kind.writeAll_of_le (ε := Errors) hvalues
  have hx : (TransferExtension.writeAll m.transferExtensions : Outcome Errors _) = .ok x := hx
  have hext : ∃ ext, (m.encodeExtensions : Outcome Errors _) = .ok ext := by
    rw [encodeExtensions]
    split
    · rw [hx, ok_bind, putLength_of_lt (show x.length < 256 ^ 4 from hlen ▸ htotal)]
      exact ⟨_, rfl⟩
    · exact ⟨_, rfl⟩
  obtain ⟨_, hext⟩ := hext
  have hlen : m.data.length < 256 ^ 8 := hdata.trans_lt (by decide)
  rw [encode, hext, ok_bind, putLength_of_lt hlen]
  exact ⟨_, rfl⟩

/-- Only empty values come back without zeros in front of them. -/
lemma TransferExtension.decoded_eq_iff {e : TransferExtension} : e.decoded = e ↔ e.value = [] := by
  constructor
  · grind [length_eq_zero_iff, decoded]
  · intro h
    obtain ⟨_, _, _⟩ := e
    subst h
    rfl

lemma XferSegment.decoded_eq_iff {m : XferSegment} (hs : m.flags.start = true) :
    m.decoded = m ↔ ∀ e ∈ m.transferExtensions, e.value = [] := by
  obtain ⟨flags, _, es, _⟩ := m
  replace hs : flags.start = true := hs
  have hes : es.map TransferExtension.decoded = es ↔ ∀ e ∈ es, e.value = [] := by
    conv_lhs => rhs; rw [← map_id es]
    rw [map_inj_left]
    exact forall₂_congr fun e _ => TransferExtension.decoded_eq_iff
  simp only [decoded, hs, if_true, XferSegment.mk.injEq, true_and, and_true]
  exact hes

/-- A SESS_INIT with items comes back if its node id fits into its length field, and a first segment with
items if it is not too long and all items are empty. -/
theorem roundTrips_iff (i : SessInit) (m : XferSegment) :
    ((∀ e ∈ i.sessionExtensions, e.critical = false ∧ e.value.length ≤ 65535) →
      itemsLength (i.sessionExtensions.map (·.value.length)) < 2 ^ 32 →
      (i.RoundTrips ↔ (utf8 i.nodeId).length ≤ 65535)) ∧
    (m.flags.start = true →
      (∀ e ∈ m.transferExtensions, e.critical = false ∧ e.value.length ≤ 65535) →
      itemsLength (m.transferExtensions.map (·.value.length)) < 2 ^ 32 →
      (m.RoundTrips ↔ m.data.length ≤ maxSegmentMru ∧ ∀ e ∈ m.transferExtensions, e.value = [])) := by
  constructor
  · intro hes htotal
    constructor
    · rintro ⟨w, hw, -⟩
      obtain ⟨x, hid, -⟩ := SessInit.encode_eq_ok hw
      omega
    · intro hid
      obtain ⟨w, hw⟩ := SessInit.encode_of_le hid (fun e he => (hes e he).2) htotal
      exact ⟨w, hw, (framed_sessInit hw fun e he => (hes e he).1).full⟩
  · intro hs hes htotal
    constructor
    · rintro ⟨w, hw, hread⟩
      have hmax : m.data.length ≤ maxSegmentMru := Decidable.byContradiction fun h => by
        obtain ⟨e, he⟩ := xferSegment_refused hw (fun ha => h ha.2) []
        cases he.symm.trans (hread [])
      have hfull := (framed_xferSegment hw ⟨fun _ e he => (hes e he).1, hmax⟩).full []
      have heq : m.decoded = m := by
        have := hfull.symm.trans (hread [])
        simpa using this
      exact ⟨hmax, (XferSegment.decoded_eq_iff hs).mp heq⟩
    · rintro ⟨hmax, hempty⟩
      obtain ⟨w, hw⟩ := XferSegment.encode_of_le hmax (fun e he => (hes e he).2) htotal
      have hfull := (framed_xferSegment hw ⟨fun _ e he => (hes e he).1, hmax⟩).full
      rw [(XferSegment.decoded_eq_iff hs).mpr hempty] at hfull
      exact ⟨w, hw, hfull⟩

/-- A session with two items, and a segment with an empty one. -/
theorem roundTrips_iff_items :
    (⟨60, 1000, 2000, "dtn://n", [⟨false, 7, [1, 2, 3]⟩, ⟨false, 8, []⟩]⟩ : SessInit).RoundTrips ∧
      (⟨⟨true, true⟩, 3, [⟨false, 9, []⟩], [1, 2]⟩ : XferSegment).RoundTrips :=
  (roundTrips_iff _ _).imp (fun h => (h (by decide) (by decide)).mpr (by decide))
    fun h => (h (by rfl) (by decide) (by decide)).mpr (by decide)

/-- An item with the value 7 comes back with the value 0, 7. -/
theorem segment_altered :
    ((⟨⟨true, true⟩, 3, [⟨false, 9, [7]⟩], [1]⟩ : XferSegment).encode >>= XferSegment.decode) =
      .ok (some ⟨⟨true, true⟩, 3, [⟨false, 9, [0, 7]⟩], [1]⟩, []) := by decide

/-! ## Items inside their list -/

/-- The size of the item that starts here, by its own length field. -/
def itemSize (bs : List UInt8) : Nat := 5 + beNat ((bs.drop 3).take 2)

/-- The item that starts here is marked as critical. -/
def itemCritical (bs : List UInt8) : Bool := UInt8.ofNat (beNat (bs.take 1)) &&& 1 == 1

/-- All of the item that starts here is there. -/
def itemThere (bs : List UInt8) : Bool := 5 ≤ bs.length && itemSize bs ≤ bs.length

/-- Every item of the list, up to a critical one, ends inside it; a critical one ends inside the buffer, of
which `after` is the part behind the list. -/
def contained (after : List UInt8) : Nat → List UInt8 → Bool
  | 0, _ => true
  | fuel + 1, list =>
    if list = [] then true
    else if itemThere list then itemCritical list || contained after fuel (list.drop (itemSize list))
    else itemCritical list && itemThere (list ++ after)

lemma itemThere_iff : itemThere bs = true ↔ 5 ≤ bs.length ∧ itemSize bs ≤ bs.length := by
  simp only [itemThere, Bool.and_eq_true, decide_eq_true_eq]

lemma itemSize_append (h : 5 ≤ bs.length) (r : List UInt8) :
    itemSize (bs ++ r) = itemSize bs := by grind [itemSize]

lemma itemCritical_append (h : bs ≠ []) (r : List UInt8) :
    itemCritical (bs ++ r) = itemCritical bs := by grind [length_pos_iff, itemCritical]

lemma itemThere_append (h : itemThere bs = true) (r : List UInt8) :
    itemThere (bs ++ r) = true := by grind [itemThere_iff, itemSize_append]

lemma itemThere_split (h : itemThere bs = true) :
    ∃ flags extensionType value, value.length < 256 ^ 2 ∧ itemCritical bs = (flags &&& 1 == 1) ∧
      bs.take (itemSize bs) = itemBytes flags extensionType value := by
  obtain ⟨_, _⟩ := itemThere_iff.mp h
  have h1 : (bs.take 1).length = 1 := by rw [length_take]; omega
  have h2 : ((bs.drop 1).take 2).length = 2 := by rw [length_take, length_drop]; omega
  have h3 : ((bs.drop 3).take 2).length = 2 := by rw [length_take, length_drop]; omega
  have hflags := beNat_lt (bs.take 1)
  have htype := beNat_lt ((bs.drop 1).take 2)
  have hvalue := beNat_lt ((bs.drop 3).take 2)
  rw [h1] at hflags
  rw [h2] at htype
  rw [h3] at hvalue
  have hlen : ((bs.drop 5).take (beNat ((bs.drop 3).take 2))).length = beNat ((bs.drop 3).take 2) := by grind [itemSize]
  refine ⟨.ofNat (beNat (bs.take 1)), .ofNat (beNat ((bs.drop 1).take 2)),
    (bs.drop 5).take (beNat ((bs.drop 3).take 2)), by rw [hlen]; exact hvalue, rfl, ?_⟩
  rw [itemBytes, putU8, putU16, UInt8.toNat_ofNat_of_lt' hflags, UInt16.toNat_ofNat_of_lt' htype, hlen,
    beBytes_beNat h1, beBytes_beNat h2, beBytes_beNat h3]
  rw [itemSize, show 5 + beNat ((bs.drop 3).take 2) = 1 + (2 + (2 + beNat ((bs.drop 3).take 2))) by omega,
    take_add, take_add, take_add]
  simp only [drop_drop]

lemma ItemKind.decode_missing {α : Type} (K : ItemKind α) (h : itemThere bs = false) : K.decode bs = .panic := by
  by_cases h5 : 5 ≤ bs.length
  · -- the header is there, so the value is not
    have hlen : ((bs.drop 3).take 2).length = 2 := by rw [length_take, length_drop]; omega
    have hlt := beNat_lt ((bs.drop 3).take 2)
    rw [hlen] at hlt
    have hsize : ¬itemSize bs ≤ bs.length := by grind [itemThere_iff]
    have hshort : ((bs.drop 3).drop 2).length < (UInt16.ofNat (beNat ((bs.drop 3).take 2))).toNat := by
      grind [UInt16.toNat_ofNat_of_lt', itemSize]
    rw [decode, bind_apply, getU8_of_le (by omega), ok_bind, bind_apply,
      getU16_of_le (by rw [length_drop]; omega), ok_bind, bind_apply, drop_drop,
      getU16_of_le (by rw [length_drop]; omega), ok_bind, bind_apply, get_eq_panic hshort]
    rfl
  · rcases bs with _ | ⟨a, _ | ⟨b, _ | ⟨c, _ | ⟨d, _ | ⟨e, bs⟩⟩⟩⟩⟩
    iterate 5 rfl
    simp only [length_cons] at h5
    omega

/-- What one round of the loop does with what comes next. -/
structure ItemParser {α : Type} (p : Parser Errors α) : Prop where
  missing : ∀ bs, itemThere bs = false → p bs = .panic
  refused : ∀ bs, itemThere bs = true → itemCritical bs = true → ∃ e, p bs = .err e
  taken : ∀ bs, itemThere bs = true → itemCritical bs = false → ∃ a, p.Reads (bs.take (itemSize bs)) a

lemma ItemKind.itemParser {α : Type} (K : ItemKind α) : ItemParser K.decodeNext where
  missing bs h := by
    rw [decodeNext, bind_apply, K.decode_missing h]
    rfl
  refused bs h hc := by
    obtain ⟨flags, t, v, hlen, hcrit, hsplit⟩ := itemThere_split h
    rw [← take_append_drop (itemSize bs) bs, hsplit]
    exact ⟨_, decodeNext_eq_err hlen (hcrit.symm.trans hc) _⟩
  taken bs h hc := by
    obtain ⟨flags, t, v, hlen, hcrit, hsplit⟩ := itemThere_split h
    rw [hsplit]
    exact ⟨_, reads_decodeNext hlen (hcrit.symm.trans hc)⟩

lemma SessionExtension.itemParser : ItemParser decodeNext := kind.itemParser

lemma TransferExtension.itemParser : ItemParser decodeNext := kind.itemParser

section Loop

variable {α : Type} {p : Parser Errors α} {after list : List UInt8} {k fuel : Nat}

/-- An item that is there and not critical is taken from the list. -/
lemma ItemParser.loop_taken (hp : ItemParser p) (hthere : itemThere list = true) (hc : itemCritical list = false) :
    (list.drop (itemSize list)).length < list.length ∧ ∃ a, ∀ r fuel, untilLeft r.length p (fuel + 1) (list ++ r) =
      (untilLeft r.length p fuel >>= fun rest => pure (a :: rest)) (list.drop (itemSize list) ++ r) := by
  obtain ⟨_, _⟩ := itemThere_iff.mp hthere
  obtain ⟨a, ha⟩ := hp.taken list hthere hc
  have hlen : 5 ≤ itemSize list := Nat.le_add_right ..
  have htake : list.take (itemSize list) ≠ [] := by
    rw [← length_pos_iff, length_take]
    omega
  refine ⟨by rw [length_drop]; omega, a, fun r fuel => ?_⟩
  conv_lhs => rw [← take_append_drop (itemSize list) list, append_assoc, untilLeft_item htake]
  exact ha.bind_append ..

/-- From a list that is made of items, nothing but items is read, whatever follows it. -/
lemma ItemParser.loop_contained (hp : ItemParser p) (h : contained after k list = true) (hk : list.length ≤ k) :
    (∃ e, ∀ fuel, list.length < fuel → untilLeft after.length p fuel (list ++ after) = .err e) ∨
      ∃ items, ∀ r fuel, list.length < fuel → untilLeft r.length p fuel (list ++ r) = .ok (items, r) := by
  have hnil : ∃ items, ∀ r fuel, ([] : List UInt8).length < fuel →
      untilLeft r.length p fuel ([] ++ r) = .ok (items, r) := by
    refine ⟨[], fun r fuel hfuel => ?_⟩
    obtain ⟨fuel, rfl⟩ := exists_eq_succ_of_ne_zero (ne_zero_of_lt hfuel)
    exact untilLeft_of_le (le_refl _)
  induction k generalizing list with
  | zero => simp_all
  | succ _ ih =>
    by_cases hne : list = []
    · rw [hne]
      exact .inr hnil
    have hpos := length_pos_iff.mpr hne
    -- a critical item ends the loop
    have hrefused (hthere : itemThere (list ++ after) = true) (hc : itemCritical list = true) :
        ∃ e, ∀ fuel, list.length < fuel → untilLeft after.length p fuel (list ++ after) = .err e := by
      obtain ⟨e, he⟩ := hp.refused _ hthere (by rw [itemCritical_append hne, hc])
      refine ⟨e, fun fuel hfuel => ?_⟩
      obtain ⟨fuel, rfl⟩ := exists_eq_succ_of_ne_zero (ne_zero_of_lt hfuel)
      rw [untilLeft_of_lt (by rw [length_append]; omega), bind_eq_err he]
    rw [contained, if_neg hne] at h
    split at h
    · rename_i hthere
      rcases Bool.eq_false_or_eq_true (itemCritical list) with hc | hc
      · exact .inl (hrefused (itemThere_append hthere after) hc)
      rw [hc, Bool.false_or] at h
      obtain ⟨hdrop, a, htaken⟩ := hp.loop_taken hthere hc
      rcases ih h (by omega) with ⟨e, he⟩ | ⟨items, hitems⟩
      · refine .inl ⟨e, fun fuel hfuel => ?_⟩
        obtain ⟨fuel, rfl⟩ := exists_eq_succ_of_ne_zero (ne_zero_of_lt hfuel)
        rw [htaken, bind_eq_err (he fuel (by omega))]
      · refine .inr ⟨a :: items, fun r fuel hfuel => ?_⟩
        obtain ⟨fuel, rfl⟩ := exists_eq_succ_of_ne_zero (ne_zero_of_lt hfuel)
        rw [htaken, bind_apply, hitems r fuel (by omega)]
        rfl
    · simp_all

/-- From a list that is not, bytes behind it are read. -/
lemma ItemParser.loop_spills (hp : ItemParser p) (h : contained after k list = false) (hk : list.length ≤ k)
    (hfuel : list.length < fuel) :
    untilLeft after.length p fuel (list ++ after) = .panic ∨
      ∃ items r, untilLeft after.length p fuel (list ++ after) = .ok (items, r) ∧ r.length < after.length := by
  induction k generalizing list fuel with
  | zero => cases h
  | succ _ ih =>
    have hne : list ≠ [] := by
      rintro rfl
      cases h
    have hpos := length_pos_iff.mpr hne
    obtain ⟨fuel, rfl⟩ := exists_eq_succ_of_ne_zero (ne_zero_of_lt hfuel)
    rw [contained, if_neg hne] at h
    split at h
    · rename_i hthere
      obtain ⟨hc, h⟩ := Bool.or_eq_false_iff.mp h
      obtain ⟨hdrop, a, htaken⟩ := hp.loop_taken hthere hc
      rw [htaken, bind_apply]
      have hfuel : (list.drop (itemSize list)).length < fuel := by omega
      rcases ih h (by omega) hfuel with hpanic | ⟨items, r, hok, hr⟩
      · rw [hpanic]
        exact .inl rfl
      · rw [hok]
        exact .inr ⟨a :: items, r, rfl, hr⟩
    · rename_i hthere
      have hbeyond : (list ++ after).length > after.length := by rw [length_append]; omega
      rw [untilLeft_of_lt hbeyond]
      rcases Bool.eq_false_or_eq_true (itemThere (list ++ after)) with hall | hall
      · -- the item is longer than its list
        have hc : itemCritical (list ++ after) = false := by grind [itemCritical_append]
        obtain ⟨a, ha⟩ := hp.taken _ hall hc
        obtain ⟨-, _⟩ := itemThere_iff.mp hall
        have hover : list.length < itemSize (list ++ after) := by
          by_cases h5 : 5 ≤ list.length
          · grind [itemSize_append, itemThere_iff]
          · rw [itemSize]
            omega
        have hrest : ((list ++ after).drop (itemSize (list ++ after))).length < after.length := by grind
        obtain ⟨fuel, rfl⟩ := exists_eq_succ_of_ne_zero (show fuel ≠ 0 by omega)
        rw [ha.bind_drop, bind_apply, untilLeft_of_le hrest.le]
        exact .inr ⟨[a], _, rfl, hrest⟩
      · rw [bind_apply, hp.missing _ hall]
        exact .inl rfl

/-- The loop over a list of `len` bytes that stands at `i`. -/
def listLoop (p : Parser Errors α) (src : List UInt8) (i len : Nat) : Outcome Errors (List α × List UInt8) :=
  untilLeft (src.drop (i + len)).length p ((src.drop i).length + 1) (src.drop i)

/-- It reads exactly the list or stops at an error, or it runs out of the list. -/
lemma ItemParser.listLoop_eq {src : List UInt8} (hp : ItemParser p) (hlen : i + len ≤ src.length) :
    if contained (src.drop (i + len)) len ((src.drop i).take len) then
      (∃ e, listLoop p src i len = .err e) ∨ ∃ items, listLoop p src i len = .ok (items, src.drop (i + len)) ∧
        untilLeft 0 p (len + 1) ((src.drop i).take len) = .ok (items, [])
    else listLoop p src i len = .panic ∨
      ∃ items r, listLoop p src i len = .ok (items, r) ∧ r.length < (src.drop (i + len)).length := by
  have hlist : ((src.drop i).take len).length = len := by
    rw [length_take, length_drop]
    omega
  have hfuel : ((src.drop i).take len).length < (src.drop i).length + 1 := by
    rw [hlist, length_drop]
    omega
  have hsplit : listLoop p src i len = untilLeft (src.drop (i + len)).length p ((src.drop i).length + 1)
      ((src.drop i).take len ++ src.drop (i + len)) := by
    rw [← drop_drop, take_append_drop, listLoop, drop_drop]
  rw [hsplit]
  split
  · rename_i hc
    rcases hp.loop_contained hc hlist.le with ⟨e, herr⟩ | ⟨items, hok⟩
    · exact .inl ⟨e, herr _ hfuel⟩
    · have halone := hok [] (len + 1) (by omega)
      rw [append_nil] at halone
      exact .inr ⟨items, hok _ _ hfuel, halone⟩
  · rename_i hc
    exact hp.loop_spills (Bool.eq_false_of_not_eq_true hc) hlist.le hfuel

end Loop

/-! ## Messages inside their frame -/

/-- The buffer begins with a whole SESS_INIT, whose node id has `n` bytes and whose list of items `e`. -/
structure SessInit.Frame (src : List UInt8) (n e : Nat) : Prop where
  nodeId : (peek 18 2 src : Outcome Errors Nat) = .ok n
  extensions : (peek (20 + n) 4 src : Outcome Errors Nat) = .ok e
  complete : 24 + n + e ≤ src.length

/-- The decoder does not panic, and a message it reads is the frame, with the items of its list. -/
def SessInit.StaysInside (src : List UInt8) (n e : Nat) : Prop :=
  decode src ≠ .panic ∧ ∀ m rest, decode src = .ok (some m, rest) → rest = src.drop (24 + n + e) ∧
    SessionExtension.decodeAll 0 (e + 1) ((src.drop (24 + n)).take e) = .ok (m.sessionExtensions, [])

/-- The flags of a segment. -/
def XferSegment.flagsOf (src : List UInt8) : MessageFlags := .fromBitsTruncate (UInt8.ofNat (beNat (src.take 1)))

/-- Where the data length of a segment stands, behind a list of items of `x` bytes. -/
def XferSegment.dataAt (src : List UInt8) (x : Nat) : Nat := if (flagsOf src).start then 13 + x else 9

/-- The buffer begins with a whole XFER_SEGMENT, with `d` bytes of data. -/
structure XferSegment.Frame (src : List UInt8) (x d : Nat) : Prop where
  extensions : (flagsOf src).start = true → (peek 9 4 src : Outcome Errors Nat) = .ok x
  dataLength : (peek (dataAt src x) 8 src : Outcome Errors Nat) = .ok d
  complete : dataAt src x + 8 + d ≤ src.length

/-- The items of the message are those of its list, if it has one. -/
def XferSegment.ItemsOf (src : List UInt8) (x : Nat) (m : XferSegment) : Prop :=
  if (flagsOf src).start then
    TransferExtension.decodeAll 0 (x + 1) ((src.drop 13).take x) = .ok (m.transferExtensions, [])
  else m.transferExtensions = []

def XferSegment.StaysInside (src : List UInt8) (x d : Nat) : Prop :=
  decode src ≠ .panic ∧ ∀ m rest, decode src = .ok (some m, rest) →
    rest = src.drop (dataAt src x + 8 + d) ∧ ItemsOf src x m

namespace SessInit

variable {src : List UInt8} {n e : Nat}

lemma Frame.decode_eq (h : Frame src n e) : decode src = decodeFrame n e src := by
  grind [h.nodeId, h.extensions, h.complete, decode]

/-- With a valid node id, what becomes of the items becomes of the message. -/
lemma decodeFrame_eq (hlen : 24 + n + e ≤ src.length) :
    ∃ keepalive segmentMru transferMru, decodeFrame n e src =
      (fromUtf8 ((src.drop 20).take n)).elim (.err .nodeIdInvalid) fun nodeId =>
        SessionExtension.decodeAll (src.drop (24 + n + e)).length ((src.drop (24 + n)).length + 1)
          (src.drop (24 + n)) >>=
        fun items => .ok (some ⟨keepalive, segmentMru, transferMru, nodeId, items.1⟩, items.2) := by
  have hitems : List.drop 4 (List.drop n (List.drop 20 src)) = src.drop (24 + n) := by grind [drop_drop]
  have htarget : (src.drop (24 + n)).length - e = (src.drop (24 + n + e)).length := by
    simp only [length_drop]
    omega
  refine ⟨.ofNat (beNat (src.take 2)), .ofNat (beNat ((src.drop 2).take 8)), .ofNat (beNat ((src.drop 10).take 8)), ?_⟩
  rw [decodeFrame, bind_apply, getU16_of_le (by omega), ok_bind, bind_apply,
    getU64_of_le (by simp only [length_drop]; omega), ok_bind, bind_apply, drop_drop,
    getU64_of_le (by simp only [length_drop]; omega), ok_bind, bind_apply, drop_drop,
    get_of_le (by simp only [length_drop]; omega), ok_bind, bind_apply, drop_drop,
    get_of_le (by simp only [length_drop]; omega), ok_bind]
  cases fromUtf8 ((src.drop 20).take n) with
  | none => rfl
  | some =>
    dsimp only [Option.elim]
    rw [bind_apply, get_of_le (by simp only [length_drop]; omega), ok_bind]
    show (SessionExtension.decodeAll ((List.drop 4 (List.drop n (List.drop 20 src))).length - e)
      ((List.drop 4 (List.drop n (List.drop 20 src))).length + 1)
      (List.drop 4 (List.drop n (List.drop 20 src))) >>= _) = _
    rw [hitems, htarget]
    rfl

/-- A frame is kept to if its node id is no text or its items end inside their list. -/
lemma staysInside_iff_contained (h : Frame src n e) : StaysInside src n e ↔
    fromUtf8 ((src.drop 20).take n) = none ∨
      contained (src.drop (24 + n + e)) e ((src.drop (24 + n)).take e) = true := by
  have hlen := h.complete
  obtain ⟨_, _, _, hframe⟩ := decodeFrame_eq hlen
  rw [StaysInside, h.decode_eq, hframe]
  cases fromUtf8 ((src.drop 20).take n) with
  | none => simp
  | some =>
    have hloop := SessionExtension.itemParser.listLoop_eq hlen
    simp only [Option.elim, reduceCtorEq, false_or]
    rw [SessionExtension.decodeAll, ← listLoop]
    split at hloop
    · rename_i hc
      refine iff_of_true ?_ hc
      rcases hloop with ⟨_, herr⟩ | ⟨items, hok, halone⟩
      · rw [herr]
        simp
      · rw [hok, ok_bind]
        refine ⟨by simp, fun m rest hm => ?_⟩
        cases hm
        exact ⟨rfl, halone⟩
    · rename_i hc
      refine iff_of_false ?_ hc
      rintro ⟨hsafe, hinside⟩
      rcases hloop with hpanic | ⟨items, r, hok, hr⟩
      · rw [hpanic] at hsafe
        exact hsafe rfl
      · rw [hok] at hinside
        have hrest : r = src.drop (24 + n + e) := (hinside _ _ rfl).1
        rw [hrest] at hr
        exact lt_irrefl _ hr

end SessInit

namespace XferSegment

variable {src : List UInt8} {x d : Nat}
variable {flags : MessageFlags} {transferId : UInt64} {items : List TransferExtension}

/-- What `decodeFrame` does behind the items. -/
def decodeData (flags : MessageFlags) (transferId : UInt64) (dataLength : Nat) (items : List TransferExtension) :
    Parser Errors (Option XferSegment) := do
  let _ ← get 8
  let data ← get dataLength
  return some ⟨flags, transferId, items, data⟩

lemma decodeData_of_le (h : 8 + d ≤ r.length) : decodeData flags transferId d items r =
      .ok (some ⟨flags, transferId, items, (r.drop 8).take d⟩, r.drop (8 + d)) := by
  rw [decodeData, bind_apply, get_of_le (by omega), ok_bind, bind_apply,
    get_of_le (by rw [length_drop]; omega), ok_bind, ← drop_drop]
  rfl

lemma decodeData_eq_panic (h : r.length < 8 + d) : decodeData flags transferId d items r = .panic := by
  rw [decodeData, bind_apply]
  by_cases h8 : 8 ≤ r.length
  · rw [get_of_le h8, ok_bind, bind_apply,
      get_eq_panic (by rw [length_drop]; omega)]
    rfl
  · rw [get_eq_panic (Nat.lt_of_not_le h8)]
    rfl

lemma decodeFrame_eq (flags : MessageFlags) (d : Nat) (hlen : 9 ≤ src.length) :
    ∃ transferId, decodeFrame flags d src =
      (decodeExtensions flags (src.drop 9) >>= fun items => decodeData flags transferId d items.1 items.2) := by
  refine ⟨.ofNat (beNat ((src.drop 1).take 8)), ?_⟩
  rw [decodeFrame, bind_apply, get_of_le (by omega), ok_bind, bind_apply,
    getU64_of_le (by rw [length_drop]; omega), ok_bind, drop_drop]
  rfl

lemma Frame.decode_eq (h : Frame src x d) :
    decode src = if d > maxSegmentMru then .err .segmentTooLong else decodeFrame (flagsOf src) d src := by
  have hlen := h.complete
  have hdata := h.dataLength
  have hflags : (peek 0 1 src : Outcome Errors Nat) = .ok (beNat (src.take 1)) := by grind [peek]
  have hsized (s : Nat) (hs : dataAt src x = s - 8) (h8 : 8 ≤ s) : decodeSized (flagsOf src) s src =
      if d > maxSegmentMru then .err .segmentTooLong else decodeFrame (flagsOf src) d src := by
    grind [decodeSized]
  rcases Bool.eq_false_or_eq_true (flagsOf src).start with hs | hs
  · grind [h.extensions, dataAt, decode, flagsOf]
  · grind [dataAt, decode, flagsOf]

/-- The loop over the items of a first segment. -/
lemma Frame.decodeExtensions_eq (h : Frame src x d) (hs : (flagsOf src).start = true) :
    decodeExtensions (flagsOf src) (src.drop 9) =
      TransferExtension.decodeAll (src.drop (13 + x)).length ((src.drop 13).length + 1) (src.drop 13) := by
  have hlen := h.complete
  rw [dataAt, if_pos hs] at hlen
  have hx := h.extensions hs
  rw [peek, if_pos (by omega), Outcome.ok.injEq] at hx
  have hlt := beNat_lt ((src.drop 9).take 4)
  rw [hx, show ((src.drop 9).take 4).length = 4 by rw [length_take, length_drop]; omega] at hlt
  have htarget : (src.drop 13).length - x = (src.drop (13 + x)).length := by
    simp only [length_drop]
    omega
  rw [decodeExtensions, if_pos hs, if_neg (by rw [length_drop]; omega), bind_apply,
    getU32_of_le (by rw [length_drop]; omega), ok_bind]
  rw [hx, UInt32.toNat_ofNat_of_lt' hlt, drop_drop, decodeExtensionItems,
    if_neg (by rw [length_drop]; omega), htarget]

/-- A frame is kept to if the segment is refused as too long, is no first one, or its items end inside their list. -/
lemma staysInside_iff_contained (h : Frame src x d) : StaysInside src x d ↔
    maxSegmentMru < d ∨ (flagsOf src).start = false ∨
      contained (src.drop (13 + x)) x ((src.drop 13).take x) = true := by
  have hlen := h.complete
  rw [StaysInside, h.decode_eq]
  by_cases hd : maxSegmentMru < d
  · simp [hd]
  rw [if_neg hd]
  have hhead : 9 ≤ src.length := by unfold dataAt at hlen; split at hlen <;> omega
  obtain ⟨_, hframe⟩ := decodeFrame_eq (flagsOf src) d hhead
  rw [hframe]
  rcases Bool.eq_false_or_eq_true (flagsOf src).start with hs | hs
  · have hat : dataAt src x = 13 + x := if_pos hs
    rw [hat] at hlen ⊢
    have hloop := TransferExtension.itemParser.listLoop_eq (show 13 + x ≤ src.length by omega)
    simp only [hd, hs, Bool.true_eq_false, false_or]
    rw [h.decodeExtensions_eq hs, TransferExtension.decodeAll, ← listLoop]
    split at hloop
    · rename_i hc
      refine iff_of_true ?_ hc
      rcases hloop with ⟨_, herr⟩ | ⟨items, hok, halone⟩
      · rw [herr]
        simp
      · rw [hok, ok_bind, decodeData_of_le (by rw [length_drop]; omega)]
        refine ⟨by simp, fun m rest hm => ?_⟩
        cases hm
        rw [ItemsOf, if_pos hs, drop_drop, ← add_assoc]
        exact ⟨rfl, halone⟩
    · rename_i hc
      refine iff_of_false ?_ hc
      rintro ⟨hsafe, hinside⟩
      rcases hloop with hpanic | ⟨items, r, hok, hr⟩
      · rw [hpanic] at hsafe
        exact hsafe rfl
      rw [hok, ok_bind] at hsafe hinside
      by_cases hrd : 8 + d ≤ r.length
      · grind [decodeData_of_le, length_drop]
      · exact hsafe (decodeData_eq_panic (Nat.lt_of_not_le hrd))
  · have hat : dataAt src x = 9 := if_neg (by simp [hs])
    rw [hat] at hlen ⊢
    refine iff_of_true ?_ (.inr (.inl hs))
    rw [decodeExtensions, if_neg (by simp [hs]), ok_bind, decodeData_of_le (by rw [length_drop]; omega)]
    refine ⟨by simp, fun m rest hm => ?_⟩
    cases hm
    rw [ItemsOf, if_neg (by simp [hs]), drop_drop, ← add_assoc]
    exact ⟨rfl, rfl⟩

end XferSegment

/-- A message stays inside its frame exactly if no item that is read runs out of its list. -/
theorem staysInside_iff (src : List UInt8) (n e x d : Nat) :
    (SessInit.Frame src n e → (SessInit.StaysInside src n e ↔
      fromUtf8 ((src.drop 20).take n) = none ∨
        contained (src.drop (24 + n + e)) e ((src.drop (24 + n)).take e) = true)) ∧
    (XferSegment.Frame src x d → (XferSegment.StaysInside src x d ↔
      maxSegmentMru < d ∨ (XferSegment.flagsOf src).start = false ∨
        contained (src.drop (13 + x)) x ((src.drop 13).take x) = true)) :=
  ⟨SessInit.staysInside_iff_contained, XferSegment.staysInside_iff_contained⟩

/-- A SESS_INIT for the node `n` with a list of items. -/
def initWith (list : List UInt8) : List UInt8 :=
  putU16 60 ++ (putU64 1000 ++ (putU64 2000 ++ (beBytes 2 1 ++ ([110] ++ (beBytes 4 list.length ++ list)))))

/-- A first segment with a list of items, and with one byte of data. -/
def segmentWith (list : List UInt8) : List UInt8 :=
  [2] ++ (putU64 1 ++ (beBytes 4 list.length ++ (list ++ (beBytes 8 1 ++ [7]))))

/-- Items that fill their lists. -/
theorem staysInside_iff_filled :
    SessInit.StaysInside (initWith [0, 0, 1, 0, 1, 9] ++ [4]) 1 6 ∧
      XferSegment.StaysInside (segmentWith [0, 0, 1, 0, 0] ++ [4]) 5 1 :=
  ⟨((staysInside_iff _ 1 6 0 0).1 ⟨by decide, by decide, by decide⟩).mpr (by decide),
    ((staysInside_iff _ 0 0 5 1).2 ⟨by decide, by decide, by decide⟩).mpr (by decide)⟩

/-- A list of one byte makes the decoder read an item behind the buffer. An item that says it is longer than
its list takes the length of the data for its value, and the data come from behind the frame. -/
theorem items_spill :
    (SessInit.Frame (initWith [0]) 1 1 ∧ SessInit.decode (initWith [0]) = .panic) ∧
      XferSegment.Frame (segmentWith [0, 0, 1, 0, 8] ++ putU64 5) 5 1 ∧
      XferSegment.decode (segmentWith [0, 0, 1, 0, 8] ++ putU64 5) =
        .ok (some ⟨⟨false, true⟩, 1, [⟨false, 1, [0, 0, 0, 0, 0, 0, 0, 0, 0, 0, 0, 0, 0, 0, 0, 1]⟩], [5]⟩, []) :=
  ⟨⟨⟨by decide, by decide, by decide⟩, by decide⟩, ⟨by decide, by decide, by decide⟩, by decide⟩

end Dtn.Tcpcl
