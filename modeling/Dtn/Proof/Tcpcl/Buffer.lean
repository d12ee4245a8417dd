import Dtn.Proof.Tcpcl.Cancel
import Dtn.Proof.Tcpcl.Codec

/-!
# How much a peer makes a session keep

A session announces in its SESS_INIT that it takes transfers of `maxTransferMru`
bytes, but it adds every segment of the current transfer to what it has,
however much that is. `receiving` is `Sending.system` with a log of the
transfers passed up. If each segment that is taken still fits (`Fits`), the
transfer being received and those passed up keep to the announced size, and
the first segment that does not fit breaks it (`within_iff`). A peer that
never sends END makes the session keep as much as it likes (`reaches_filled`).
-/

namespace Dtn.Tcpcl

open List Outcome

variable {ρ : Type} {tls : Tls}

/-! ## What a turn does to the transfer being received -/

namespace Session

variable {s s' : Session ρ} {es : List (Effect ρ)}

/-- The bytes of the transfer being received. -/
def buffered (s : Session ρ) : Nat := (s.receivingTransfer.map (·.data.length)).getD 0

/-- The session adds the segment to the transfer it receives, or begins one with it. -/
def Takes (s : Session ρ) (x : XferSegment) : Prop :=
  s.statemachine.state.accepts (.xferSegment x) = true ∧ ∀ t ∈ s.receivingTransfer, t.id = x.transferId

/-- A segment that is taken is added; if it is the last one, the transfer is passed up. -/
def Adds (s s' : Session ρ) (x : XferSegment) (up : List Transfer) : Prop :=
  ∃ t : Transfer, t.data.length = s.buffered + x.data.length ∧
    ((s'.receivingTransfer = none ∧ up = [t]) ∨ (s'.receivingTransfer = some t ∧ up = []))

lemma receiveSegment_adds (h : s.receiveSegment x = .ok (s', es)) :
    ((∀ t ∈ s.receivingTransfer, t.id = x.transferId) ∧ s.Adds s' x (Effect.passedUp es)) ∨
      ((∃ t ∈ s.receivingTransfer, t.id ≠ x.transferId) ∧ s' = s ∧ es = []) := by
  rcases receiveSegment_eq_ok h with ⟨t, ht, hid, rfl, rfl⟩ | ⟨t, _, ht, -, hs⟩
  · exact .inr ⟨⟨t, ht, hid⟩, rfl, rfl⟩
  · refine .inl ⟨?_, t, ?_, ?_⟩
    · grind
    · grind [buffered]
    · rcases hs with ⟨-, rfl, rfl⟩ | ⟨-, rfl, rfl⟩
      · exact .inl ⟨rfl, rfl⟩
      · exact .inr ⟨rfl, rfl⟩

lemma branch_receives (hi : (s.statemachine.getInterests : Outcome Exit _) = .ok i)
    (h : s.branch tls i ev = .ok (some (s', es))) :
    (∃ x, ev = .read (.ok (.xferSegment x)) ∧ s.Takes x ∧ s.Adds s' x (Effect.passedUp es)) ∨
      ((∀ x, ev = .read (.ok (.xferSegment x)) → ¬s.Takes x) ∧ s'.receivingTransfer = s.receivingTransfer ∧
        Effect.passedUp es = []) := by
  cases ev with
  | read =>
    obtain ⟨hread, sm, _, hd, hres⟩ := branch_read_eq_ok h
    have hreading := StateMachine.decodeMessage_cases hi hread hd
    rcases hres with ⟨x, rfl, hx⟩ | ⟨hno, -, -, -, rfl, rfl⟩
    · cases hreading with
      | segment hst =>
        have hacc : s.statemachine.state.accepts (.xferSegment x) = true := by
          rcases hst with hst | ⟨tt, hst⟩ <;> rw [hst] <;> rfl
        rcases receiveSegment_adds hx with ⟨hid, hadds⟩ | ⟨⟨t, ht, hid⟩, rfl, rfl⟩
        · exact .inl ⟨x, rfl, ⟨hacc, hid⟩, hadds⟩
        · refine .inr ⟨?_, rfl, rfl⟩
          rintro _ ⟨⟩ htakes
          exact hid (htakes.2 t ht)
    · refine .inr ⟨?_, rfl, rfl⟩
      rintro x ⟨⟩ ⟨hacc, -⟩
      cases hreading with
      | segment => exact hno x rfl
      | unexpected hm => cases hacc.symm.trans hm
  | eof | sendFailed => simp only [branch] at h; split at h <;> cases h
  | send =>
    obtain ⟨-, ⟨sm, -, rfl, rfl⟩ | ⟨sm, _, _, -, -, rfl, rfl⟩⟩ := branch_send_eq_ok h <;>
      exact .inr ⟨by rintro _ ⟨⟩, rfl, rfl⟩
  | transfer =>
    obtain ⟨-, ⟨sm, -, rfl, rfl⟩ | ⟨_, -, rfl, rfl⟩⟩ := branch_transfer_eq_ok h <;>
      exact .inr ⟨by rintro _ ⟨⟩, rfl, rfl⟩
  | tick =>
    obtain ⟨_, -, rfl, rfl⟩ := branch_tick_eq_ok h
    exact .inr ⟨by rintro _ ⟨⟩, rfl, rfl⟩
  | close =>
    obtain ⟨-, rfl, rfl⟩ := branch_close_eq_ok h
    exact .inr ⟨by rintro _ ⟨⟩, rfl, rfl⟩

/-- A turn adds the segment it takes to the transfer being received, and leaves it alone if it takes none. -/
lemma turn_receives (h : s.turn tls ev = .ok (some (s', es))) :
    (∃ x, ev = .read (.ok (.xferSegment x)) ∧ s.Takes x ∧ s.Adds s' x (Effect.passedUp es)) ∨
      ((∀ x, ev = .read (.ok (.xferSegment x)) → ¬s.Takes x) ∧ s'.receivingTransfer = s.receivingTransfer ∧
        Effect.passedUp es = []) := by
  obtain ⟨_, _, _, _, hi, hb, hset, rfl⟩ := turn_eq_ok h
  rw [Effect.passedUp_append, hset.passedUp, append_nil, hset.receivingTransfer]
  rcases branch_receives hi hb with ⟨x, hev, htakes, t, hlen, hadds⟩ | hkeeps
  · exact .inl ⟨x, hev, htakes, t, hlen, hset.receivingTransfer ▸ hadds⟩
  · exact .inr hkeeps

end Session

/-! ## Runs with the transfers passed up -/

namespace Sending

variable {p : Sending ρ} {q q' : Sending ρ × List Transfer}
variable {c' : Codec} {p' : Sending ρ} {data : List UInt8} {up : List Transfer} {out dec wit : List Messages}

/-- The transfers that go up the receive channel. -/
def passedUp (tls : Tls) (p : Sending ρ) : Action ρ → List Transfer
  | .branch ev =>
    match p.session.turn tls ev with
    | .ok (some (_, es)) => Effect.passedUp es
    | _ => []
  | _ => []

/-- The runs of a session, with all the transfers passed up so far. -/
def receiving (tls : Tls) : System (Sending ρ × List Transfer) (Action ρ) where
  init q := (system tls).init q.1 ∧ q.2 = []
  step q a q' := (system tls).step q.1 a q'.1 ∧ q'.2 = q.2 ++ q.1.passedUp tls a

/-- If the session takes the segment that is read, there is room for it. -/
def Fits (q : Sending ρ × List Transfer) : Action ρ → Prop
  | .branch (.read (.ok (.xferSegment x))) =>
    q.1.session.Takes x → q.1.session.buffered + x.data.length ≤ maxTransferMru
  | _ => True

/-- No transfer is larger than what the session has announced. -/
structure Within (q : Sending ρ × List Transfer) : Prop where
  buffered : q.1.session.buffered ≤ maxTransferMru
  passedUp : ∀ t ∈ q.2, t.data.length ≤ maxTransferMru

lemma step_feed_keeps (h : p.step tls c' .feed = .ok (some p')) :
    p'.session.receivingTransfer = p.session.receivingTransfer := by
  simp only [step] at h
  split at h
  · cases h
  · obtain ⟨_, -, h⟩ := bind_eq_ok.mp h
    split at h
    · obtain ⟨⟨_, m⟩, -, h⟩ := bind_eq_ok.mp h
      cases m with
      | none =>
        obtain ⟨⟨_, _⟩, htop, h⟩ := bind_eq_ok.mp h
        cases h
        exact (Session.loopTop_eq_ok htop).receivingTransfer
      | some =>
        cases h
        rfl
    · cases h

lemma step_flushed_keeps (h : p.step tls c' .flushed = .ok (some p')) :
    p'.session.receivingTransfer = p.session.receivingTransfer := by
  simp only [step] at h
  split at h
  · obtain ⟨_, -, h⟩ := bind_eq_ok.mp h
    obtain ⟨⟨_, _⟩, htop, h⟩ := bind_eq_ok.mp h
    cases h
    exact (Session.loopTop_eq_ok htop).receivingTransfer
  · cases h

/-- A step that takes a segment adds it, any other one changes nothing here. -/
lemma step_receives (h : (receiving tls).step q a q') :
    (∃ x up, a = .branch (.read (.ok (.xferSegment x))) ∧ q.1.session.Takes x ∧
        q.1.session.Adds q'.1.session x up ∧ q'.2 = q.2 ++ up) ∨
      (Fits q a ∧ q'.1.session.receivingTransfer = q.1.session.receivingTransfer ∧ q'.2 = q.2) := by
  obtain ⟨⟨hs, -⟩, hup⟩ := h
  cases a with
  | feed => exact .inr ⟨trivial, step_feed_keeps hs, hup.trans (append_nil _)⟩
  | flushed => exact .inr ⟨trivial, step_flushed_keeps hs, hup.trans (append_nil _)⟩
  | branch ev =>
    obtain ⟨-, s, es, ht, hq⟩ := step_branch_eq_ok hs
    have hes : q.1.passedUp tls (.branch ev) = Effect.passedUp es := by rw [passedUp, ht]
    have hsess : q'.1.session = s := by rw [hq, branched]
    rw [hes] at hup
    rw [hsess]
    rcases Session.turn_receives ht with ⟨x, rfl, htakes, hadds⟩ | ⟨_, hkeeps, hnil⟩
    · exact .inl ⟨x, _, rfl, htakes, hadds, hup⟩
    · refine .inr ⟨?_, hkeeps, by rw [hup, hnil, append_nil]⟩
      unfold Fits
      split
      · grind
      · trivial

/-- One step keeps to the announced size if and only if the segment it takes fits. -/
lemma Within.step_iff (hq : Within q) (h : (receiving tls).step q a q') : Within q' ↔ Fits q a := by
  rcases step_receives h with ⟨x, _, rfl, htakes, ⟨t, hlen, hadds⟩, hup⟩ | ⟨hfits, hkeeps, hup⟩
  · have hfits : Fits q (.branch (.read (.ok (.xferSegment x)))) ↔ t.data.length ≤ maxTransferMru := by
      rw [hlen]
      exact ⟨fun h => h htakes, fun h _ => h⟩
    rw [hfits]
    rcases hadds with ⟨hnone, rfl⟩ | ⟨hsome, rfl⟩
    · constructor
      · intro h'
        exact h'.passedUp t (by rw [hup]; exact mem_concat_self)
      · intro ht
        refine ⟨by rw [Session.buffered, hnone]; exact Nat.zero_le _, ?_⟩
        rw [hup]
        exact forall_mem_append.mpr ⟨hq.passedUp, forall_mem_singleton.mpr ht⟩
    · have hbuf : q'.1.session.buffered = t.data.length := by rw [Session.buffered, hsome]; rfl
      rw [append_nil] at hup
      constructor
      · intro h'
        exact hbuf ▸ h'.buffered
      · intro ht
        exact ⟨hbuf.symm ▸ ht, hup.symm ▸ hq.passedUp⟩
  · have hbuf : q'.1.session.buffered = q.1.session.buffered := by rw [Session.buffered, hkeeps]; rfl
    exact iff_of_true ⟨hbuf.symm ▸ hq.buffered, hup.symm ▸ hq.passedUp⟩ hfits

lemma reaches_within (h : (receiving tls).Reaches Fits q) : Within q := by
  refine System.Reaches.invariant Within ?_ (fun q a q' hq ha hs => (hq.step_iff hs).mpr ha) h
  rintro ⟨_, _⟩ ⟨⟨_, _, rfl | rfl⟩, rfl⟩ <;> exact ⟨Nat.zero_le _, nofun⟩

/-- In a run in which each segment taken fits, nothing exceeds the announced size, and the
next step keeps it so if and only if its segment fits too. -/
theorem within_iff (h : (receiving tls).Reaches Fits q) :
    Within q ∧ ∀ a q', (receiving tls).step q a q' → (Within q' ↔ Fits q a) :=
  ⟨reaches_within h, fun _ _ hs => (reaches_within h).step_iff hs⟩

section Runs

variable {allowed : Sending ρ × List Transfer → Action ρ → Prop} {p1 p' : Sending ρ} {up : List Transfer}

lemma Reaches.logged {allowed : Sending ρ → Action ρ → Prop} (h : (system tls).Reaches allowed p) :
    ∃ up, (receiving tls).Reaches (fun q => allowed q.1) (p, up) := by
  induction h with
  | init h => exact ⟨[], .init ⟨h, rfl⟩⟩
  | step _ ha hs ih =>
    obtain ⟨_, hup⟩ := ih
    exact ⟨_, .step hup ha ⟨hs, rfl⟩⟩

lemma Reaches.read (h : (receiving tls).Reaches allowed (p, up)) (m : Messages) (hy : p.codec.Yields (.ok m) c')
    (ha : allowed (p, up) (.branch (.read (.ok m)))) (hs : p.step tls c' (.branch (.read (.ok m))) = .ok (some p'))
    (hc : p'.codec = c') : (receiving tls).Reaches allowed (p', up ++ p.passedUp tls (.branch (.read (.ok m)))) :=
  .step h ha ⟨⟨hc.symm ▸ hs, hc.symm ▸ hy⟩, rfl⟩

lemma Reaches.write (h : (receiving tls).Reaches allowed (p, up)) (ha : ∀ q, allowed q .feed ∧ allowed q .flushed)
    (hs : p.step tls p.codec .feed = .ok (some p1)) (hc : p1.codec = p.codec)
    (hs' : p1.step tls p.codec .flushed = .ok (some p')) (hc' : p'.codec = p.codec) :
    (receiving tls).Reaches allowed (p', up) := by
  have h1 : (receiving tls).Reaches allowed (p1, up) := .step h (ha _).1 ⟨⟨hc.symm ▸ hs, hc⟩, (append_nil _).symm⟩
  exact .step h1 (ha _).2 ⟨⟨hc'.symm ▸ hs', hc'.trans hc.symm⟩, (append_nil _).symm⟩

end Runs

/-- A segment behind the first one. -/
def piece (fin : Bool) (data : List UInt8) : XferSegment := ⟨⟨fin, false⟩, 7, [], data⟩

lemma yields_piece (fin : Bool) (h : data.length ≤ maxSegmentMru) :
    Codec.Yields ⟨true, none⟩ (.ok (.xferSegment (piece fin data))) ⟨true, none⟩ := by
  have hlen : data.length < 256 ^ 8 := Nat.lt_of_le_of_lt h (by decide)
  obtain ⟨w, hw⟩ : ∃ w, (Codec.encode (.xferSegment (piece fin data)) : Outcome Errors _) = .ok w := by
    have hl : (putLength 8 data.length : Outcome Errors _) = .ok (beBytes 8 data.length) :=
      putLength_eq_ok.mpr ⟨hlen, rfl⟩
    exact ⟨_, bind_eq_ok.mpr ⟨_, bind_eq_ok.mpr ⟨[], rfl, bind_eq_ok.mpr ⟨_, hl, rfl⟩⟩, rfl⟩⟩
  obtain ⟨b, -, hf⟩ := framed_message (m := .xferSegment (piece fin data)) rfl hw ⟨nofun, h⟩
  exact .message (Codec.decode_item ⟨.xferSegment, b, _, _, hf⟩ (r := []) (.fresh _))

/-- Three segments fit, and their transfer is passed up. -/
theorem within_iff_three : ∃ q : Sending Unit × List Transfer, (receiving ⟨true, fun _ => true⟩).Reaches Fits q ∧
    ⟨7, [5, 6, 7]⟩ ∈ q.2 ∧ Within q ∧
      ∀ a q', (receiving ⟨true, fun _ => true⟩).step q a q' → (Within q' ↔ Fits q a) := by
  have hfits : ∀ (p : Sending Unit) ev, p.flushing = false → (∀ x, ev ≠ .read (.ok (.xferSegment x))) →
      Fits (p, []) (.branch ev) := by simp_all [Fits]
  have h0 : (system ⟨true, fun _ => true⟩).Reaches (fun p : Sending Unit => Fits (p, [])) established :=
    reaches_established (fun _ => ⟨trivial, trivial⟩) hfits
  obtain ⟨up, h⟩ := Reaches.logged h0
  have hx : Codec.Yields ⟨true, none⟩ (.ok (.xferSegment ⟨⟨false, true⟩, 7, [], [5]⟩)) ⟨true, none⟩ := .message
    (show Codec.decode _ [1, 2, 0, 0, 0, 0, 0, 0, 0, 7, 0, 0, 0, 0, 0, 0, 0, 0, 0, 0, 0, 1, 5] =
      .ok (some _, _, []) by decide)
  have h : (receiving ⟨true, fun _ => true⟩).Reaches Fits (established, up) := h
  have h1 := Reaches.read h _ hx (fun _ => Nat.le_of_ble_eq_true rfl) rfl rfl
  have h2 := Reaches.write h1 (fun _ => ⟨trivial, trivial⟩) rfl rfl rfl rfl
  have h3 := Reaches.read h2 _ (yields_piece false (show [6].length ≤ maxSegmentMru by decide))
    (fun _ => Nat.le_of_ble_eq_true rfl) rfl rfl
  have h4 := Reaches.write h3 (fun _ => ⟨trivial, trivial⟩) rfl rfl rfl rfl
  have h5 := Reaches.read h4 _ (yields_piece true (show [7].length ≤ maxSegmentMru by decide))
    (fun _ => Nat.le_of_ble_eq_true rfl) rfl rfl
  exact ⟨_, h5, mem_append_right _ (mem_singleton.mpr rfl), within_iff h5⟩

/-! ## A peer that does not stop -/

/-- An established session that has received `r`. -/
def holding (r : Option Transfer) (out dec wit : List Messages) : Sending Unit :=
  ⟨{ (established : Sending Unit).session with receivingTransfer := r }, ⟨true, none⟩, false, out, dec, wit⟩

lemma buffered_holding (data : List UInt8) (out dec wit : List Messages) :
    (holding (some ⟨7, data⟩) out dec wit).session.buffered = data.length := rfl

lemma reaches_more (h : (receiving tls).Reaches (fun _ _ => True) (holding r out dec wit, up))
    (hr : r = some ⟨7, data⟩ ∨ r = none ∧ data = []) (hm : more.length ≤ maxSegmentMru) :
    ∃ out' dec' wit', (receiving tls).Reaches (fun _ _ => True)
      (holding (some ⟨7, data ++ more⟩) out' dec' wit', up) := by
  have hy := yields_piece false hm
  have hup : (holding r out dec wit).passedUp tls
      (.branch (.read (.ok (.xferSegment (piece false more))))) = [] := by
    rcases hr with rfl | ⟨rfl, -⟩ <;> rfl
  rcases hr with rfl | ⟨rfl, rfl⟩
  all_goals
    have h1 := Reaches.read h (.xferSegment (piece false more)) hy trivial rfl rfl
    rw [hup, append_nil] at h1
    have h2 := Reaches.write h1 (fun _ => ⟨trivial, trivial⟩) rfl rfl rfl rfl
    exact ⟨_, _, _, h2⟩

/-- A last segment has the session pass the transfer up, whatever its size. -/
lemma reaches_end
    (h : (receiving tls).Reaches (fun _ _ => True) (holding (some ⟨7, data⟩) out dec wit, up)) :
    ∃ q : Sending Unit × List Transfer, (receiving tls).Reaches (fun _ _ => True) q ∧
      ⟨7, data⟩ ∈ q.2 := by
  have h1 := Reaches.read h (.xferSegment (piece true [])) (yields_piece true (Nat.zero_le _)) trivial rfl rfl
  have hup : (holding (some ⟨7, data⟩) out dec wit).passedUp tls
      (.branch (.read (.ok (.xferSegment (piece true []))))) = [⟨7, data ++ []⟩] := rfl
  rw [hup, append_nil] at h1
  exact ⟨_, h1, mem_append_right _ (mem_singleton.mpr rfl)⟩

/-- A peer that does not end its transfer fills the session with as many segments as it likes. -/
lemma reaches_filled (n : Nat) : ∃ up out dec wit, (receiving tls).Reaches (fun _ _ => True)
    (holding (some ⟨7, List.replicate ((n + 1) * maxSegmentMru) 0⟩) out dec wit, up) := by
  have hlen : (List.replicate maxSegmentMru (0 : UInt8)).length ≤ maxSegmentMru := by rw [length_replicate]
  induction n with
  | zero =>
    have h0 : (system tls).Reaches (fun _ _ => True) (established : Sending Unit) :=
      reaches_established (fun _ => ⟨trivial, trivial⟩) fun _ _ _ _ => trivial
    obtain ⟨up, h⟩ := Reaches.logged h0
    obtain ⟨out, dec, wit, h⟩ := reaches_more h (.inr ⟨rfl, rfl⟩) hlen
    refine ⟨up, out, dec, wit, ?_⟩
    rwa [nil_append] at h
  | succ => grind [reaches_more, replicate_append_replicate]

/-- Eleven full segments are more than a session has announced to take: it keeps them, and
passes them up when one with END follows. -/
theorem segments_exceed : (∃ q : Sending Unit × List Transfer,
      (receiving ⟨true, fun _ => true⟩).Reaches (fun _ _ => True) q ∧ maxTransferMru < q.1.session.buffered) ∧
    ∃ q : Sending Unit × List Transfer,
      (receiving ⟨true, fun _ => true⟩).Reaches (fun _ _ => True) q ∧ ∃ t ∈ q.2, maxTransferMru < t.data.length := by
  obtain ⟨up, out, dec, wit, h⟩ := reaches_filled 10
  have hlarge : maxTransferMru < (List.replicate ((10 + 1) * maxSegmentMru) (0 : UInt8)).length := by
    rw [length_replicate]
    decide
  obtain ⟨q, hq, ht⟩ := reaches_end h
  exact ⟨⟨_, h, by rwa [buffered_holding]⟩, q, hq, _, ht, hlarge⟩

end Sending

end Dtn.Tcpcl
