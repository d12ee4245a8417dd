import Dtn.Proof.Tcpcl.Framing
import Dtn.Proof.Tcpcl.Turn

/-!
# The state machine does not panic

`Sound sm c st` says what the machine `sm` and the codec `c` know in the state
`st`: which headers and session parameters have been exchanged, and that the
position of a transfer can be moved on. Each method keeps it and does not
panic in a state where the session calls it (`sendMessage_sound`,
`decodeMessage_sound`), given that what is read is what the machine `Expects`.
So no run of the session with expected messages panics (`turn_ne_panic`).
-/

namespace Dtn.Tcpcl

open Outcome Option StateMachine

variable {ε ρ : Type}
variable {tt : TransferTracker} {i : Interest} {m : Messages} {r : Except Errors Messages}

/-! ## Segments -/

/-- A transfer that can be sent on in segments of `mru` bytes; a vector has no more than `isizeMax` bytes. -/
structure TransferTracker.Ok (mru : UInt64) (tt : TransferTracker) : Prop where
  pos_le : tt.pos ≤ tt.transfer.data.length
  length_le : tt.transfer.data.length ≤ isizeMax
  mru_le : tt.pos ≠ 0 → tt.pos < tt.transfer.data.length → mru.toNat ≤ tt.pos

namespace StateMachine

/-- The position behind the next segment. -/
def endPos (mru : UInt64) (tt : TransferTracker) : Nat := min (tt.pos + mru.toNat) tt.transfer.data.length

/-- The next segment. -/
def segmentOf (mru : UInt64) (tt : TransferTracker) : XferSegment :=
  .new ⟨endPos mru tt == tt.transfer.data.length, tt.pos == 0⟩ tt.transfer.id
    ((tt.transfer.data.drop tt.pos).take (endPos mru tt - tt.pos))

/-- The sum in `send_message` does not wrap. -/
lemma nextSegment_eq_ok (h : tt.Ok mru) (hpos : tt.pos ≠ tt.transfer.data.length) :
    (nextSegment mru tt : Outcome ε _) = .ok (segmentOf mru tt, endPos mru tt) := by
  have hle := h.pos_le
  have hmru := mru.toNat_lt
  have hwrap : tt.pos + mru.toNat < 2 ^ 64 := by
    have hlength_le := h.length_le
    have hmru_le := h.mru_le
    grind [isizeMax]
  have hend : min ((tt.pos + mru.toNat) % 2 ^ 64) tt.transfer.data.length = endPos mru tt := by
    rw [Nat.mod_eq_of_lt hwrap, endPos]
  have hge : tt.pos ≤ endPos mru tt := by rw [endPos]; omega
  simp only [nextSegment, hend, if_pos hge, segmentOf]

lemma endPos_ok (h : tt.Ok mru) : { tt with pos := endPos mru tt }.Ok mru := by
  refine ⟨Nat.min_le_right _ _, h.length_le, fun _ hlt => ?_⟩
  have hlt' : endPos mru tt < tt.transfer.data.length := hlt
  change mru.toNat ≤ endPos mru tt
  rw [endPos] at hlt' ⊢
  omega

end StateMachine

/-! ## What the machine knows -/

/-- What the two parties have told each other. -/
structure Exchanged where
  myContactHeader : Option ContactHeader
  peerContactHeader : Option ContactHeader
  mySessInit : Option SessInit
  peerSessInit : Option SessInit

def StateMachine.exchanged (sm : StateMachine) : Exchanged :=
  ⟨sm.myContactHeader, sm.peerContactHeader, sm.mySessInit, sm.peerSessInit⟩

/-- Both contact headers are known, and the codec is past the peer's. -/
structure Headers (x : Exchanged) (done : Bool) : Prop where
  done : done = true
  my : x.myContactHeader.isSome
  peer : x.peerContactHeader.isSome

/-- So are both session initialisations. -/
structure Inits (x : Exchanged) (done : Bool) : Prop extends Headers x done where
  mySessInit : x.mySessInit.isSome
  peerSessInit : x.peerSessInit.isSome

/-- What holds in each state. -/
def Sound (x : Exchanged) (done : Bool) : States → Prop
  | .activeSendContactHeader | .passiveWaitContactHeader => done = false
  | .activeWaitContactHeader => done = false ∧ x.myContactHeader.isSome
  | .passiveSendContactHeader => done = true ∧ x.peerContactHeader.isSome
  | .activeSendSessInit | .passiveWaitSessInit | .sendMsgReject _ _ | .connectionClose => Headers x done
  | .activeWaitSessInit => Headers x done ∧ x.mySessInit.isSome
  | .passiveSendSessInit => Headers x done ∧ x.peerSessInit.isSome
  | .sessionEstablished | .sendXferAck _ | .sendSessTerm _ | .waitSessTerm => Inits x done
  | .sendXferSegments tt | .sendXferSegmentsAndAck tt _ => Inits x done ∧ ∀ si ∈ x.peerSessInit, tt.Ok si.segmentMru
  | .sendKeepalive s => Inits x done ∧ Sound x done s
  | .shouldNeverExist => False

variable {sm : StateMachine} {done : Bool} {c c' : Codec}

/-! ## Sending -/

namespace StateMachine

/-- A state that is to write can, and its message is a step forward. -/
lemma sendMessage_sound (h : Sound sm.exchanged done sm.state) (hi : (sm.getInterests : Outcome ε _) = .ok i)
    (hw : i.writable = true) :
    ∃ sm1 m sm2, (sm.sendMessage : Outcome ε _) = .ok (sm1, some m) ∧ (sm1.sendComplete : Outcome ε _) = .ok sm2 ∧
      Sound sm2.exchanged done sm2.state ∧ (Inits sm.exchanged done → Inits sm2.exchanged done) := by
  obtain ⟨st, _, _, _, _, _, _, peerSi, terminating⟩ := sm
  cases st with
  | activeSendContactHeader =>
    exact ⟨_, _, _, rfl, rfl, ⟨h, rfl⟩, fun hi => ⟨⟨hi.done, rfl, hi.peer⟩, hi.mySessInit, hi.peerSessInit⟩⟩
  | passiveSendContactHeader =>
    exact ⟨_, _, _, rfl, rfl, ⟨h.1, rfl, h.2⟩, fun hi => ⟨⟨hi.done, rfl, hi.peer⟩, hi.mySessInit, hi.peerSessInit⟩⟩
  | activeSendSessInit =>
    exact ⟨_, _, _, rfl, rfl, ⟨⟨h.done, h.my, h.peer⟩, rfl⟩,
      fun hi => ⟨⟨hi.done, hi.my, hi.peer⟩, rfl, hi.peerSessInit⟩⟩
  | passiveSendSessInit =>
    exact ⟨_, _, _, rfl, rfl, ⟨⟨h.1.done, h.1.my, h.1.peer⟩, rfl, h.2⟩,
      fun hi => ⟨⟨hi.done, hi.my, hi.peer⟩, rfl, hi.peerSessInit⟩⟩
  | sendXferAck | sendXferSegmentsAndAck | sendMsgReject => exact ⟨_, _, _, rfl, rfl, h, id⟩
  | sendXferSegments tt =>
    cases hi
    have hlt : tt.pos < tt.transfer.data.length := of_decide_eq_true hw
    obtain ⟨si, rfl⟩ : ∃ si, peerSi = some si := isSome_iff_exists.mp h.1.peerSessInit
    have hok : tt.Ok si.segmentMru := h.2 si rfl
    have hne : tt.pos ≠ tt.transfer.data.length := Nat.ne_of_lt hlt
    have hsi : (unwrap (some si) : Outcome ε _) = .ok si := rfl
    simp only [sendMessage, hsi, ok_bind, if_neg hne, nextSegment_eq_ok hok hne]
    by_cases hend : endPos si.segmentMru tt = tt.transfer.data.length ∧ endPos si.segmentMru tt = tt.posAcked
    · exact ⟨_, _, _, rfl, if_pos hend, h.1, id⟩
    · refine ⟨_, _, _, rfl, if_neg hend, ⟨h.1, ?_⟩, id⟩
      rintro si' ⟨⟩
      exact endPos_ok hok
  | sendKeepalive => exact ⟨_, _, _, rfl, rfl, h.2, id⟩
  | sendSessTerm =>
    cases terminating with
    | true => exact ⟨_, _, _, rfl, rfl, Inits.toHeaders h, id⟩
    | false => exact ⟨_, _, _, rfl, rfl, h, id⟩
  | shouldNeverExist => cases h
  | _ =>
    cases hi
    try cases hw

end StateMachine

/-! ## Receiving -/

/-- What the framed reader hands to the session, from a buffer or from the socket, and the codec it leaves behind. -/
inductive Codec.Yields (c : Codec) : Except Errors Messages → Codec → Prop where
  | message {src rest : List UInt8} {m : Messages} {c' : Codec} (h : c.decode src = .ok (some m, c', rest)) :
      Yields c (.ok m) c'
  | error (h : c.decode src = .err e) : Yields c (.error e) c
  | io : Yields c (.error .ioError) c

namespace Codec

variable {src rest : List UInt8}

lemma decode_of_header (hc : c.contactHeaderDone = false) (src : List UInt8) : c.decode src =
    ContactHeader.decode src >>= fun (m, src) =>
      .ok (m.map .contactHeader, { c with contactHeaderDone := m.isSome }, src) := by
  unfold decode
  rw [hc]
  rfl

lemma decode_contactHeader (h : c.decode src = .ok (some m, c', rest))
    (hc : c.contactHeaderDone = false) : (∃ ch, m = .contactHeader ch) ∧ c'.contactHeaderDone = true := by
  rw [decode_of_header hc] at h
  obtain ⟨⟨o, _⟩, -, h⟩ := bind_eq_ok.mp h
  cases o with
  | none => cases h
  | some ch =>
    cases h
    exact ⟨⟨ch, rfl⟩, rfl⟩

lemma decodeCurrent_eq_ok (h : decodeCurrent t src = .ok (some m, c', rest)) :
    (∀ ch, m ≠ .contactHeader ch) ∧ c'.contactHeaderDone = true := by
  obtain ⟨⟨_, _⟩, ho, h⟩ := bind_eq_ok.mp h
  cases h
  refine ⟨?_, rfl⟩
  rintro ch rfl
  cases t <;>
  · obtain ⟨o', _, -, ho'⟩ := Parser.bind_eq_ok.mp ho
    cases o' <;> cases ho'

/-- Past the contact header there is no other. -/
lemma decode_message (h : c.decode src = .ok (some m, c', rest))
    (hc : c.contactHeaderDone = true) : (∀ ch, m ≠ .contactHeader ch) ∧ c'.contactHeaderDone = true := by
  unfold decode at h
  simp only [hc, Bool.not_true, Bool.false_eq_true, if_false] at h
  split at h
  · cases h
  · split at h
    · exact decodeCurrent_eq_ok h
    · cases h
  · exact decodeCurrent_eq_ok h

lemma decode_header_err (h : c.decode src = .err e) (hc : c.contactHeaderDone = false) : e = .invalidHeader := by
  have herr : ContactHeader.decode src = .err e := by
    rw [decode_of_header hc] at h
    rcases hd : ContactHeader.decode src with ⟨_, _⟩ | e' | _
    · rw [hd] at h
      cases h
    · rw [hd] at h
      cases h
      rfl
    · rw [hd] at h
      cases h
  unfold ContactHeader.decode at herr
  split at herr
  · cases herr
  · rename_i hlen
    rw [Parser.bind_apply, Parser.get, if_pos (by omega), ok_bind] at herr
    split at herr
    · cases herr
      rfl
    · rw [Parser.bind_apply, getU8_of_le (by simp only [List.length_drop]; omega), ok_bind, Parser.bind_apply,
        getU8_of_le (by simp only [List.length_drop]; omega)] at herr
      cases herr

/-- Past the contact header, the reader hands over anything but another one. -/
lemma Yields.past_header (hy : c.Yields r c') (hc : c.contactHeaderDone = true) :
    (∀ ch, r ≠ .ok (.contactHeader ch)) ∧ c'.contactHeaderDone = true := by
  cases hy with
  | message => grind [decode_message]
  | error | io => exact ⟨nofun, hc⟩

end Codec

namespace StateMachine

/-- What the machine counts on when it reads: no I/O error before the contact header,
and acknowledgements of the transfer it is sending. -/
def Expects (sm : StateMachine) (r : Except Errors Messages) : Prop :=
  (sm.state = .activeWaitContactHeader ∨ sm.state = .passiveWaitContactHeader → r ≠ .error .ioError) ∧
    ∀ tt xa, sm.state = .sendXferSegments tt → r = .ok (.xferAck xa) → xa.transferId = tt.transfer.id

/-- The peer's contact header, or something that is none. -/
lemma decodeContactHeader_sound (hc : c.contactHeaderDone = false) (hy : c.Yields r c') (hr : r ≠ .error .ioError)
    (next : States) :
    (∃ ch, (sm.decodeContactHeader r next : Outcome ε _) =
        .ok ({ sm with peerContactHeader := some ch, state := next }, .ok (.contactHeader ch)) ∧
      c'.contactHeaderDone = true) ∨
    ((sm.decodeContactHeader r next : Outcome ε _) = .ok (sm, .error .doesNotSpeakTCPCL) ∧ c' = c) := by
  cases hy with
  | message h =>
    obtain ⟨⟨ch, rfl⟩, hc'⟩ := Codec.decode_contactHeader h hc
    exact .inl ⟨ch, rfl, hc'⟩
  | error h =>
    cases Codec.decode_header_err h hc
    exact .inr ⟨rfl, rfl⟩
  | io => exact absurd rfl hr

/-- A call of `decode_message` that goes well: the machine is sound, a segment is
one the machine can acknowledge, and the contact headers are there with a session initialisation. -/
def GoodRead (sm : StateMachine) (done : Bool) (o : Outcome ε Decoded) : Prop :=
  ∃ sm' res, o = .ok (sm', res) ∧ Sound sm'.exchanged done sm'.state ∧
    (Inits sm.exchanged done → Inits sm'.exchanged done) ∧
    (∀ x, res = .ok (.xferSegment x) → sm'.state = .sessionEstablished ∨ ∃ tt, sm'.state = .sendXferSegments tt) ∧
    ∀ si, res = .ok (.sessInit si) → Headers sm'.exchanged done

lemma goodRead_same (h : Sound sm.exchanged done sm.state) (hx : ∀ x, res ≠ .ok (.xferSegment x))
    (hsi : ∀ si, res ≠ .ok (.sessInit si)) : GoodRead sm done (.ok (sm, res) : Outcome ε _) :=
  ⟨sm, res, rfl, h, id, fun x hr => absurd hr (hx x), fun si hr => absurd hr (hsi si)⟩

lemma goodRead_reject (h : Headers sm.exchanged done) (r : MsgReject.ReasonCode) (t : UInt8) (e : SessionErrors) :
    GoodRead sm done (.ok ({ sm with state := .sendMsgReject r t }, .error e) : Outcome ε _) :=
  ⟨_, _, rfl, h, id, nofun, nofun⟩

lemma goodRead_inappropriate (h : Headers sm.exchanged done) (hm : ∀ ch, m ≠ .contactHeader ch) :
    GoodRead sm done (sm.inappropriate m : Outcome ε _) := by
  obtain ⟨t, ht⟩ : ∃ t, (m.getMessageType : Outcome ε _) = .ok t := by
    cases m with
    | contactHeader ch => exact absurd rfl (hm ch)
    | _ => exact ⟨_, rfl⟩
  rw [inappropriate, ht]
  exact goodRead_reject h _ _ _

/-- An acknowledgement of the right transfer moves it on or ends it. -/
lemma goodRead_acknowledge (hst : sm.state = .sendXferSegments tt) (h : Sound sm.exchanged done sm.state)
    (hid : xa.transferId = tt.transfer.id) :
    GoodRead sm done (sm.acknowledge xa tt .sendXferSegments .sessionEstablished : Outcome ε _) := by
  rw [hst] at h
  have hok : ∀ si ∈ sm.peerSessInit, { tt with posAcked := xa.acknowlegedLength.toNat }.Ok si.segmentMru :=
    fun si hsi => ⟨(h.2 si hsi).pos_le, (h.2 si hsi).length_le, (h.2 si hsi).mru_le⟩
  rw [acknowledge, if_neg (fun hne => hne hid.symm)]
  dsimp only
  split
  · exact ⟨_, _, rfl, ⟨h.1, hok⟩, id, nofun, nofun⟩
  · split
    · exact ⟨_, _, rfl, h.1, id, nofun, nofun⟩
    · exact ⟨_, _, rfl, ⟨h.1, hok⟩, id, nofun, nofun⟩

/-- Any message but a contact header, and any error, in the states of a session that read. -/
lemma decodeInSession_sound (h : Sound sm.exchanged done sm.state) (hi : (sm.getInterests : Outcome ε _) = .ok i)
    (hread : i.readable = true) (hd : done = true) (hr : ∀ ch, r ≠ .ok (.contactHeader ch)) (he : sm.Expects r) :
    GoodRead sm done (sm.decodeInSession r : Outcome ε _) := by
  have hh : Headers sm.exchanged done := by
    obtain ⟨st, _, _, _, _, _, _, _, _⟩ := sm
    cases st with
    | passiveWaitSessInit => exact h
    | activeWaitSessInit => exact h.1
    | sessionEstablished | waitSessTerm => exact Inits.toHeaders h
    | sendXferSegments => exact h.1.toHeaders
    | activeWaitContactHeader => exact absurd (h.1.symm.trans hd) (by decide)
    | passiveWaitContactHeader => exact absurd ((show done = false from h).symm.trans hd) (by decide)
    | _ =>
      cases hi
      try cases hread
  rcases r with e | m
  · by_cases hn : ∃ n, e = .invalidMessageType n
    · obtain ⟨n, rfl⟩ := hn
      exact goodRead_reject hh _ _ _
    · have hsame : (sm.decodeInSession (.error e) : Outcome ε _) = .ok (sm, .error (.messageError e)) := by
        cases e with
        | invalidMessageType n => exact absurd ⟨n, rfl⟩ hn
        | _ => rfl
      rw [hsame]
      exact goodRead_same h (by rintro _ ⟨⟩) (by rintro _ ⟨⟩)
  · cases m with
    | contactHeader ch => exact absurd rfl (hr ch)
    | keepalive =>
      exact goodRead_same h (by rintro _ ⟨⟩) (by rintro _ ⟨⟩)
    | msgReject =>
      exact goodRead_same h (by rintro _ ⟨⟩) (by rintro _ ⟨⟩)
    | xferRefuse => exact goodRead_inappropriate hh (by rintro _ ⟨⟩)
    | sessInit si =>
      simp only [decodeInSession]
      split
      · rename_i hst
        rw [hst] at h
        have hinits : Inits { sm.exchanged with peerSessInit := some si } done := ⟨⟨hh.done, hh.my, hh.peer⟩, h.2, rfl⟩
        exact ⟨_, _, rfl, hinits, fun _ => hinits, by rintro _ ⟨⟩, fun _ _ => hinits.toHeaders⟩
      · have hheaders : Headers { sm.exchanged with peerSessInit := some si } done := ⟨hh.done, hh.my, hh.peer⟩
        exact ⟨_, _, rfl, ⟨hheaders, rfl⟩, fun hi => ⟨hheaders, hi.mySessInit, rfl⟩,
          by rintro _ ⟨⟩, fun _ _ => hheaders⟩
      · exact goodRead_inappropriate hh (by rintro _ ⟨⟩)
    | sessTerm =>
      simp only [decodeInSession]
      split
      · exact ⟨_, _, rfl, hh, id, by rintro _ ⟨⟩, by rintro _ ⟨⟩⟩
      · rename_i hst
        rw [hst] at h
        exact ⟨_, _, rfl, h, id, by rintro _ ⟨⟩, by rintro _ ⟨⟩⟩
      · rename_i hst
        rw [hst] at h
        exact ⟨_, _, rfl, h.1, id, by rintro _ ⟨⟩, by rintro _ ⟨⟩⟩
      · rename_i hst
        rw [hst] at h
        exact ⟨_, _, rfl, h.1, id, by rintro _ ⟨⟩, by rintro _ ⟨⟩⟩
      · exact goodRead_inappropriate hh (by rintro _ ⟨⟩)
    | xferSegment =>
      simp only [decodeInSession]
      split
      · rename_i hst
        exact ⟨_, _, rfl, h, id, fun _ _ => .inl hst, by rintro _ ⟨⟩⟩
      · rename_i tt hst
        exact ⟨_, _, rfl, h, id, fun _ _ => .inr ⟨tt, hst⟩, by rintro _ ⟨⟩⟩
      · grind [getInterests]
      · exact goodRead_inappropriate hh (by rintro _ ⟨⟩)
    | xferAck xa =>
      simp only [decodeInSession]
      split
      · rename_i tt hst
        exact goodRead_acknowledge hst h (he.2 tt xa hst rfl)
      · grind [getInterests]
      · exact goodRead_inappropriate hh (by rintro _ ⟨⟩)

/-- Whatever arrives, if it is what the machine counts on, the call goes well. -/
lemma decodeMessage_sound (h : Sound sm.exchanged c.contactHeaderDone sm.state)
    (hi : (sm.getInterests : Outcome ε _) = .ok i) (hread : i.readable = true) (hy : c.Yields r c')
    (he : sm.Expects r) : GoodRead sm c'.contactHeaderDone (sm.decodeMessage r : Outcome ε _) := by
  by_cases hc : c.contactHeaderDone = true
  · -- the codec is past the contact header, and so is the machine
    obtain ⟨hr, hc'⟩ := hy.past_header hc
    rw [hc, ← hc'] at h
    have hin : (sm.decodeMessage r : Outcome ε _) = sm.decodeInSession r := by
      obtain ⟨st, canTls, nodeId, lastId, myCh, peerCh, mySi, peerSi, terminating⟩ := sm
      cases st with
      | activeWaitContactHeader => exact absurd (h.1.symm.trans hc') (by decide)
      | passiveWaitContactHeader => exact absurd ((show c'.contactHeaderDone = false from h).symm.trans hc') (by decide)
      | activeWaitSessInit | passiveWaitSessInit | waitSessTerm | sessionEstablished | sendXferSegments => rfl
      | _ =>
        cases hi
        try cases hread
    rw [hin]
    exact decodeInSession_sound h hi hread hc' hr he
  · have hc : c.contactHeaderDone = false := Bool.not_eq_true _ ▸ hc
    have hcontra : ∀ {x}, ¬Headers x c.contactHeaderDone := fun hh => absurd (hc.symm.trans hh.done) (by decide)
    obtain ⟨st, _, _, _, _, _, _, _, _⟩ := sm
    cases st with
    | activeWaitContactHeader =>
      rcases decodeContactHeader_sound hc hy (he.1 (.inl rfl)) .activeSendSessInit with ⟨ch, hd, hc'⟩ | ⟨hd, hcc⟩
      · refine ⟨_, _, hd, ⟨hc', h.2, rfl⟩, fun hi => ⟨⟨hi.done, hi.my, rfl⟩, hi.mySessInit, hi.peerSessInit⟩,
          nofun, nofun⟩
      · exact ⟨_, _, hd, hcc ▸ h, id, nofun, nofun⟩
    | passiveWaitContactHeader =>
      rcases decodeContactHeader_sound hc hy (he.1 (.inr rfl)) .passiveSendContactHeader with ⟨_, hd, hc'⟩ | ⟨hd, hcc⟩
      · refine ⟨_, _, hd, ⟨hc', rfl⟩, fun hi => ⟨⟨hi.done, hi.my, rfl⟩, hi.mySessInit, hi.peerSessInit⟩, nofun, nofun⟩
      · exact ⟨_, _, hd, hcc ▸ h, id, nofun, nofun⟩
    | passiveWaitSessInit => exact absurd h hcontra
    | activeWaitSessInit => exact absurd h.1 hcontra
    | sessionEstablished | waitSessTerm => exact absurd (Inits.toHeaders h) hcontra
    | sendXferSegments => exact absurd h.1.toHeaders hcontra
    | _ =>
      cases hi
      try cases hread

end StateMachine

/-! ## The session -/

lemma StateMachine.headers_of_done (h : Sound sm.exchanged done sm.state) (hd : sm.contactHeaderDone = true) :
    Headers sm.exchanged done := by
  obtain ⟨st, _, _, _, _, _, _, _, _⟩ := sm
  cases st with
  | activeSendSessInit | passiveWaitSessInit | sendMsgReject | connectionClose => exact h
  | activeWaitSessInit | passiveSendSessInit => exact h.1
  | sessionEstablished | sendXferAck | sendSessTerm | waitSessTerm => exact Inits.toHeaders h
  | sendXferSegments | sendXferSegmentsAndAck | sendKeepalive => exact h.1.toHeaders
  | shouldNeverExist => cases h
  | _ => cases hd

lemma StateMachine.inits_of_established (h : Sound sm.exchanged done sm.state) (he : sm.isEstablished = true) :
    Inits sm.exchanged done := by
  have hst := isEstablished_iff.mp he
  rwa [hst] at h

lemma StateMachine.shouldUseTls_eq_ok (h : Headers sm.exchanged done) :
    ∃ b, (sm.shouldUseTls : Outcome ε _) = .ok b := by
  obtain ⟨my, hmy⟩ := isSome_iff_exists.mp h.my
  obtain ⟨peer, hpeer⟩ := isSome_iff_exists.mp h.peer
  have hmy' : sm.myContactHeader = some my := hmy
  have hpeer' : sm.peerContactHeader = some peer := hpeer
  rw [shouldUseTls, hmy', hpeer']
  exact ⟨_, rfl⟩

namespace Session

variable {s s' : Session ρ} {tls : Tls} {es : List (Effect ρ)}
variable {ev : Event ρ}

/-- The machine is sound, and keepalives are sent in a session only. -/
structure Inv (s : Session ρ) (done : Bool) : Prop where
  sound : Sound s.statemachine.exchanged done s.statemachine.state
  keepalive : s.initializedKeepalive = true → Inits s.statemachine.exchanged done

lemma initTls_inv (tls : Tls) (h : s.Inv done) :
    s.initTls tls = .err .sslError ∨ ∃ s', s.initTls tls = .ok s' ∧ s'.Inv done := by
  unfold initTls
  split
  · rename_i hcond
    rw [Bool.and_eq_true] at hcond
    obtain ⟨_, hb⟩ := shouldUseTls_eq_ok (ε := Exit) (headers_of_done h.sound hcond.2)
    rw [hb, ok_bind]
    split
    · exact .inl rfl
    · exact .inr ⟨_, rfl, h.sound, h.keepalive⟩
  · exact .inr ⟨_, rfl, h⟩

lemma notifyEstablished_inv (h : s.Inv done) : ∃ s' es, s.notifyEstablished = .ok (s', es) ∧ s'.Inv done := by
  unfold notifyEstablished
  split
  · rename_i hcond
    rw [Bool.and_eq_true] at hcond
    obtain ⟨si, hsi⟩ := isSome_iff_exists.mp (inits_of_established h.sound hcond.1).peerSessInit
    have hsi' : s.statemachine.peerSessInit = some si := hsi
    rw [StateMachine.getPeerNodeId, StateMachine.getPeerMru, if_pos hcond.1, if_pos hcond.1, hsi']
    exact ⟨_, _, rfl, h.sound, h.keepalive⟩
  · exact ⟨_, _, rfl, h⟩

lemma getKeepaliveInterval_eq_ok (h : Inits sm.exchanged done) (he : sm.isEstablished = true) :
    ∃ o, (sm.getKeepaliveInterval : Outcome ε _) = .ok o := by
  obtain ⟨my, hmy⟩ := isSome_iff_exists.mp h.mySessInit
  obtain ⟨peer, hpeer⟩ := isSome_iff_exists.mp h.peerSessInit
  have hmy' : sm.mySessInit = some my := hmy
  have hpeer' : sm.peerSessInit = some peer := hpeer
  rw [StateMachine.getKeepaliveInterval, if_pos he, hmy', hpeer']
  exact ⟨_, rfl⟩

lemma initKeepalive_inv (h : s.Inv done) : ∃ s', s.initKeepalive = .ok s' ∧ s'.Inv done := by
  unfold initKeepalive
  split
  · rename_i hcond
    rw [Bool.and_eq_true] at hcond
    have hinits := inits_of_established h.sound hcond.2
    obtain ⟨_, ho⟩ := getKeepaliveInterval_eq_ok (ε := Exit) hinits hcond.2
    rw [ho]
    exact ⟨_, rfl, h.sound, fun _ => hinits⟩
  · exact ⟨_, rfl, h⟩

lemma answerTransfer_inv (h : s.Inv done) : s.answerTransfer.1.Inv done := by
  unfold answerTransfer
  split
  · split
    · exact ⟨h.sound, h.keepalive⟩
    · exact h
  · exact h

lemma loopTop_inv (tls : Tls) (h : s.Inv done) :
    s.loopTop tls = .err .sslError ∨ ∃ s' es, s.loopTop tls = .ok (s', es) ∧ s'.Inv done := by
  unfold loopTop
  rcases initTls_inv tls h with he | ⟨s1, h1, hinv1⟩
  · rw [he]
    exact .inl rfl
  · obtain ⟨_, _, h2, hinv2⟩ := notifyEstablished_inv hinv1
    obtain ⟨_, h3, hinv3⟩ := initKeepalive_inv hinv2
    simp only [h1, h2, h3, ok_bind]
    exact .inr ⟨_, _, rfl, answerTransfer_inv hinv3⟩

lemma acknowledge_goes (h : s.Inv done)
    (hst : s.statemachine.state = .sessionEstablished ∨ ∃ tt, s.statemachine.state = .sendXferSegments tt)
    (x : XferSegment) (t : Transfer) : ∃ s' es, s.acknowledge x t = .ok (s', es) ∧ s'.Inv done := by
  have hsound := h.sound
  obtain ⟨sm, hack, hs, hx⟩ : ∃ sm, (s.statemachine.sendAck (x.toXferAck (UInt64.ofNat t.data.length)) :
      Outcome SessionErrors _) = .ok sm ∧ Sound sm.exchanged done sm.state ∧ sm.exchanged =
        s.statemachine.exchanged := by
    rcases hst with hst | ⟨tt, hst⟩
    all_goals
      rw [hst] at hsound
      rw [StateMachine.sendAck, hst]
      exact ⟨_, rfl, hsound, rfl⟩
  rw [acknowledge, hack, ok_bind]
  split <;> exact ⟨_, _, rfl, hs, fun hk => hx ▸ h.keepalive hk⟩

lemma receiveSegment_goes (h : s.Inv done)
    (hst : s.statemachine.state = .sessionEstablished ∨ ∃ tt, s.statemachine.state = .sendXferSegments tt)
    (x : XferSegment) : ∃ s' es, s.receiveSegment x = .ok (s', es) ∧ s'.Inv done := by
  unfold receiveSegment
  split
  · split
    · exact acknowledge_goes h hst _ _
    · exact ⟨_, _, rfl, h⟩
  · exact acknowledge_goes h hst _ _

/-- What can end a session that reads `r`: the machine, the peer's `MSG_REJECT` or its certificate. -/
def FailsOn (s : Session ρ) (r : Except Errors Messages) (e : SessionErrors) : Prop :=
  e = .remoteRejected ∨ (∃ n, e = .tlsNameMissmatch n) ∨
    ∃ sm, (s.statemachine.decodeMessage r : Outcome SessionErrors _) = .ok (sm, .error e)

/-- Reading ends the session or keeps the invariant, for the codec as it is afterwards. -/
lemma readMessage_goes (tls : Tls) (h : s.Inv c.contactHeaderDone)
    (hi : (s.statemachine.getInterests : Outcome SessionErrors _) = .ok i) (hread : i.readable = true)
    (hy : c.Yields r c') (he : s.statemachine.Expects r) : (∃ e, s.readMessage tls r = .err e ∧ s.FailsOn r e) ∨
      ∃ s' es, s.readMessage tls r = .ok (s', es) ∧ s'.Inv c'.contactHeaderDone := by
  obtain ⟨sm, res, hd, hsound, hinits, hx, hsi⟩ := decodeMessage_sound h.sound hi hread hy he
  have hkeep : s.initializedKeepalive = true → Inits sm.exchanged c'.contactHeaderDone := by
    intro hk
    have hin := h.keepalive hk
    refine hinits ⟨⟨(hy.past_header hin.done).2, hin.my, hin.peer⟩, hin.mySessInit, hin.peerSessInit⟩
  have hinv : ({ s with statemachine := sm } : Session ρ).Inv c'.contactHeaderDone := ⟨hsound, hkeep⟩
  rw [readMessage, hd, ok_bind]
  rcases res with e | m
  · cases e with
    | messageError e =>
      cases e with
      | invalidMessageType => exact .inr ⟨_, _, rfl, hinv⟩
      | _ => exact .inl ⟨_, rfl, .inr (.inr ⟨_, hd⟩)⟩
    | doesNotSpeakTCPCL => exact .inl ⟨_, rfl, .inr (.inr ⟨_, hd⟩)⟩
    | _ => exact .inr ⟨_, _, rfl, hinv⟩
  · cases m with
    | sessInit si =>
      obtain ⟨_, hb⟩ := shouldUseTls_eq_ok (ε := SessionErrors) (hsi si rfl)
      dsimp only
      rw [hb, ok_bind]
      split
      · exact .inl ⟨_, rfl, .inr (.inl ⟨_, rfl⟩)⟩
      · exact .inr ⟨_, _, rfl, hinv⟩
    | xferSegment x => exact .inr (receiveSegment_goes hinv (hx x rfl) x)
    | msgReject => exact .inl ⟨_, rfl, .inl rfl⟩
    | _ => exact .inr ⟨_, _, rfl, hinv⟩

/-- The codec after an event that can happen: only a read moves it. A vector has at most `isizeMax` bytes. -/
def CodecAfter (c : Codec) : Event ρ → Codec → Prop
  | .read r, c' => c.Yields r c'
  | .transfer data _, c' => data.length ≤ isizeMax ∧ c' = c
  | _, c' => c' = c

/-- What is read is what the machine counts on. -/
def Expected (p : Session ρ × Codec) : Event ρ → Prop
  | .read r => p.1.statemachine.Expects r
  | _ => True

lemma transfer_goes (h : s.Inv done) (hest : s.statemachine.couldSendTransfer = true)
    (hlen : data.length ≤ isizeMax) : (∃ e, s.statemachine.sendTransfer data = .err e) ∨
      ∃ sm, s.statemachine.sendTransfer data = .ok sm ∧
        ∀ r, ({ s with statemachine := sm, transferResultSender := r } : Session ρ).Inv done := by
  have hin : Inits s.statemachine.exchanged done := inits_of_established h.sound hest
  have hst : s.statemachine.state = .sessionEstablished := by simpa [StateMachine.couldSendTransfer] using hest
  obtain ⟨si, hsi⟩ := isSome_iff_exists.mp hin.peerSessInit
  have hsi' : (unwrap s.statemachine.peerSessInit : Outcome TransferSendErrors _) = .ok si :=
    congrArg unwrap (show s.statemachine.peerSessInit = some si from hsi)
  simp only [StateMachine.sendTransfer, hsi', ok_bind, hst]
  split
  · exact .inl ⟨_, rfl⟩
  · refine .inr ⟨_, rfl, fun r => ⟨⟨hin, fun si' _ => ⟨Nat.zero_le _, hlen, fun h0 => absurd rfl h0⟩⟩, fun _ => hin⟩⟩

lemma closeIfIdle_goes (h : Sound sm.exchanged done sm.state) (idle : Bool) : ∃ sm', closeIfIdle sm idle = .ok sm' ∧
    Sound sm'.exchanged done sm'.state ∧ sm'.exchanged = sm.exchanged := by
  unfold closeIfIdle
  split
  · rename_i hest
    have hin := inits_of_established h hest
    obtain ⟨_, ho⟩ := getKeepaliveInterval_eq_ok (ε := Exit) hin hest
    rw [ho, ok_bind]
    split
    · rw [StateMachine.closeConnection, if_pos hest]
      exact ⟨_, rfl, hin, rfl⟩
    · exact ⟨_, rfl, h, rfl⟩
  · exact ⟨_, rfl, h, rfl⟩

/-- Each branch of the `select!` that is taken ends the session or keeps the invariant. -/
lemma branch_goes (tls : Tls) (h : s.Inv c.contactHeaderDone)
    (hi : ∀ {ε : Type}, (s.statemachine.getInterests : Outcome ε _) = .ok i) (hc : CodecAfter c ev c')
    (he : Expected (s, c) ev) : s.branch tls i ev = .ok none ∨
      (∃ e, s.branch tls i ev = .err e ∧ ∀ e', e = .tcpclError e' → ∃ r, ev = .read r ∧ i.readable = true ∧
        s.FailsOn r e') ∨
      ∃ s' es, s.branch tls i ev = .ok (some (s', es)) ∧ s'.Inv c'.contactHeaderDone := by
  cases ev with
  | read r =>
    simp only [branch]
    split
    · rename_i hread
      rcases readMessage_goes tls h hi hread hc he with ⟨_, hr, hfail⟩ | ⟨_, _, hr, hinv⟩
      · rw [hr]
        exact .inr (.inl ⟨_, rfl, fun e' he' => ⟨r, rfl, hread, by cases he'; exact hfail⟩⟩)
      · rw [hr]
        exact .inr (.inr ⟨_, _, rfl, hinv⟩)
    · exact .inl rfl
  | eof | sendFailed => grind [branch]
  | send =>
    cases hc
    simp only [branch]
    split
    · rename_i hw
      obtain ⟨_, _, _, h1, h2, hsound, hinits⟩ := sendMessage_sound h.sound (hi (ε := Exit)) hw
      simp only [h1, ok_bind, h2]
      exact .inr (.inr ⟨_, _, rfl, hsound, fun hk => hinits (h.keepalive hk)⟩)
    · exact .inl rfl
  | transfer =>
    obtain ⟨_, rfl⟩ := hc
    simp only [branch]
    split
    · grind [transfer_goes]
    · exact .inl rfl
  | tick idle =>
    cases hc
    simp only [branch]
    split
    · obtain ⟨_, hsm, hsound, hx⟩ := closeIfIdle_goes h.sound idle
      rw [hsm, ok_bind]
      refine .inr (.inr ⟨_, _, rfl, ?_, ?_⟩)
      · by_cases hk : s.initializedKeepalive = true
        · simp only [hk, if_true]
          exact ⟨hx ▸ h.keepalive hk, hsound⟩
        · simp only [hk]
          exact hsound
      · intro hk
        have hk' : s.initializedKeepalive = true := hk
        simp only [hk', if_true]
        exact hx ▸ h.keepalive hk'
    · exact .inl rfl
  | close =>
    cases hc
    simp only [branch]
    split
    · rename_i hcond
      rw [Bool.and_eq_true] at hcond
      have hin := inits_of_established h.sound hcond.2
      rw [StateMachine.closeConnection, if_pos hcond.2]
      exact .inr (.inr ⟨_, _, rfl, hin, fun _ => hin⟩)
    · exact .inl rfl

lemma getInterests_eq_ok (h : Sound sm.exchanged done sm.state) (hc : sm.shouldClose = false) :
    ∃ i, ∀ {ε : Type}, (sm.getInterests : Outcome ε _) = .ok i := by
  obtain ⟨st, _, _, _, _, _, _, _, _⟩ := sm
  cases st with
  | connectionClose => cases hc
  | shouldNeverExist => cases h
  | _ => exact ⟨_, rfl⟩

/-- One time round the loop does not panic, and keeps the invariant. -/
lemma turn_goes (h : s.Inv c.contactHeaderDone) (hc : CodecAfter c ev c') (he : Expected (s, c) ev) :
    s.turn tls ev ≠ .panic ∧ ∀ s' es, s.turn tls ev = .ok (some (s', es)) → s'.Inv c'.contactHeaderDone := by
  unfold turn select
  by_cases hclose : s.statemachine.shouldClose = true
  · simp [hclose]
  · obtain ⟨_, hi⟩ := getInterests_eq_ok h.sound (Bool.not_eq_true _ ▸ hclose)
    simp only [hclose, hi, ok_bind]
    rcases branch_goes tls h hi hc he with hb | ⟨e, hb, -⟩ | ⟨s1, es1, hb, hinv⟩
    · simp [hb]
    · simp [hb]
    · rcases loopTop_inv tls hinv with ht | ⟨s2, es2, ht, hinv2⟩
      · simp [hb, ht]
      · simp_all

/-- A turn that ends the session with an error of the protocol has read something. -/
lemma turn_eq_tcpclError (h : s.Inv c.contactHeaderDone) (hc : CodecAfter c ev c') (he : Expected (s, c) ev)
    (ht : s.turn tls ev = .err (.tcpclError e)) :
    ∃ r i, ev = .read r ∧ (∀ {ε : Type}, (s.statemachine.getInterests : Outcome ε _) = .ok i) ∧ i.readable = true ∧
      s.FailsOn r e := by
  unfold turn select at ht
  by_cases hclose : s.statemachine.shouldClose = true
  · simp [hclose] at ht
  · obtain ⟨_, hi⟩ := getInterests_eq_ok h.sound (Bool.not_eq_true _ ▸ hclose)
    simp only [hclose, hi, ok_bind] at ht
    rcases branch_goes tls h hi hc he with hb | ⟨e', hb, hread⟩ | ⟨s1, es1, hb, hinv⟩
    · simp [hb] at ht
    · simp_all
    · rcases loopTop_inv tls hinv with ht' | ⟨s2, es2, ht', -⟩ <;> simp [hb, ht'] at ht

/-- A turn that does not panic has read what was expected. -/
lemma expected_of_turn (h : s.turn tls ev = .ok (some (s', es))) : Expected (s, c) ev := by
  cases ev with
  | read =>
    obtain ⟨_, _, _, _, hi, hb, -, -⟩ := turn_eq_ok h
    obtain ⟨hread, _, _, hd, -⟩ := branch_read_eq_ok hb
    have hr := decodeMessage_cases hi hread hd
    refine ⟨?_, ?_⟩
    · rintro hst rfl
      cases hr with
      | failed _ hhead =>
        rcases hst with hst | hst
        all_goals
          have := hhead ⟨4, false⟩
          rw [hst] at this
          cases this
    · rintro tt xa hst rfl
      cases hr with
      | unexpected hm =>
        rw [hst] at hm
        cases hm
      | badAck hst' hid | lastAck hst' hid | ack hst' hid => cases hst.symm.trans hst'; exact hid
  | _ => trivial

lemma turn_inv (h : s.Inv c.contactHeaderDone) (hc : CodecAfter c ev c')
    (ht : s.turn tls ev = .ok (some (s', es))) : s'.Inv c'.contactHeaderDone :=
  (turn_goes h hc (expected_of_turn ht)).2 s' es ht

/-- A session with its codec, from the start of the connection on, and everything that can happen to it. -/
def system (tls : Tls) : System (Session ρ × Codec) (Event ρ) where
  init p := ∃ nodeId canTls, p = (.new (.newActive nodeId canTls), .default) ∨
    p = (.new (.newPassive nodeId canTls), .default)
  step p ev p' := CodecAfter p.2 ev p'.2 ∧ ∃ es, p.1.turn tls ev = .ok (some (p'.1, es))

lemma reaches_inv (h : (system tls).Reaches Expected p) : p.1.Inv p.2.contactHeaderDone := by
  refine System.Reaches.invariant (fun p => p.1.Inv p.2.contactHeaderDone) ?_ ?_ h
  · rintro p ⟨nodeId, canTls, rfl | rfl⟩ <;> exact ⟨rfl, nofun⟩
  · rintro ⟨_, _⟩ _ ⟨_, _⟩ hinv - ⟨hc, _, ht⟩
    exact turn_inv hinv hc ht

/-- No run of the session in which everything that is read is expected panics. -/
theorem turn_ne_panic {s : Session ρ} {c c' : Codec} {ev : Event ρ} (h : (system tls).Reaches Expected (s, c))
    (hc : CodecAfter c ev c') (he : Expected (s, c) ev) : s.turn tls ev ≠ .panic :=
  (turn_goes (reaches_inv h) hc he).1

lemma Reaches.turn (h : (system tls).Reaches Expected (s, c)) (ev : Event ρ) (hc : CodecAfter c ev c')
    (ht : s.turn tls ev = .ok (some (s', es))) : (system tls).Reaches Expected (s', c') :=
  .step h (expected_of_turn ht) ⟨hc, es, ht⟩

lemma yields_contactHeader : Codec.default.Yields (.ok (.contactHeader ⟨4, false⟩)) ⟨true, none⟩ :=
  .message (show Codec.default.decode [0x64, 0x74, 0x6E, 0x21, 4, 0] = .ok (some _, _, []) by decide)

/-- The peer takes segments of one byte. -/
lemma yields_sessInit : Codec.Yields ⟨true, none⟩ (.ok (.sessInit ⟨60, 1, 10, "", []⟩)) ⟨true, none⟩ :=
  .message (show Codec.decode _ [7, 0, 60, 0, 0, 0, 0, 0, 0, 0, 1, 0, 0, 0, 0, 0, 0, 0, 10, 0, 0, 0, 0, 0, 0] =
    .ok (some _, _, []) by decide)

/-- The session that has sent the only segment of its transfer 0. -/
lemma reaches_sent : ∃ s s' : Session Unit, ∃ es, (system tls).Reaches Expected (s, ⟨true, none⟩) ∧
    s.turn tls (.read (.ok (.xferAck ⟨⟨false, false⟩, 0, 1⟩))) = .ok (some (s', es)) ∧
    s.turn tls (.read (.ok (.xferAck ⟨⟨false, false⟩, 7, 1⟩))) = .panic := by
  have h₀ : (system tls).Reaches Expected ((.new (.newActive "dtn://a" false) : Session Unit), .default) :=
    .init ⟨_, _, .inl rfl⟩
  have h1 := Reaches.turn h₀ .send rfl rfl
  have h2 := Reaches.turn h1 (.read (.ok (.contactHeader ⟨4, false⟩))) yields_contactHeader rfl
  have h3 := Reaches.turn h2 .send rfl rfl
  have h4 := Reaches.turn h3 (.read (.ok (.sessInit ⟨60, 1, 10, "", []⟩))) yields_sessInit rfl
  have h5 := Reaches.turn h4 (.transfer [1] ()) ⟨by decide, rfl⟩ rfl
  have h6 := Reaches.turn h5 .send rfl rfl
  exact ⟨_, _, _, h6, rfl, rfl⟩

/-- The contact header and the SESS_INIT of the peer are read, and then the acknowledgement of the transfer; nor is
there a panic when the session is closed after that. -/
theorem turn_acknowledged_ne_panic : ∃ s s' : Session Unit, ∃ es,
    (system ⟨true, fun _ => true⟩).Reaches Expected (s, ⟨true, none⟩) ∧
    s.turn ⟨true, fun _ => true⟩ (.read (.ok (.xferAck ⟨⟨false, false⟩, 0, 1⟩))) ≠ .panic ∧
    s.turn ⟨true, fun _ => true⟩ (.read (.ok (.xferAck ⟨⟨false, false⟩, 0, 1⟩))) = .ok (some (s', es)) ∧
    s'.turn ⟨true, fun _ => true⟩ .close ≠ .panic := by
  obtain ⟨s, s', es, h, hs', -⟩ := reaches_sent
  have hack : CodecAfter ⟨true, none⟩ (.read (.ok (.xferAck ⟨⟨false, false⟩, 0, 1⟩)) : Event Unit) ⟨true, none⟩ :=
    .message (show Codec.decode _ [2, 0, 0, 0, 0, 0, 0, 0, 0, 0, 0, 0, 0, 0, 0, 0, 0, 1] = .ok (some _, _, []) by
      decide)
  exact ⟨s, s', es, h, turn_ne_panic h hack (expected_of_turn hs'), hs',
    turn_ne_panic (Reaches.turn h _ hack hs') rfl trivial⟩

/-- A connection that breaks before the contact header makes the session panic, and so does an
acknowledgement for a transfer that is not the current one. -/
theorem turn_eq_panic_inputs :
    (∃ s : Session Unit, (system ⟨true, fun _ => true⟩).Reaches (fun _ _ => True) (s, .default) ∧
      CodecAfter .default (.read (.error .ioError) : Event Unit) .default ∧
      s.turn ⟨true, fun _ => true⟩ (.read (.error .ioError)) = .panic) ∧
    (∃ s : Session Unit, (system ⟨true, fun _ => true⟩).Reaches (fun _ _ => True) (s, ⟨true, none⟩) ∧
      CodecAfter ⟨true, none⟩ (.read (.ok (.xferAck ⟨⟨false, false⟩, 7, 1⟩)) : Event Unit) ⟨true, none⟩ ∧
      s.turn ⟨true, fun _ => true⟩ (.read (.ok (.xferAck ⟨⟨false, false⟩, 7, 1⟩))) = .panic) := by
  have hall {p : Session Unit × Codec} (h : (system ⟨true, fun _ => true⟩).Reaches Expected p) :
      (system ⟨true, fun _ => true⟩).Reaches (fun _ _ => True) p :=
    h.invariant _ (fun _ => .init) fun _ _ _ hs _ hstep => .step hs trivial hstep
  have h₀ : (system ⟨true, fun _ => true⟩).Reaches Expected
      ((.new (.newActive "dtn://a" false) : Session Unit), .default) := .init ⟨_, _, .inl rfl⟩
  obtain ⟨s, _, _, h, -, hpanic⟩ := reaches_sent
  have hack : Codec.Yields ⟨true, none⟩ (.ok (.xferAck ⟨⟨false, false⟩, 7, 1⟩)) ⟨true, none⟩ := .message
    (show Codec.decode _ [2, 0, 0, 0, 0, 0, 0, 0, 0, 7, 0, 0, 0, 0, 0, 0, 0, 1] = .ok (some _, _, []) by decide)
  exact ⟨⟨_, hall (Reaches.turn h₀ .send rfl rfl), .io, rfl⟩, s, hall h, hack, hpanic⟩

end Session

end Dtn.Tcpcl
