import Dtn.Proof.Tcpcl.Calls

/-!
# The segments of a transfer

`Call.segments` are the segments that were appended since a transfer was taken
over. In every run of the machine they are the part of the data up to the
position (`Sent`, `run_sent`); what a call does to the transfer is said once
(`Called.tracks`). So the transfer moves on with each segment and ends with one
that is marked as the last, if the peer takes segments of at least one byte and
there is a byte to send (`progresses_iff`).
-/

namespace Dtn.Tcpcl

open StateMachine List

open StateMachine (endPos segmentOf)

namespace Call

/-- The segments that were appended since the last transfer was taken over. -/
def segments (cs : List Call) : List XferSegment :=
  cs.foldl (fun xs c =>
    match c with
    | .transferred _ _ => []
    | .sent (.xferSegment x) | .dropped (.xferSegment x) => xs ++ [x]
    | _ => xs) []

lemma segments_transferred (cs : List Call) (data : List UInt8) (id : UInt64) :
    segments (cs ++ [.transferred data id]) = [] := by
  rw [segments, foldl_append]
  rfl

lemma segments_segment (cs : List Call) (h : c.message = some (.xferSegment x)) :
    segments (cs ++ [c]) = segments cs ++ [x] := by
  rw [segments, foldl_append, ← segments]
  cases c with
  | sent m | dropped m =>
    obtain rfl : m = .xferSegment x := Option.some.inj h
    rfl
  | _ => cases h

lemma segments_other (cs : List Call) (hc : ∀ data id, c ≠ .transferred data id)
    (h : ∀ x, c.message ≠ some (.xferSegment x)) : segments (cs ++ [c]) = segments cs := by
  rw [segments, foldl_append, ← segments]
  cases c with
  | transferred data id => exact absurd rfl (hc data id)
  | sent m | dropped m =>
    cases m with
    | xferSegment x => exact absurd rfl (h x)
    | _ => rfl
  | _ => rfl

end Call

/-! ## What a call does to a transfer -/

/-- How a call `c` of the machine `sm` gives the transfer `tt'`. -/
inductive Tracks (sm : StateMachine) (c : Call) (tt' : TransferTracker) : Prop where
  | start {data : List UInt8} {id : UInt64} (hc : c = .transferred data id) (ht : tt' = ⟨⟨id, data⟩, 0, 0⟩)
  | segment (htt : sm.state.tracker = some tt)
      (hsi : sm.peerSessInit = some si) (hpos : tt.pos ≠ tt.transfer.data.length)
      (hx : (nextSegment si.segmentMru tt : Outcome Empty _) = .ok (x, e))
      (hc : c.message = some (.xferSegment x)) (ht : tt' = { tt with pos := e })
  | other (htt : sm.state.tracker = some tt) (ht : tt' = { tt with posAcked := n })
      (hc : ∀ data id, c ≠ .transferred data id) (hm : ∀ x, c.message ≠ some (.xferSegment x))

variable {sm sm' sm1 sm2 : StateMachine} {c : Call} {tt tt' : TransferTracker}

lemma Tracks.same (htt : sm.state.tracker = some tt) (hc : ∀ data id, c ≠ .transferred data id)
    (hm : ∀ x, c.message ≠ some (.xferSegment x)) : Tracks sm c tt := .other (n := tt.posAcked) htt rfl hc hm

lemma Writing.tracks (h : Writing sm m sm1 sm2) (hm : c.message = some m) (hc : ∀ data id, c ≠ .transferred data id) :
    (∀ tt', sm1.state.tracker = some tt' → Tracks sm c tt') ∧ ∀ tt', sm2.state.tracker = some tt' →
    Tracks sm c tt' := by
  have hother (hseg : ∀ x, m ≠ .xferSegment x) (x : XferSegment) : c.message ≠ some (.xferSegment x) := fun h =>
    hseg x (Option.some.inj (hm.symm.trans h))
  cases h with
  | activeHeader hst | passiveHeader hst | activeInit hst | passiveInit hst | ack hst | term hst | reject hst =>
    refine ⟨fun tt' ht => ?_, fun tt' ht => ?_⟩
    · have ht : sm.state.tracker = some tt' := ht
      rw [hst] at ht
      cases ht
    · dsimp only at ht
      try split at ht
      all_goals cases ht
  | segmentsAck hst | keepalive hst =>
    refine ⟨fun tt' ht => .same ht hc (hother nofun), fun tt' ht => .same ?_ hc (hother nofun)⟩
    rw [hst]
    exact ht
  | @segment tt _ _ _ hst hsi hpos hx =>
    have htt : sm.state.tracker = some tt := by rw [hst]; rfl
    refine ⟨fun tt' ht => ?_, fun tt' ht => ?_⟩
    · cases ht
      exact .segment htt hsi hpos hx hm rfl
    · dsimp only [Peer.afterSegment] at ht
      split at ht <;> cases ht
      exact .segment htt hsi hpos hx hm rfl

lemma Called.tracks (h : Called sm c sm') (ht : sm'.state.tracker = some tt') : Tracks sm c tt' := by
  cases h with
  | sent h => exact (h.tracks rfl fun _ _ h => by cases h).2 tt' ht
  | dropped h => exact (h.tracks rfl fun _ _ h => by cases h).1 tt' ht
  | decoded _ h =>
    cases h with
    | badAck hst | ack hst =>
      cases ht
      exact .other (by rw [hst]; rfl) rfl nofun nofun
    | noHeader | segment | keepalive | rejected | failed => exact .same ht nofun nofun
    | _ => cases ht
  | transferred =>
    cases ht
    exact .start rfl rfl
  | refused | keptAlive => exact .same ht nofun nofun
  | acked h =>
    refine .same ?_ nofun nofun
    generalize sm.state = st at h
    cases h <;> exact ht
  | closed => cases ht

/-! ## What has been sent -/

/-- The segments `xs` have the data of the transfer up to its position. -/
structure Sent (mru : UInt64) (tt : TransferTracker) (xs : List XferSegment) : Prop where
  ok : tt.Ok mru
  data : xs.flatMap (·.data) = tt.transfer.data.take tt.pos
  start : ∀ x ∈ xs.head?, x.flags.start = true
  fin : ∀ x ∈ xs.getLast?, tt.pos = tt.transfer.data.length → x.flags.fin = true
  count : mru ≠ 0 → xs.length ≤ tt.pos
  stuck : mru = 0 → tt.pos = 0
  empty : tt.transfer.data = [] → xs = []

namespace Sent

variable {mru : UInt64} {xs : List XferSegment}

lemma of_start (h : t.data.length ≤ isizeMax) : Sent mru ⟨t, 0, 0⟩ [] where
  ok := ⟨Nat.zero_le _, h, fun h => absurd rfl h⟩
  data := rfl
  start := nofun
  fin := nofun
  count _ := Nat.le_refl _
  stuck _ := rfl
  empty _ := rfl

/-- With a segment size of at least one byte the position moves on. -/
lemma pos_lt_endPos (hmru : mru ≠ 0) (hlt : tt.pos < tt.transfer.data.length) : tt.pos < endPos mru tt := by
  have : mru.toNat ≠ 0 := fun h => hmru (UInt64.toNat_inj.mp h)
  rw [endPos]
  omega

lemma pos_eq_zero (h : Sent mru tt []) (hlt : tt.pos < tt.transfer.data.length) : tt.pos = 0 := by
  grind [h.data, length_take]

lemma next (h : Sent mru tt xs) (hpos : tt.pos ≠ tt.transfer.data.length) :
    Sent mru { tt with pos := endPos mru tt } (xs ++ [segmentOf mru tt]) := by
  have hlt : tt.pos < tt.transfer.data.length := Nat.lt_of_le_of_ne h.ok.pos_le hpos
  constructor
  case ok => exact endPos_ok h.ok
  case data =>
    have hge : tt.pos ≤ endPos mru tt := by rw [endPos]; omega
    rw [flatMap_append, h.data, flatMap_singleton]
    dsimp only [segmentOf, XferSegment.new]
    rw [← take_add, Nat.add_sub_cancel' hge]
  case start =>
    cases xs with
    | nil =>
      intro x hx
      cases hx
      simp [segmentOf, XferSegment.new, h.pos_eq_zero hlt]
    | cons => exact h.start
  case fin =>
    intro x hx hend
    rw [getLast?_concat] at hx
    cases hx
    simpa [segmentOf, XferSegment.new] using hend
  case count =>
    intro hmru
    have := h.count hmru
    have := pos_lt_endPos hmru hlt
    rw [length_append, length_singleton]
    dsimp only
    omega
  case stuck =>
    rintro rfl
    have := h.stuck rfl
    simp [endPos, this]
  case empty =>
    intro hnil
    rw [hnil] at hlt
    cases hlt

end Sent

/-- What is known of the transfer that is being sent. -/
def Segmented (cs : List Call) (sm : StateMachine) : Prop :=
  ∀ tt, sm.state.tracker = some tt → ∃ si, sm.peerSessInit = some si ∧ Sent si.segmentMru tt (Call.segments cs)

/-- The data of a transfer is a vector. -/
def Call.InMemory : Call → Prop
  | .transferred data _ => data.length ≤ isizeMax
  | _ => True

lemma States.progress_of_tracker {s : States} (h : s.tracker = some tt) : s.progress = 4 := by
  induction s with
  | sendKeepalive _ ih => exact ih h
  | sendXferSegments | sendXferSegmentsAndAck => rfl
  | _ => cases h

/-- A transfer is taken over when the parameters of the peer are known. -/
lemma Calls.peerSessInit {id : UInt64} (h : Calls sm (.transferred data id) sm') :
    ∃ si, sm'.peerSessInit = some si := by
  cases h with
  | transfer hg h =>
    obtain ⟨⟨si, hsi, -⟩, rfl⟩ := Session.sendTransfer_eq_ok hg h
    exact ⟨si, hsi⟩

lemma Segmented.step (hs : Segmented cs sm) (hc : c.InMemory) (h : Calls sm c sm') : Segmented (cs ++ [c]) sm' := by
  intro tt' ht'
  have hsame {tt} (htt : sm.state.tracker = some tt) : sm'.peerSessInit = sm.peerSessInit :=
    congrArg Exchanged.peerSessInit (h.called.exchanged_eq (States.progress_of_tracker htt))
  cases h.called.tracks ht' with
  | start hcall ht =>
    subst hcall ht
    obtain ⟨si, hsi⟩ := h.peerSessInit
    rw [Call.segments_transferred]
    exact ⟨si, hsi, .of_start hc⟩
  | segment htt hsi hpos hx hm ht =>
    subst ht
    obtain ⟨_, hsi', hsent⟩ := hs _ htt
    cases hsi.symm.trans hsi'
    cases hx.symm.trans (nextSegment_eq_ok hsent.ok hpos)
    rw [Call.segments_segment cs hm]
    exact ⟨_, (hsame htt).trans hsi, hsent.next hpos⟩
  | other htt ht hnot hm =>
    subst ht
    obtain ⟨si, hsi, hsent⟩ := hs _ htt
    rw [Call.segments_other cs hnot hm]
    exact ⟨si, (hsame htt).trans hsi, ⟨hsent.ok.pos_le, hsent.ok.length_le, hsent.ok.mru_le⟩, hsent.data, hsent.start,
      hsent.fin, hsent.count, hsent.stuck, hsent.empty⟩

lemma run_segmented (hinit : calls.init sm) (h : calls.Run sm cs sm') (hc : ∀ c ∈ cs, c.InMemory) :
    Segmented cs sm' := by
  have hstart : Segmented [] sm := by
    obtain ⟨_, _, rfl | rfl⟩ := hinit <;> exact nofun
  exact h.invariant (fun bs s c s' hs hc h => Segmented.step hs hc h) hc hstart

/-! ## Progress -/

/-- A machine that is ready to send moves on, and one that is not has sent all the data, from a segment marked as the
first to one marked as the last. -/
structure Progresses (sm : StateMachine) (tt : TransferTracker) (xs : List XferSegment) : Prop where
  moves : (sm.getInterests : Outcome Exit _) = .ok ⟨true, true⟩ →
    ∃ sm' x e, (sm.sendMessage : Outcome Exit _) = .ok (sm', some (.xferSegment x)) ∧
      sm'.state = .sendXferSegments { tt with pos := e } ∧ tt.pos < e
  whole : (sm.getInterests : Outcome Exit _) = .ok ⟨true, false⟩ → xs.flatMap (·.data) = tt.transfer.data ∧
    xs.length ≤ tt.transfer.data.length ∧ (∃ x, xs.head? = some x ∧ x.flags.start = true) ∧
      ∃ x, xs.getLast? = some x ∧ x.flags.fin = true

lemma Sent.sendMessage_eq {ε : Type} (h : Sent si.segmentMru tt xs) (hst : sm.state = .sendXferSegments tt)
    (hsi : sm.peerSessInit = some si) (hlt : tt.pos < tt.transfer.data.length) :
    (sm.sendMessage : Outcome ε _) =
      .ok ({ sm with state := .sendXferSegments { tt with pos := endPos si.segmentMru tt } },
        some (.xferSegment (segmentOf si.segmentMru tt))) := by
  simp only [sendMessage, hst, hsi, unwrap, Outcome.ok_bind, if_neg hlt.ne,
    nextSegment_eq_ok h.ok hlt.ne]

lemma Sent.progresses (h : Sent si.segmentMru tt xs) (hst : sm.state = .sendXferSegments tt)
    (hsi : sm.peerSessInit = some si) (hmru : si.segmentMru ≠ 0)
    (hdata : tt.transfer.data ≠ []) : Progresses sm tt xs := by
  constructor
  · intro hi
    have hlt : tt.pos < tt.transfer.data.length := by simpa [getInterests, hst] using hi
    exact ⟨_, _, _, h.sendMessage_eq hst hsi hlt, rfl, Sent.pos_lt_endPos hmru hlt⟩
  · intro hi
    have hend : tt.pos = tt.transfer.data.length := by
      have hle := h.ok.pos_le
      have : tt.transfer.data.length ≤ tt.pos := by simpa [getInterests, hst] using hi
      omega
    have hall := h.data
    rw [hend, take_length] at hall
    have hne : xs ≠ [] := by
      rintro rfl
      exact hdata hall.symm
    refine ⟨hall, hend ▸ h.count hmru, ?_, ?_⟩
    · exact ⟨_, head?_eq_some_head hne, h.start _ (head?_eq_some_head hne)⟩
    · exact ⟨_, getLast?_eq_some_getLast hne, h.fin _ (getLast?_eq_some_getLast hne) hend⟩

/-- A transfer makes progress to its end in every run, if the peer takes segments of at least one byte and the data is
not empty. -/
theorem progresses_iff {cs : List Call} {si : SessInit} (hinit : calls.init sm) (h : calls.Run sm cs sm')
    (hc : ∀ c ∈ cs, c.InMemory) (hst : sm'.state = .sendXferSegments tt) (hsi : sm'.peerSessInit = some si) :
    Progresses sm' tt (Call.segments cs) ↔ si.segmentMru ≠ 0 ∧ tt.transfer.data ≠ [] := by
  obtain ⟨si', hsi', hsent⟩ := run_segmented hinit h hc tt (by rw [hst]; rfl)
  cases hsi.symm.trans hsi'
  constructor
  · intro hprogress
    have hdata : tt.transfer.data ≠ [] := fun hnil => by
      -- there is nothing to send, and no last segment either
      have hlen : ¬ tt.pos < tt.transfer.data.length := by rw [hnil]; exact Nat.not_lt_zero _
      obtain ⟨-, -, ⟨x, hx, -⟩, -⟩ := hprogress.whole (by simp [getInterests, hst, hlen])
      rw [hsent.empty hnil] at hx
      cases hx
    refine ⟨fun hmru => ?_, hdata⟩
    have hzero := hsent.stuck hmru
    have hlt : tt.pos < tt.transfer.data.length := by
      rw [hzero]
      exact length_pos_iff.mpr hdata
    obtain ⟨sm1, x, e, hsend, hst1, hmoves⟩ := hprogress.moves (by simp [getInterests, hst, hlt])
    cases (hsent.sendMessage_eq hst hsi hlt).symm.trans hsend
    cases hst1
    rw [endPos, hmru, hzero] at hmoves
    exact absurd hmoves (by simp)
  · rintro ⟨hmru, hdata⟩
    exact hsent.progresses hst hsi hmru hdata

/-- The parameters of a peer that takes no data at all. -/
def takesNothing : SessInit := { SessInit.new "b" with segmentMru := 0 }

/-- A machine that has this peer, up to the transfer of some data. -/
lemma run_takesNothing (data : List UInt8) (h : data.length ≤ takesNothing.transferMru.toNat) :
    calls.Run (.newActive "a" false)
      [.sent (.contactHeader (.new false)), .decoded (.ok (.contactHeader (.new false)))
        (.ok (.contactHeader (.new false))),
        .sent (.sessInit (.new "a")), .decoded (.ok (.sessInit takesNothing)) (.ok (.sessInit takesNothing)),
        .transferred data 0]
      ⟨.sendXferSegments ⟨⟨0, data⟩, 0, 0⟩, false, "a", 1, some (.new false), some (.new false), some (.new "a"),
        some takesNothing, false⟩ := by
  refine .cons (.send rfl rfl rfl rfl) (.cons (.decode rfl rfl rfl) (.cons (.send rfl rfl rfl rfl)
    (.cons (.decode rfl rfl rfl) (.cons (.transfer rfl ?_ rfl) .nil))))
  simp only [sendTransfer, unwrap, Outcome.ok_bind, if_neg (Nat.not_lt.mpr h)]
  rfl

/-- To a peer whose segment size is zero, the same empty segment is sent again and again; and for empty data there is no
segment at all, so none that ends the transfer. -/
theorem segments_stuck :
    (∃ cs sm, calls.Run (.newActive "a" false) cs sm ∧ sm.state = .sendXferSegments ⟨⟨0, [7]⟩, 0, 0⟩ ∧
      (sm.sendMessage : Outcome Exit _) = .ok (sm, some (.xferSegment ⟨⟨false, true⟩, 0, [], []⟩))) ∧
    ∃ cs sm, calls.Run (.newActive "a" false) cs sm ∧ sm.state = .sendXferSegments ⟨⟨0, []⟩, 0, 0⟩ ∧
      (sm.getInterests : Outcome Exit _) = .ok ⟨true, false⟩ ∧ Call.segments cs = [] :=
  ⟨⟨_, _, run_takesNothing [7] (by decide), rfl, by decide⟩,
    ⟨_, _, run_takesNothing [] (by decide), rfl, by decide, rfl⟩⟩

theorem progresses_opened : ∃ cs sm, calls.Run (.newActive "a" false) cs sm ∧
    Progresses sm ⟨⟨0, [1, 2]⟩, 0, 0⟩ (Call.segments cs) := by
  have hrun : calls.Run (opened 0) [.transferred [1, 2] 0]
    { opened 1 with state := .sendXferSegments ⟨⟨0, [1, 2]⟩, 0, 0⟩ } :=
    .cons (.transfer rfl rfl rfl) .nil
  have hmemory : ∀ c ∈ opening ++ [.transferred [1, 2] 0], c.InMemory := by
    simp [opening, Call.InMemory, isizeMax]
  exact ⟨_, _, run_opening.append hrun,
    (progresses_iff ⟨"a", false, .inl rfl⟩ (run_opening.append hrun) hmemory rfl rfl).mpr (by decide)⟩

end Dtn.Tcpcl
