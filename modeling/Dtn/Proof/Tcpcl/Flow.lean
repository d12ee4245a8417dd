import Dtn.Framework.Chunks
import Dtn.Proof.Tcpcl.Safety

/-!
# The flow of transfers in one direction

`Flow` is all there is to one direction of a session: the transfer being sent,
the segments and the acknowledgements in transit, the part received so far, and
the transfers taken over by the sender and passed up by the receiver.

In a good flow (`Flow.Ok`) three numbers tell the rest: of the segments of the
transfer `p` have been sent, `r` have been read and `k` of their
acknowledgements have come back. Starting a transfer, sending a segment, reading
it and reading an acknowledgement keep the flow good (`Ok.start`, `Ok.send`,
`Ok.receive`, `Ok.acked`, `Ok.finish`).
-/

namespace Dtn.Tcpcl

open StateMachine (endPos segmentOf)

variable {m : Nat}

/-! ## The segments of a transfer -/

/-- Segment `i` of a transfer. -/
def segmentAt (mru : Nat) (t : Transfer) (i : Nat) : XferSegment :=
  .new ⟨boundary mru t.data.length (i + 1) == t.data.length, boundary mru t.data.length i == 0⟩ t.id
    (chunk mru t.data i)

/-- Its acknowledgement. -/
def ackAt (mru : Nat) (t : Transfer) (i : Nat) : XferAck :=
  (segmentAt mru t i).toXferAck (UInt64.ofNat (boundary mru t.data.length (i + 1)))

/-- What the receiver keeps of a transfer behind `r` segments. -/
def keptAt (mru : Nat) (t : Transfer) (r : Nat) : Option Transfer :=
  if r = 0 ∨ boundary mru t.data.length r = t.data.length then none
  else some ⟨t.id, t.data.take (boundary mru t.data.length r)⟩

/-- The transfer, unless it has been passed up. -/
def pendingAt (mru : Nat) (t : Transfer) (r : Nat) : List Transfer :=
  if r ≠ 0 ∧ boundary mru t.data.length r = t.data.length then [] else [t]

variable {mru : UInt64} {t : Transfer} {tt : TransferTracker} {i p : Nat}

lemma endPos_eq (h : tt.pos = boundary mru.toNat tt.transfer.data.length p) :
    endPos mru tt = boundary mru.toNat tt.transfer.data.length (p + 1) := by
  rw [endPos, h, boundary_succ]

lemma segmentOf_eq (h : tt.pos = boundary mru.toNat tt.transfer.data.length p) :
    segmentOf mru tt = segmentAt mru.toNat tt.transfer p := by
  rw [segmentOf, endPos_eq h, h, segmentAt, chunk]

lemma toNat_ackAt (h : t.data.length ≤ isizeMax) :
    (ackAt m t i).acknowlegedLength.toNat = boundary m t.data.length (i + 1) := by
  have hle : boundary m t.data.length (i + 1) ≤ t.data.length := boundary_le
  rw [isizeMax] at h
  exact UInt64.toNat_ofNat_of_lt' (by rw [UInt64.size]; omega)

/-! ## Flows -/

/-- One direction of a session. -/
structure Flow where
  tracker : Option TransferTracker
  segments : List XferSegment
  acks : List XferAck
  receiving : Option Transfer
  accepted : List Transfer
  passedUp : List Transfer

namespace Flow

variable {r : Nat} {s : XferSegment} {ss : List XferSegment} {a : XferAck} {as : List XferAck}

/-- A transfer of which `p` segments have been sent, `r` have been read and `k` have been acknowledged. -/
structure Sending (m : Nat) (f : Flow) (tt : TransferTracker) (k r p : Nat) : Prop where
  acked_le : k ≤ r
  read_le : r ≤ p
  length_le : tt.transfer.data.length ≤ isizeMax
  pos : tt.pos = boundary m tt.transfer.data.length p
  posAcked : tt.posAcked = boundary m tt.transfer.data.length k
  started : ∀ i < p, boundary m tt.transfer.data.length i < tt.transfer.data.length
  unfinished : tt.transfer.data ≠ [] → boundary m tt.transfer.data.length k < tt.transfer.data.length
  segments : f.segments = (List.Ico r p).map (segmentAt m tt.transfer)
  acks : f.acks = (List.Ico k r).map (ackAt m tt.transfer)
  receiving : f.receiving = keptAt m tt.transfer r
  passedUp : f.accepted = f.passedUp ++ pendingAt m tt.transfer r

/-- The flow is as the protocol wants it. -/
inductive Ok (m : Nat) (f : Flow) : Prop where
  | idle (tracker : f.tracker = none) (segments : f.segments = []) (acks : f.acks = []) (receiving : f.receiving = none)
      (passedUp : f.accepted = f.passedUp)
  | sending {tt : TransferTracker} {k r p : Nat} (tracker : f.tracker = some tt) (h : f.Sending m tt k r p)

variable {f : Flow}

lemma Ok.of_none (h : f.Ok m) (ht : f.tracker = none) :
    f.segments = [] ∧ f.acks = [] ∧ f.receiving = none ∧ f.accepted = f.passedUp := by
  cases h with
  | idle _ hs ha hr hp => exact ⟨hs, ha, hr, hp⟩
  | sending ht' => cases ht.symm.trans ht'

lemma Ok.of_some (h : f.Ok m) (ht : f.tracker = some tt) : ∃ k r p, f.Sending m tt k r p := by
  cases h with
  | idle ht' => cases ht.symm.trans ht'
  | sending ht' h =>
    cases ht.symm.trans ht'
    exact ⟨_, _, _, h⟩

lemma Ok.start (h : f.Ok m) (ht : f.tracker = none) (hlen : t.data.length ≤ isizeMax) :
    Ok m { f with tracker := some ⟨t, 0, 0⟩, accepted := f.accepted ++ [t] } := by
  obtain ⟨hs, ha, hr, hp⟩ := h.of_none ht
  refine .sending (k := 0) (r := 0) (p := 0) rfl ⟨Nat.le_refl _, Nat.le_refl _, hlen,
    boundary_zero.symm, boundary_zero.symm,
    nofun, fun hne => ?_, hs, ha, ?_, ?_⟩
  · rw [boundary_zero]
    exact List.length_pos_iff.mpr hne
  · rw [keptAt, if_pos (.inl rfl)]
    exact hr
  · rw [pendingAt, if_neg fun h => h.1 rfl, ← hp]

lemma Ok.tracker_ok (h : f.Ok mru.toNat) (ht : f.tracker = some tt) : tt.Ok mru := by
  obtain ⟨_, _, _, hs⟩ := h.of_some ht
  refine ⟨?_, hs.length_le, ?_⟩
  · rw [hs.pos]
    exact boundary_le
  · rw [hs.pos]
    exact size_le_boundary

/-- One more segment. The transfer is not over with it: its last acknowledgement is still to come. -/
lemma Ok.send (h : f.Ok mru.toNat) (hmru : 0 < mru.toNat) (ht : f.tracker = some tt)
    (hpos : tt.pos ≠ tt.transfer.data.length) : endPos mru tt ≠ tt.posAcked ∧
      Ok mru.toNat { f with tracker := some { tt with pos := endPos mru tt }, segments := f.segments ++
        [segmentOf mru tt] } := by
  obtain ⟨k, r, p, hs⟩ := h.of_some ht
  have hlt : boundary mru.toNat tt.transfer.data.length p < tt.transfer.data.length :=
    Nat.lt_of_le_of_ne boundary_le (hs.pos ▸ hpos)
  have hend := endPos_eq hs.pos
  refine ⟨?_, .sending (k := k) (r := r) (p := p + 1) rfl ?_⟩
  · have h1 := boundary_lt_succ hmru hlt
    have h2 : boundary mru.toNat tt.transfer.data.length k ≤ boundary mru.toNat tt.transfer.data.length p :=
      boundary_mono (hs.acked_le.trans hs.read_le)
    rw [hend, hs.posAcked]
    omega
  · refine { hs with read_le := Nat.le_succ_of_le hs.read_le, pos := hend, started := ?_, segments := ?_ }
    · have hstarted := hs.started
      grind
    · rw [map_Ico_succ _ hs.read_le, ← hs.segments, segmentOf_eq hs.pos]

/-- The first segment in transit is the next one of the transfer. -/
lemma Sending.next (h : f.Sending m tt k r p) (hs : f.segments = s :: ss) : r < p ∧ s = segmentAt m tt.transfer r ∧
      ss = (List.Ico (r + 1) p).map (segmentAt m tt.transfer) ∧
      boundary m tt.transfer.data.length r < tt.transfer.data.length := by
        have hstarted := h.started
        have hsegments := h.segments
        grind [map_Ico_eq_cons]

lemma keptAt_of_lt (h : boundary m t.data.length r < t.data.length) :
    keptAt m t r = if r = 0 then none else some ⟨t.id, t.data.take (boundary m t.data.length r)⟩ := by
  unfold keptAt
  simp only [h.ne, or_false]

lemma Ok.tracker_of_segment (h : f.Ok m)
    (hs : f.segments = s :: ss) : ∃ tt k r p, f.tracker = some tt ∧ f.Sending m tt k r p := by
  cases h with
  | idle _ hn => cases hs.symm.trans hn
  | sending ht h => exact ⟨_, _, _, _, ht, h⟩

/-- No segment is dropped. -/
lemma Ok.segment_id (h : f.Ok m) (hs : f.segments = s :: ss) (ht : f.receiving = some t) : t.id = s.transferId := by
  obtain ⟨_, _, _, _, -, hf⟩ := h.tracker_of_segment hs
  obtain ⟨-, rfl, -, hlt⟩ := hf.next hs
  have hr := hf.receiving
  rw [keptAt_of_lt hlt, ht] at hr
  split at hr
  · cases hr
  · cases hr
    rfl

/-- What a segment is joined to is the part of the transfer before it. -/
lemma Sending.joins (h : f.Sending m tt k r p) (hs : f.segments = s :: ss) (hj : Peer.Joins f.receiving s t) :
    t = ⟨tt.transfer.id, tt.transfer.data.take (boundary m tt.transfer.data.length (r + 1))⟩ := by
  obtain ⟨-, rfl, -, hlt⟩ := h.next hs
  rw [h.receiving, keptAt_of_lt hlt] at hj
  rw [take_boundary_succ]
  by_cases hr : r = 0
  · subst hr
    rw [if_pos rfl] at hj
    cases hj
    rw [boundary_zero, List.take_zero, List.nil_append]
    rfl
  · rw [if_neg hr] at hj
    cases hj
    rfl

lemma Ok.receive (h : f.Ok m) (hs : f.segments = s :: ss) (hj : Peer.Joins f.receiving s t) : Ok m { f with
      segments := ss
      acks := f.acks ++ [s.toXferAck (UInt64.ofNat t.data.length)]
      receiving := if s.flags.fin then none else some t
      passedUp := f.passedUp ++ if s.flags.fin then [t] else [] } := by
  obtain ⟨tt, k, r, p, htr, hf⟩ := h.tracker_of_segment hs
  have ht := hf.joins hs hj
  obtain ⟨hlt, rfl, rfl, hb⟩ := hf.next hs
  have hlen : t.data.length = boundary m tt.transfer.data.length (r + 1) := by grind [boundary_le]
  have hpend : pendingAt m tt.transfer r = [tt.transfer] := if_neg fun h => hb.ne h.2
  have hfin : (segmentAt m tt.transfer r).flags.fin = true ↔
      boundary m tt.transfer.data.length (r + 1) = tt.transfer.data.length := beq_iff_eq
  refine .sending (k := k) (r := r + 1) (p := p) htr ⟨Nat.le_succ_of_le hf.acked_le, hlt, hf.length_le,
    hf.pos, hf.posAcked,
    hf.started, hf.unfinished, rfl, ?_, ?_, ?_⟩
  · rw [map_Ico_succ _ hf.acked_le, ← hf.acks, hlen]
    rfl
  · grind [keptAt]
  · dsimp only
    rw [hf.passedUp, hpend, List.append_assoc]
    by_cases hend : boundary m tt.transfer.data.length (r + 1) = tt.transfer.data.length
    · -- the last segment makes the transfer complete
      rw [hend, List.take_length] at ht
      rw [if_pos (hfin.mpr hend), pendingAt, if_pos ⟨Nat.succ_ne_zero r, hend⟩, List.append_nil, ht]
    · grind [pendingAt]

/-- The first acknowledgement in transit is for the next segment of the transfer being sent. -/
lemma Ok.ack (h : f.Ok m) (ha : f.acks = a :: as) :
    ∃ tt k r p, f.tracker = some tt ∧ f.Sending m tt k r p ∧ k < r ∧ a.transferId = tt.transfer.id ∧
      a.acknowlegedLength.toNat = boundary m tt.transfer.data.length (k + 1) ∧
      as = (List.Ico (k + 1) r).map (ackAt m tt.transfer) := by
  cases h with
  | idle _ _ hn => cases ha.symm.trans hn
  | sending ht hf =>
    obtain ⟨hlt, rfl, rfl⟩ := map_Ico_eq_cons (hf.acks.symm.trans ha)
    exact ⟨_, _, _, _, ht, hf, hlt, rfl, toNat_ackAt hf.length_le, rfl⟩

lemma Ok.acked (h : f.Ok m) (ha : f.acks = a :: as) (ht : f.tracker = some tt)
    (hlen : a.acknowlegedLength.toNat ≠ tt.transfer.data.length) :
    Ok m { f with tracker := some { tt with posAcked := a.acknowlegedLength.toNat }, acks := as } := by
  obtain ⟨_, k, r, p, ht', hf, hlt, -, hpos, rfl⟩ := h.ack ha
  cases ht.symm.trans ht'
  refine .sending (k := k + 1) (r := r) (p := p) rfl ⟨hlt, hf.read_le, hf.length_le, hf.pos, hpos, hf.started,
    fun _ => ?_, hf.segments, rfl, hf.receiving, hf.passedUp⟩
  rw [hpos] at hlen
  exact Nat.lt_of_le_of_ne boundary_le hlen

/-- The acknowledgement of the whole transfer leaves nothing in transit. -/
lemma Ok.finish (h : f.Ok m) (ha : f.acks = a :: as) (ht : f.tracker = some tt)
    (hlen : a.acknowlegedLength.toNat = tt.transfer.data.length) : Ok m { f with tracker := none, acks := as } := by
  obtain ⟨_, k, r, p, ht', hf, _, -, hpos, rfl⟩ := h.ack ha
  cases ht.symm.trans ht'
  rw [hpos] at hlen
  have hp : p ≤ k + 1 := by
    have hstarted := hf.started
    grind
  have hread := hf.read_le
  obtain rfl : r = k + 1 := by omega
  obtain rfl : p = k + 1 := by omega
  refine .idle rfl ?_ ?_ ?_ ?_
  · exact hf.segments.trans (by rw [List.Ico.self_empty]; rfl)
  · exact by rw [List.Ico.self_empty]; rfl
  · exact hf.receiving.trans (if_pos (.inr hlen))
  · grind [hf.passedUp, pendingAt]

/-- A transfer that is not passed up yet has not been received in full. -/
lemma kept_of_pending (h : t' ∈ pendingAt m t r) (hne : t.data ≠ []) : t' = t ∧
    ((keptAt m t r).map Transfer.data).getD [] <+: t.data ∧
    (((keptAt m t r).map Transfer.data).getD []).length < t.data.length := by
  unfold pendingAt at h
  split at h
  · cases h
  · grind [keptAt, boundary]

lemma length_pendingAt_le : (pendingAt m t r).length ≤ 1 := by grind [pendingAt]

end Flow

end Dtn.Tcpcl
