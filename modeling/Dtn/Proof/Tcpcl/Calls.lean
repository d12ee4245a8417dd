import Dtn.Proof.Tcpcl.Safety
import Dtn.Spec.Tcpcl.Calls

/-!
# What holds of the machine between two calls

The session loop makes no calls but those of `Calls` (`Session.branch_calls`), and
`Calls.called` says once what such a call can do. From it:
the machine knows in each state what it needs there (`Called.known`), nothing
is negotiated twice (`Called.exchanged_eq`), the handshake only moves on
(`Called.progress_le`), and the transfers are numbered in order
(`Called.numbered`). `run_sound` has all of it for whole runs, and
`run_ids_wrap` shows the one limit: the number of transfers has 64 bits.
-/

namespace Dtn.Tcpcl

open List StateMachine UInt64

variable {tt : TransferTracker} {cs : List Call}

/-! ## What a call does -/

/-- Everything that a call does. -/
inductive Called (sm : StateMachine) : Call → StateMachine → Prop where
  | sent (h : Writing sm m sm1 sm') : Called sm (.sent m) sm'
  | dropped (h : Writing sm m sm' sm2) : Called sm (.dropped m) sm'
  | decoded {r : Except Errors Messages} {res : Except SessionErrors Messages} {sm' : StateMachine}
      (hreads : sm.state.reads = true) (h : Reading sm r sm' res) : Called sm (.decoded r res) sm'
  | transferred (hst : sm.state = .sessionEstablished) : Called sm (.transferred data sm.lastUsedTransferId)
        { sm with lastUsedTransferId := sm.lastUsedTransferId + 1,
                  state := .sendXferSegments ⟨⟨sm.lastUsedTransferId, data⟩, 0, 0⟩ }
  | refused (hst : sm.state = .sessionEstablished) : Called sm (.refused data e) sm
  | acked (h : Peer.Acks sm.state a s) : Called sm (.acked a) { sm with state := s }
  | keptAlive : Called sm .keptAlive { sm with state := .sendKeepalive sm.state }
  | closed (hst : sm.state = .sessionEstablished) : Called sm (.closed reason) { sm with state := .sendSessTerm reason }

variable {sm sm' : StateMachine} {c : Call}

lemma States.reads_of_interests {ε : Type} (hi : (sm.getInterests : Outcome ε _) = .ok i)
    (hr : i.readable = true) : sm.state.reads = true := by
  unfold StateMachine.getInterests at hi
  split at hi <;> cases hi
  all_goals
    first
    | (rename_i hst
       rw [hst]
       rfl)
    | cases hr

lemma Calls.called (h : Calls sm c sm') : Called sm c sm' := by
  cases h with
  | send _ _ h hc =>
    obtain ⟨sm2, hc', hwr⟩ := sendMessage_cases h
    cases hc.symm.trans hc'
    exact .sent hwr
  | drop _ _ h =>
    obtain ⟨_, -, hwr⟩ := sendMessage_cases h
    exact .dropped hwr
  | decode hi hr h => exact .decoded (States.reads_of_interests hi hr) (decodeMessage_cases hi hr h)
  | transfer hg h ht =>
    obtain ⟨-, rfl⟩ := Session.sendTransfer_eq_ok hg h
    cases ht
    exact .transferred (isEstablished_iff.mp hg)
  | refuse hg => exact .refused (isEstablished_iff.mp hg)
  | ack h =>
    unfold StateMachine.sendAck at h
    split at h
    · rename_i tt hst
      cases h
      exact .acked (hst ▸ .sending)
    · rename_i hst
      cases h
      exact .acked (hst ▸ .established)
    · cases h
  | keepalive => exact .keptAlive
  | close hg h =>
    rw [StateMachine.closeConnection, if_pos hg] at h
    cases h
    exact .closed (isEstablished_iff.mp hg)

/-- What an event has from the reader. -/
def Event.message {ρ : Type} : Event ρ → Option (Except Errors Messages)
  | .read r => some r
  | _ => none

/-- The calls of a branch of the `select!` that has `message` from the reader and writes `writes`. -/
structure Branched (message : Option (Except Errors Messages)) (keepalive : Bool) (sm sm' : StateMachine)
    (writes : List Messages) (cs : List Call) : Prop where
  run : calls.Run sm cs sm'
  messages : Call.messages cs = writes
  decoded : ∀ r res, .decoded r res ∈ cs → message = some r
  acks : ∀ c ∈ cs, c.invalidAck = false
  keepalive : .keptAlive ∈ cs → keepalive = true

namespace Session

variable {ρ : Type} {tls : Tls} {s s' s1 : Session ρ} {ev : Event ρ} {es : List (Effect ρ)} {i : Interest}

/-- The session loop makes no other calls. -/
lemma branch_calls (hi : (s.statemachine.getInterests : Outcome Exit _) = .ok i)
    (hb : s.branch tls i ev = .ok (some (s1, es))) :
    ∃ cs, Branched ev.message s.initializedKeepalive s.statemachine s1.statemachine (Effect.writes es) cs := by
  cases ev with
  | read r =>
    obtain ⟨hread, sm, res, hd, hres⟩ := branch_read_eq_ok hb
    have hdec : Calls s.statemachine (.decoded r res) sm := .decode hi hread hd
    rcases hres with ⟨_, rfl, hseg⟩ | ⟨-, -, hack, -, rfl, rfl⟩
    · rcases receiveSegment_eq_ok hseg with ⟨_, -, -, rfl, rfl⟩ | ⟨_, sm', -, hack, h⟩
      · exact ⟨[_], .cons hdec .nil, rfl, by simp [Event.message], by simp [Call.invalidAck], by simp⟩
      · obtain ⟨hsm, hw⟩ : s1.statemachine = sm' ∧ Effect.writes es = [] := by
          rcases h with ⟨-, rfl, rfl⟩ | ⟨-, rfl, rfl⟩ <;> exact ⟨rfl, rfl⟩
        rw [hsm, hw]
        exact ⟨[_, _], .cons hdec (.cons (.ack hack) .nil), rfl, by simp [Event.message],
          by simp [Call.invalidAck], by simp⟩
    · refine ⟨[_], .cons hdec .nil, rfl, by simp [Event.message], ?_, by simp⟩
      simp only [mem_singleton, forall_eq]
      by_contra hinv
      apply hack
      unfold Call.invalidAck at hinv
      split at hinv
      · rename_i heq
        cases heq
        rfl
      · exact absurd rfl hinv
  | send =>
    obtain ⟨hw, ⟨sm, hsm, rfl, rfl⟩ | ⟨sm, _, _, hsm, hc, rfl, rfl⟩⟩ := branch_send_eq_ok hb
    · cases sendMessage_none hsm
      exact ⟨[], .nil, rfl, by simp, by simp, by simp⟩
    · exact ⟨[_], .cons (.send hi hw hsm hc) .nil, rfl, by simp, by simp [Call.invalidAck], by simp⟩
  | transfer =>
    obtain ⟨hest, ⟨sm, hsm, rfl, rfl⟩ | ⟨_, he, rfl, rfl⟩⟩ := branch_transfer_eq_ok hb
    · have hid : sm.state.tracker.map (·.transfer.id) = some s.statemachine.lastUsedTransferId := by
        obtain ⟨-, rfl⟩ := sendTransfer_eq_ok hest hsm
        rfl
      exact ⟨[_], .cons (.transfer hest hsm hid) .nil, rfl, by simp, by simp [Call.invalidAck], by simp⟩
    · exact ⟨[_], .cons (.refuse hest he) .nil, rfl, by simp, by simp [Call.invalidAck], by simp⟩
  | tick =>
    obtain ⟨sm, hsm, rfl, rfl⟩ := branch_tick_eq_ok hb
    obtain ⟨cs, hcs⟩ : ∃ cs, Branched none false s.statemachine sm [] cs := by
      rcases closeIfIdle_eq_ok hsm with rfl | ⟨hest, -, rfl⟩
      · exact ⟨[], .nil, rfl, by simp, by simp, by simp⟩
      · exact ⟨[_], .cons (.close hest (if_pos hest)) .nil, rfl, by simp, by simp [Call.invalidAck], by simp⟩
    split
    · rename_i hk
      have hkeep : calls.Run sm [.keptAlive] sm.sendKeepalive := .cons .keepalive .nil
      refine ⟨cs ++ [.keptAlive], hcs.run.append hkeep, ?_, ?_, ?_, fun _ => hk⟩
      · rw [Call.messages, filterMap_append, ← Call.messages, hcs.messages]
        rfl
      · grind [hcs.decoded]
      · grind [hcs.acks, Call.invalidAck]
    · exact ⟨cs, hcs.run, hcs.messages, hcs.decoded, hcs.acks, fun h => absurd (hcs.keepalive h) Bool.false_ne_true⟩
  | close =>
    obtain ⟨hest, rfl, rfl⟩ := branch_close_eq_ok hb
    exact ⟨[_], .cons (.close hest (if_pos hest)) .nil, rfl, by simp, by simp [Call.invalidAck], by simp⟩
  | eof | sendFailed => simp only [branch] at hb; split at hb <;> cases hb

end Session

/-! ## What the machine knows -/

/-- The positions of a transfer are in order. -/
structure TransferTracker.Ordered (tt : TransferTracker) : Prop where
  posAcked_le : tt.posAcked ≤ tt.pos
  pos_le : tt.pos ≤ tt.transfer.data.length

/-- What the machine knows in each state. -/
def Known (x : Exchanged) : States → Prop
  | .activeSendContactHeader | .passiveWaitContactHeader | .sendMsgReject _ _ | .connectionClose => True
  | .activeWaitContactHeader => x.myContactHeader.isSome
  | .passiveSendContactHeader => x.peerContactHeader.isSome
  | .activeSendSessInit | .passiveWaitSessInit => Headers x true
  | .activeWaitSessInit => Headers x true ∧ x.mySessInit.isSome
  | .passiveSendSessInit => Headers x true ∧ x.peerSessInit.isSome
  | .sessionEstablished | .sendXferAck _ | .sendSessTerm _ | .waitSessTerm => Inits x true
  | .sendXferSegments tt | .sendXferSegmentsAndAck tt _ => Inits x true ∧ tt.Ordered
  | .sendKeepalive s => Known x s
  | .shouldNeverExist => False

namespace Known

variable {x : Exchanged} {s : States}

lemma stripped_ne (h : Known x s) : s.stripped ≠ .shouldNeverExist := by
  induction s with
  | sendKeepalive _ ih => exact ih h
  | shouldNeverExist => exact absurd h id
  | _ => nofun

lemma ne (h : Known x s) : s ≠ .shouldNeverExist := by
  rintro rfl
  exact h

lemma inits (h : Known x s) (hs : s.stripped.inSession = true) : Inits x true := by
  induction s with
  | sendKeepalive _ ih => exact ih h hs
  | sessionEstablished | sendXferAck | sendSessTerm | waitSessTerm => exact h
  | sendXferSegments | sendXferSegmentsAndAck => exact h.1
  | _ => cases hs

lemma ordered (h : Known x s) (ht : s.tracker = some tt) : tt.Ordered := by
  induction s with
  | sendKeepalive _ ih => exact ih h ht
  | sendXferSegments | sendXferSegmentsAndAck =>
    cases ht
    exact h.2
  | _ => cases ht

end Known

/-- The segment that is appended lies within the data. -/
lemma TransferTracker.Ordered.next {ε : Type} (h : tt.Ordered)
    (hx : (StateMachine.nextSegment mru tt : Outcome ε _) = .ok (x, e)) : { tt with pos := e }.Ordered := by
  unfold StateMachine.nextSegment at hx
  dsimp only at hx
  split at hx
  · rename_i hle
    cases hx
    exact ⟨h.posAcked_le.trans hle, Nat.min_le_right _ _⟩
  · cases hx

lemma Writing.known (hw : Writing sm m sm1 sm2) (hk : Known sm.exchanged sm.state) :
    Known sm1.exchanged sm1.state ∧ Known sm2.exchanged sm2.state := by
  cases hw with
  | activeHeader hst =>
    rw [hst] at hk
    refine ⟨?_, rfl⟩
    rw [hst]
    exact hk
  | passiveHeader hst =>
    rw [hst] at hk
    refine ⟨?_, rfl, rfl, hk⟩
    rw [hst]
    exact hk
  | activeInit hst =>
    rw [hst] at hk
    have hh : Headers sm.exchanged true := hk
    refine ⟨?_, ⟨rfl, hh.my, hh.peer⟩, rfl⟩
    rw [hst]
    exact ⟨rfl, hh.my, hh.peer⟩
  | passiveInit hst =>
    rw [hst] at hk
    have hh : Headers sm.exchanged true := hk.1
    refine ⟨?_, ⟨rfl, hh.my, hh.peer⟩, rfl, hk.2⟩
    rw [hst]
    exact ⟨⟨rfl, hh.my, hh.peer⟩, hk.2⟩
  | ack hst | segmentsAck hst | keepalive hst =>
    refine ⟨hk, ?_⟩
    rwa [hst] at hk
  | segment hst _ _ hx =>
    rw [hst] at hk
    refine ⟨⟨hk.1, hk.2.next (hx (ε := Empty))⟩, ?_⟩
    unfold Peer.afterSegment
    split
    · exact hk.1
    · exact ⟨hk.1, hk.2.next (hx (ε := Empty))⟩
  | term hst =>
    refine ⟨hk, ?_⟩
    rw [hst] at hk
    split
    · trivial
    · exact hk
  | reject => exact ⟨hk, trivial⟩

lemma Reading.known (hr : Reading sm r sm' res) (hres : res ≠ .error (.messageError .invalidACKValue))
    (hk : Known sm.exchanged sm.state) : Known sm'.exchanged sm'.state := by
  cases hr with
  | activeHeader hst =>
    rw [hst] at hk
    exact ⟨rfl, hk, rfl⟩
  | passiveHeader => exact rfl
  | noHeader | keepalive | rejected | failed | segment => exact hk
  | activeInit hst =>
    rw [hst] at hk
    exact ⟨⟨rfl, hk.1.my, hk.1.peer⟩, hk.2, rfl⟩
  | passiveInit hst =>
    rw [hst] at hk
    have hh : Headers sm.exchanged true := hk
    exact ⟨⟨rfl, hh.my, hh.peer⟩, rfl⟩
  | unknownType | unexpected | terminated => trivial
  | terminate hst =>
    rcases hst with hst | ⟨tt, hst⟩ <;> rw [hst] at hk
    · exact hk
    · exact hk.1
  | badAck => exact absurd rfl hres
  | lastAck hst =>
    rw [hst] at hk
    exact hk.1
  | ack hst _ hpos =>
    rw [hst] at hk
    exact ⟨hk.1, hpos, hk.2.pos_le⟩

lemma Called.known (h : Called sm c sm') (hc : c.invalidAck = false) (hk : Known sm.exchanged sm.state) :
    Known sm'.exchanged sm'.state := by
  cases h with
  | sent h => exact (h.known hk).2
  | dropped h => exact (h.known hk).1
  | decoded _ h =>
    refine h.known ?_ hk
    rintro rfl
    cases hc
  | transferred hst =>
    rw [hst] at hk
    exact ⟨hk, Nat.le_refl _, Nat.zero_le _⟩
  | refused | keptAlive => exact hk
  | acked h =>
    generalize hs : sm.state = s at h hk
    cases h with
    | established | sending => exact hk
  | closed hst =>
    rwa [hst] at hk

/-! ## Nothing is negotiated twice -/

lemma States.progress_le (s : States) : s.progress ≤ 4 := by
  induction s with
  | sendKeepalive _ ih => exact ih
  | _ => simp [progress]

lemma States.pastHandshake_iff {s : States} : s.pastHandshake = true ↔ s.progress = 4 := by
  induction s with
  | sendKeepalive _ ih => exact ih
  | _ => simp [progress, pastHandshake]

/-- No step of the handshake is done again. -/
lemma Called.progress_le (h : Called sm c sm') : sm.state.progress ≤ sm'.state.progress := by
  have hmax := sm.state.progress_le
  cases h with
  | sent h =>
    cases h with
    | activeHeader hst | passiveHeader hst | activeInit hst | passiveInit hst =>
      rw [hst]
      exact Nat.le_succ _
    | ack | segmentsAck | reject => exact hmax
    | segment =>
      unfold Peer.afterSegment
      split <;> exact hmax
    | keepalive hst =>
      rw [hst]
      exact Nat.le_refl _
    | term =>
      split <;> exact hmax
  | dropped h =>
    cases h with
    | segment => exact hmax
    | _ => exact Nat.le_refl _
  | decoded _ h =>
    cases h with
    | activeHeader hst | passiveHeader hst | activeInit hst | passiveInit hst =>
      rw [hst]
      exact Nat.le_succ _
    | noHeader | keepalive | rejected | failed | segment => exact Nat.le_refl _
    | _ => exact hmax
  | acked h =>
    generalize sm.state = s at h hmax
    cases h <;> exact hmax
  | refused | keptAlive => exact Nat.le_refl _
  | transferred | closed => exact hmax

/-- Behind the handshake, what was exchanged stays. -/
lemma Called.exchanged_eq (h : Called sm c sm') (hp : sm.state.progress = 4) : sm'.exchanged = sm.exchanged := by
  cases h with
  | sent h | dropped h | decoded _ h =>
    cases h with
    | activeHeader hst | passiveHeader hst | activeInit hst | passiveInit hst =>
      rw [hst] at hp
      cases hp
    | _ => rfl
  | _ => rfl

lemma Called.settings_eq (h : Called sm c sm') : sm'.myNodeId = sm.myNodeId ∧ sm'.canTls = sm.canTls := by
  cases h with
  | sent h | dropped h | decoded _ h => cases h <;> exact ⟨rfl, rfl⟩
  | _ => exact ⟨rfl, rfl⟩

/-! ## The numbers of the transfers -/

/-- The transfers so far have the numbers from zero on, and the next one is ready; both with 64 bits. -/
structure Numbered (cs : List Call) (sm : StateMachine) : Prop where
  ids : Call.ids cs = (List.range (Call.ids cs).length).map ofNat
  last : sm.lastUsedTransferId = ofNat (Call.ids cs).length

lemma Called.lastUsedTransferId_eq (h : Called sm c sm') :
    Call.ids [c] = [] ∧ sm'.lastUsedTransferId = sm.lastUsedTransferId ∨
      Call.ids [c] = [sm.lastUsedTransferId] ∧ sm'.lastUsedTransferId = sm.lastUsedTransferId + 1 := by
  cases h with
  | sent h | dropped h | decoded _ h => cases h <;> exact .inl ⟨rfl, rfl⟩
  | transferred => exact .inr ⟨rfl, rfl⟩
  | _ => exact .inl ⟨rfl, rfl⟩

lemma Called.numbered (h : Called sm c sm') (hn : Numbered cs sm) : Numbered (cs ++ [c]) sm' := by
  rcases h.lastUsedTransferId_eq with ⟨hid, hlast⟩ | ⟨hid, hlast⟩
  · refine ⟨?_, ?_⟩ <;> rw [Call.ids_append, hid, append_nil]
    · exact hn.ids
    · rw [hlast, hn.last]
  · refine ⟨?_, ?_⟩ <;> rw [Call.ids_append, hid, length_append]
    · rw [length_singleton, range_succ, map_append, ← hn.ids, hn.last]
      rfl
    · rw [hlast, hn.last]
      exact (ofNat_add _ 1).symm

/-- Numbers that fit are different and in order. -/
lemma Numbered.increasing (h : Numbered cs sm) (hlt : (Call.ids cs).length < 2 ^ 64) :
    (Call.ids cs).Pairwise (· < ·) ∧ ∀ id ∈ Call.ids cs, id < sm.lastUsedTransferId := by
  have hofNat : ∀ {i j : Nat}, i < j → j < 2 ^ 64 → ofNat i < ofNat j := fun hij hj =>
    ofNat_lt_iff_lt (hij.trans hj) hj |>.mpr hij
  rw [h.ids, h.last]
  refine ⟨pairwise_map.mpr ?_, ?_⟩
  · grind [List.Pairwise.imp_of_mem, pairwise_lt_range]
  · grind

/-! ## Whole runs -/

/-- What holds after the calls `cs`. -/
structure Held (cs : List Call) (sm : StateMachine) : Prop where
  known : Known sm.exchanged sm.state
  numbered : Numbered cs sm

lemma Held.step (hs : Held cs sm) (hc : c.invalidAck = false) (h : Calls sm c sm') : Held (cs ++ [c]) sm' :=
  ⟨h.called.known hc hs.known, h.called.numbered hs.numbered⟩

lemma Held.of_init (h : calls.init sm) : Held [] sm := by
  obtain ⟨_, _, rfl | rfl⟩ := h <;> exact ⟨trivial, rfl, rfl⟩

/-- A run behind the handshake stays there, with the same session parameters. -/
lemma run_past (h : calls.Run sm cs sm') (hp : sm.state.progress = 4) :
    sm'.exchanged = sm.exchanged ∧ sm'.state.progress = 4 := by
  refine h.keeps (fun s => s.exchanged = sm.exchanged ∧ s.state.progress = 4) ?_ ⟨rfl, hp⟩
  intro s c s' ⟨hx, hp⟩ hc
  have hc : Called s c s' := Calls.called hc
  exact ⟨(hc.exchanged_eq hp).trans hx, Nat.le_antisymm s'.state.progress_le (hp ▸ hc.progress_le)⟩

lemma run_progress_le (h : calls.Run sm cs sm') : sm.state.progress ≤ sm'.state.progress :=
  h.keeps (fun s => sm.state.progress ≤ s.state.progress)
    (fun _ _ _ hs hc => hs.trans (Calls.called hc).progress_le) (Nat.le_refl _)

/-- What holds after any calls of the session loop without an acknowledgement of bytes
that were not sent: `sm` is a machine on the way and `sm'` one reached from there. -/
theorem run_sound {sm0 sm sm' : StateMachine} {cs cs' : List Call} (h0 : calls.init sm0) (h : calls.Run sm0 cs sm)
    (h' : calls.Run sm cs' sm') (hack : ∀ c ∈ cs ++ cs', c.invalidAck = false) :
    (sm'.state ≠ .shouldNeverExist ∧ sm'.state.stripped ≠ .shouldNeverExist) ∧
    (sm'.state.stripped.inSession = true → sm'.myContactHeader.isSome ∧ sm'.peerContactHeader.isSome ∧
      sm'.mySessInit.isSome ∧ sm'.peerSessInit.isSome) ∧
    (sm.isEstablished = true → sm'.mySessInit = sm.mySessInit ∧ sm'.peerSessInit = sm.peerSessInit ∧
      sm'.state.pastHandshake = true) ∧
    sm.state.progress ≤ sm'.state.progress ∧
    (∀ tt, sm'.state.tracker = some tt → tt.posAcked ≤ tt.pos ∧ tt.pos ≤ tt.transfer.data.length) ∧
    ((Call.ids (cs ++ cs')).length < 2 ^ 64 →
      (Call.ids (cs ++ cs')).Pairwise (· < ·) ∧ ∀ id ∈ Call.ids (cs ++ cs'), id < sm'.lastUsedTransferId) := by
  obtain ⟨hk, hn⟩ : Held ([] ++ (cs ++ cs')) sm' :=
    (h.append h').invariant (fun _ _ _ _ hs hc hstep => hs.step hc hstep) hack (.of_init h0)
  refine ⟨⟨hk.ne, hk.stripped_ne⟩, fun hs => ?_, fun he => ?_, run_progress_le h', fun tt ht => ?_, hn.increasing⟩
  · have hi := hk.inits hs
    exact ⟨hi.my, hi.peer, hi.mySessInit, hi.peerSessInit⟩
  · have hst := isEstablished_iff.mp he
    obtain ⟨hx, hp⟩ := run_past h' (by rw [hst]; rfl)
    exact ⟨congrArg Exchanged.mySessInit hx, congrArg Exchanged.peerSessInit hx, States.pastHandshake_iff.mpr hp⟩
  · have ho := hk.ordered ht
    exact ⟨ho.posAcked_le, ho.pos_le⟩

/-! ## A session -/

/-- The calls of an active machine up to the session. -/
def opening : List Call :=
  [.sent (.contactHeader (.new false)), .decoded (.ok (.contactHeader (.new false)))
    (.ok (.contactHeader (.new false))),
    .sent (.sessInit (.new "a")), .decoded (.ok (.sessInit (.new "b"))) (.ok (.sessInit (.new "b")))]

/-- The machine behind them, after transfers that have used up the ids below `n`. -/
def opened (n : UInt64) : StateMachine :=
  ⟨.sessionEstablished, false, "a", n, some (.new false), some (.new false), some (.new "a"), some (.new "b"), false⟩

lemma run_opening : calls.Run (.newActive "a" false) opening (opened 0) :=
  .cons (.send rfl rfl rfl rfl) (.cons (.decode rfl rfl rfl) (.cons (.send rfl rfl rfl rfl)
    (.cons (.decode rfl rfl rfl) .nil)))

/-- A transfer of two bytes with a keepalive in it. -/
theorem run_sound_opened : ∃ sm, calls.Run (opened 0)
      [.transferred [1, 2] 0, .sent (.xferSegment ⟨⟨true, true⟩, 0, [], [1, 2]⟩), .keptAlive] sm ∧
    sm.state.stripped.inSession = true ∧ sm.mySessInit = some (.new "a") ∧ sm.peerSessInit = some (.new "b") ∧
    0 < sm.lastUsedTransferId := by
  have hrun : calls.Run (opened 0)
      [.transferred [1, 2] 0, .sent (.xferSegment ⟨⟨true, true⟩, 0, [], [1, 2]⟩), .keptAlive] _ :=
    .cons (.transfer rfl rfl rfl) (.cons (.send rfl rfl rfl rfl) (.cons .keepalive .nil))
  obtain ⟨-, -, hinit, -, -, hids⟩ :=
    run_sound ⟨"a", false, .inl rfl⟩ run_opening hrun (by decide)
  obtain ⟨hmy, hpeer, -⟩ := hinit rfl
  exact ⟨_, hrun, rfl, hmy, hpeer, (hids (by decide)).2 0 (by decide)⟩

/-- A transfer of no bytes is over with its acknowledgement. -/
lemma run_empty (n : UInt64) : calls.Run (opened n)
    [.transferred [] n, .decoded (.ok (.xferAck ⟨⟨false, false⟩, n, 0⟩)) (.ok (.xferAck ⟨⟨false, false⟩, n, 0⟩))]
    (opened (n + 1)) := by
  refine .cons (.transfer rfl rfl rfl) (.cons (.decode rfl rfl ?_) .nil)
  simp only [StateMachine.decodeMessage, StateMachine.decodeInSession, StateMachine.acknowledge]
  exact if_neg (not_not.mpr rfl)

lemma run_empties (n : Nat) : ∃ cs, calls.Run (.newActive "a" false) cs (opened (ofNat n)) ∧
    (∀ c ∈ cs, c.invalidAck = false) ∧ (Call.ids cs).length = n := by
  induction n with
  | zero => exact ⟨opening, run_opening, by decide, rfl⟩
  | succ n ih =>
    obtain ⟨_, hrun, _, hlen⟩ := ih
    refine ⟨_, hrun.append (ofNat_add n 1 ▸ run_empty _), ?_, ?_⟩
    · grind [Call.invalidAck]
    · rw [Call.ids_append, length_append, hlen]
      rfl

/-- Behind the last number comes zero again. -/
theorem run_ids_wrap : ∃ cs sm, calls.Run (.newActive "a" false) cs sm ∧ (∀ c ∈ cs, c.invalidAck = false) ∧
    ¬ ∀ id ∈ Call.ids cs, id < sm.lastUsedTransferId := by
  obtain ⟨cs, hrun, hack, hlen⟩ := run_empties (2 ^ 64)
  refine ⟨cs, _, hrun, hack, fun hall => ?_⟩
  obtain ⟨id, hid⟩ := exists_mem_of_length_pos (hlen ▸ Nat.two_pow_pos 64)
  exact absurd (hall id hid) (UInt64.not_lt_zero)

end Dtn.Tcpcl
