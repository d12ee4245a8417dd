import Dtn.Proof.Tcpcl.Calls
import Dtn.Proof.Tcpcl.Stream

/-!
# The handshake

Two machines with their codecs, joined by streams of bytes that arrive in
pieces of any size. `Dir sm y` says what the machine `sm` has written to the side
`y` and what `y` has made of it: each state of the handshake has sent and got a
number of messages, and the bytes in between are theirs. So what a side reads
in the handshake is what it waits for (`Dir.read_handshake`).

`handshake_agrees`: the handshake gets by without a panic and without a reject,
and both parties know the same when they are through, as long as no piece ends
inside the node id of a SESS_INIT. `handshake_panics` is such a piece.
-/

namespace Dtn.Tcpcl

open List Outcome StateMachine Codec

variable {i : Interest}

/-! ## Two sides -/

/-- A machine with its framed reader: `stream` is all that was written to it, and `taken` how much of that has
arrived. -/
structure Side where
  machine : StateMachine
  codec : Codec
  buffer : List UInt8
  stream : List UInt8
  taken : Nat
  deriving DecidableEq

namespace Side

def new (sm : StateMachine) : Side := ⟨sm, .default, [], [], 0⟩

/-- The next `n` bytes arrive. -/
def fill (x : Side) (n : Nat) : Side :=
  { x with buffer := x.buffer ++ (x.stream.drop x.taken).take n, taken := x.taken + n }

/-- One call of the codec, and of `decode_message` with what comes of it. -/
def read (x : Side) : Outcome SessionErrors (Side × Option (Except SessionErrors Messages)) :=
  match x.codec.decode x.buffer with
  | .ok (none, c, rest) => .ok ({ x with codec := c, buffer := rest }, none)
  | .ok (some m, c, rest) => do
    let (sm, res) ← x.machine.decodeMessage (.ok m)
    return ({ x with machine := sm, codec := c, buffer := rest }, some res)
  | .err e => do
    let (sm, res) ← x.machine.decodeMessage (.error e)
    return ({ x with machine := sm }, some res)
  | .panic => .panic

/-- `send_message`, and the bytes that it writes. -/
def write (x : Side) : Outcome Exit (Side × List UInt8) := do
  let (sm, m) ← x.machine.sendMessage
  match m with
  | none => .ok ({ x with machine := sm }, [])
  | some m => do
    let sm ← sm.sendComplete
    let w ← encode m
    .ok ({ x with machine := sm }, w)

def receive (y : Side) (w : List UInt8) : Side := { y with stream := y.stream ++ w }

inductive Act where
  | fill (n : Nat)
  | read
  | write
  | call (c : Call)
  deriving DecidableEq

/-- The calls that neither read nor write. -/
def isLocal : Call → Bool
  | .sent _ | .dropped _ | .decoded _ _ => false
  | _ => true

/-- `x` does something. The session loop makes the other calls after the handshake only. -/
inductive Step (x y : Side) : Act → Side → Side → Prop where
  | fill (hn : x.taken + n ≤ x.stream.length) : Step x y (.fill n) (x.fill n) y
  | read {i : Interest} {x' : Side} {res : Option (Except SessionErrors Messages)}
      (hi : (x.machine.getInterests : Outcome Exit _) = .ok i) (hr : i.readable = true) (h : x.read = .ok (x', res)) :
      Step x y .read x' y
  | write {i : Interest} {x' : Side} {w : List UInt8} (hi : (x.machine.getInterests : Outcome Exit _) = .ok i)
      (hw : i.writable = true) (h : x.write = .ok (x', w)) : Step x y .write x' (y.receive w)
  | call (hc : isLocal c = true) (hp : x.machine.state.pastHandshake = true)
      (h : Calls x.machine c sm) : Step x y (.call c) { x with machine := sm } y

/-- An active and a passive machine; the flag says which of them does something. -/
def pair : System (Side × Side) (Bool × Act) where
  init p := ∃ a b ta tb, (utf8 a).length ≤ 65535 ∧ (utf8 b).length ≤ 65535 ∧
    p = (.new (.newActive a ta), .new (.newPassive b tb))
  step p a p' := if a.1 then Step p.1 p.2 a.2 p'.1 p'.2 else Step p.2 p.1 a.2 p'.2 p'.1

/-- With `n` bytes of what `sm` writes, its SESS_INIT is cut in the node id or in front of it, with as many
bytes there as a SESS_INIT without a node id has. -/
def cutsNodeId (sm : StateMachine) (n : Nat) : Bool := 31 ≤ n && n < 31 + (utf8 sm.myNodeId).length

/-- No piece ends there. -/
def whole (p : Side × Side) (a : Bool × Act) : Prop :=
  match a with
  | (true, .fill n) => cutsNodeId p.2.machine (p.1.taken + n) = false
  | (false, .fill n) => cutsNodeId p.1.machine (p.2.taken + n) = false
  | _ => True

end Side

/-! ## What the states say about the handshake -/

namespace States

/-- How many of its handshake messages the party has sent. -/
def sent : States → Nat
  | .activeSendContactHeader | .passiveWaitContactHeader | .passiveSendContactHeader => 0
  | .activeWaitContactHeader | .activeSendSessInit | .passiveWaitSessInit | .passiveSendSessInit => 1
  | .sendKeepalive s => s.sent
  | _ => 2

/-- How many of its peer's it has got. -/
def got : States → Nat
  | .activeSendContactHeader | .activeWaitContactHeader | .passiveWaitContactHeader => 0
  | .activeSendSessInit | .activeWaitSessInit | .passiveSendContactHeader | .passiveWaitSessInit => 1
  | .sendKeepalive s => s.got
  | _ => 2

/-- The handshake, with the session it leads to. -/
def opening : States → Bool
  | .sessionEstablished | .activeSendContactHeader | .passiveWaitContactHeader | .activeWaitContactHeader
  | .passiveSendContactHeader | .activeSendSessInit | .passiveWaitSessInit | .activeWaitSessInit
  | .passiveSendSessInit => true
  | _ => false

variable {s : States}

lemma sent_of_past (h : s.progress = 4) : s.sent = 2 := by
  induction s with
  | sendKeepalive _ ih => exact ih h
  | _ => first | rfl | cases h

lemma got_of_past (h : s.progress = 4) : s.got = 2 := by
  induction s with
  | sendKeepalive _ ih => exact ih h
  | _ => first | rfl | cases h

lemma not_wrapped_of_opening (h : s.opening = true) : s.wrapped = false := by
  cases s <;> first | rfl | cases h

end States

namespace StateMachine

variable {sm : StateMachine}

/-- A machine that reads in the handshake waits for the next of the peer's two messages. -/
lemma decode_handshake (hi : (sm.getInterests : Outcome Exit _) = .ok i) (hr : i.readable = true)
    (hp : sm.state.progress ≠ 4) :
    (sm.state.got = 0 ∧ ∀ ch, ∃ s, sm.decodeMessage (.ok (.contactHeader ch)) = (.ok ({ sm with
        peerContactHeader := some ch, state := s }, .ok (.contactHeader ch)) : Outcome SessionErrors _) ∧
      s.sent = sm.state.sent ∧ s.got = 1 ∧ s.opening = true) ∨
    (sm.state.got = 1 ∧ ∀ si, ∃ s, sm.decodeMessage (.ok (.sessInit si)) = (.ok ({ sm with
        peerSessInit := some si, state := s }, .ok (.sessInit si)) : Outcome SessionErrors _) ∧
      s.sent = sm.state.sent ∧ s.got = 2 ∧ s.opening = true) := by
  obtain ⟨st, _, _, _, _, _, _, _, _⟩ := sm
  cases st with
  | passiveWaitContactHeader | activeWaitContactHeader => exact .inl ⟨rfl, fun ch => ⟨_, rfl, rfl, rfl, rfl⟩⟩
  | passiveWaitSessInit | activeWaitSessInit => exact .inr ⟨rfl, fun si => ⟨_, rfl, rfl, rfl, rfl⟩⟩
  | sessionEstablished | waitSessTerm | sendXferSegments => exact absurd rfl hp
  | _ =>
    cases hi
    try cases hr

/-- One that writes sends the next of its own. -/
lemma send_handshake (hi : (sm.getInterests : Outcome Exit _) = .ok i) (hw : i.writable = true)
    (hp : sm.state.progress ≠ 4) (hs : sm.state.wrapped = false) :
    (sm.state.sent = 0 ∧ ∃ s, sm.sendMessage = (.ok ({ sm with myContactHeader := some (.new sm.canTls) },
        some (.contactHeader (.new sm.canTls))) : Outcome Exit _) ∧
      StateMachine.sendComplete { sm with myContactHeader := some (.new sm.canTls) } =
        (.ok { sm with myContactHeader := some (.new sm.canTls), state := s } : Outcome Exit _) ∧
      s.sent = 1 ∧ s.got = sm.state.got ∧ s.opening = true) ∨
    (sm.state.sent = 1 ∧ ∃ s, sm.sendMessage = (.ok ({ sm with mySessInit := some (.new sm.myNodeId) },
        some (.sessInit (.new sm.myNodeId))) : Outcome Exit _) ∧
      StateMachine.sendComplete { sm with mySessInit := some (.new sm.myNodeId) } =
        (.ok { sm with mySessInit := some (.new sm.myNodeId), state := s } : Outcome Exit _) ∧
      s.sent = 2 ∧ s.got = sm.state.got ∧ s.opening = true) := by
  obtain ⟨st, _, _, _, _, _, _, _, _⟩ := sm
  cases st with
  | activeSendContactHeader | passiveSendContactHeader => exact .inl ⟨rfl, _, rfl, rfl, rfl, rfl, rfl⟩
  | activeSendSessInit | passiveSendSessInit => exact .inr ⟨rfl, _, rfl, rfl, rfl, rfl, rfl⟩
  | sendKeepalive => cases hs
  | sendXferAck | sendSessTerm | sendXferSegmentsAndAck | sendMsgReject | sendXferSegments => exact absurd rfl hp
  | _ =>
    cases hi
    try cases hw

end StateMachine

/-! ## What is on its way -/

/-- What `sm` has written so far. -/
def Written (sm : StateMachine) (w : List UInt8) : Nat → Prop
  | 0 => w = []
  | 1 => w = (ContactHeader.new sm.canTls).encode
  | _ => ∃ v rest, (encode (.sessInit (.new sm.myNodeId)) : Outcome Exit _) = .ok v ∧
      w = (ContactHeader.new sm.canTls).encode ++ (v ++ rest)

/-- Where the reader of `y` is in it. -/
def Awaits (sm : StateMachine) (y : Side) : Nat → Prop
  | 0 => y.codec = .default ∧ y.buffer = y.stream.take y.taken
  | 1 => ∃ v, y.codec.At y.buffer v ∧ y.stream.take y.taken = (ContactHeader.new sm.canTls).encode ++ v
  | _ => True

/-- What `sm` has written to `y`, and what `y` has made of it. -/
structure Dir (sm : StateMachine) (y : Side) : Prop where
  nodeId : (utf8 sm.myNodeId).length ≤ 65535
  wrapped : sm.state.progress ≠ 4 → sm.state.wrapped = false
  myHeader : 1 ≤ sm.state.sent → sm.myContactHeader = some (.new sm.canTls)
  myInit : 2 ≤ sm.state.sent → sm.mySessInit = some (.new sm.myNodeId)
  written : Written sm y.stream sm.state.sent
  taken_le : y.taken ≤ y.stream.length
  cut : Side.cutsNodeId sm y.taken = false
  awaits : Awaits sm y y.machine.state.got
  peerHeader : 1 ≤ y.machine.state.got → y.machine.peerContactHeader = some (.new sm.canTls)
  peerInit : 2 ≤ y.machine.state.got → y.machine.peerSessInit = some (.new sm.myNodeId)

lemma exists_initItem (h : (utf8 nodeId).length ≤ 65535) : ∃ i : Item,
    (∀ {ε : Type}, (encode (.sessInit (.new nodeId)) : Outcome ε _) = .ok i.bytes) ∧
      i.message = .sessInit (.new nodeId) ∧ ∀ p, i.badAt p =
    (1 ≤ p && (24 ≤ p - 1 && p - 1 < 24 + (utf8 nodeId).length)) := by
  obtain ⟨_, hw⟩ := (plain_sessInit (m := .new nodeId) h rfl).encoded
  obtain ⟨b, rfl, hb⟩ := framed_message (t := .sessInit) rfl hw (plain_sessInit (m := .new nodeId) h rfl).acceptable
  exact ⟨⟨.sessInit, b, _, _, hb⟩, hw, rfl, fun p => rfl⟩

namespace Dir

variable {sm : StateMachine} {y : Side}
variable {sm' : StateMachine}

/-- The contact header is incomplete, or it is the next message. -/
lemma decode_header (h : Dir sm y) (hgot : y.machine.state.got = 0) :
    y.codec.decode y.buffer = .ok (none, y.codec, y.buffer) ∨
      ∃ v, y.codec.decode y.buffer = .ok (some (.contactHeader (.new sm.canTls)), ⟨true, none⟩, v) ∧
        y.stream.take y.taken = (ContactHeader.new sm.canTls).encode ++ v := by
  have haw := h.awaits
  rw [hgot] at haw
  obtain ⟨hc, hbuf⟩ := haw
  rw [hc, hbuf]
  rcases Nat.eq_zero_or_pos sm.state.sent with hs | hs
  · have hw := h.written
    rw [hs] at hw
    rw [show y.stream = [] from hw, take_nil]
    exact .inl rfl
  · obtain ⟨u, hu⟩ : ∃ u, y.stream = (ContactHeader.new sm.canTls).encode ++ u := by
      have hw := h.written
      obtain ⟨k, hk⟩ := Nat.exists_eq_add_of_lt hs
      rw [hk, Nat.zero_add] at hw
      cases k with
      | zero => exact ⟨[], by rw [append_nil]; exact hw⟩
      | succ =>
        obtain ⟨_, _, -, hw⟩ := hw
        exact ⟨_, hw⟩
    rw [hu]
    by_cases hlt : y.taken < 6
    · grind [length_header, decode_header_cut]
    · rw [take_append, take_of_length_le (by rw [length_header]; omega)]
      exact .inr ⟨_, Codec.decode_header _ _, rfl⟩

/-- So with the SESS_INIT, unless the piece ends in its node id. -/
lemma decode_init (h : Dir sm y) (hgot : y.machine.state.got = 1) :
    (∃ c buf v, y.codec.decode y.buffer = .ok (none, c, buf) ∧ c.At buf v ∧
        y.stream.take y.taken = (ContactHeader.new sm.canTls).encode ++ v) ∨
      ∃ buf, y.codec.decode y.buffer = .ok (some (.sessInit (.new sm.myNodeId)), ⟨true, none⟩, buf) := by
  have haw := h.awaits
  rw [hgot] at haw
  obtain ⟨v, hat, hv⟩ := haw
  obtain ⟨i, hi, hmsg, _⟩ := exists_initItem h.nodeId
  have hlen : y.taken = 6 + v.length := by grind [h.taken_le, length_append, length_header]
  -- what has arrived is the start of what follows the header
  obtain ⟨u, hu, hshape⟩ : ∃ u, v = u.take v.length ∧ (u = [] ∨ ∃ rest, u = i.bytes ++ rest) := by
    have hdrop : ∀ u, y.stream = (ContactHeader.new sm.canTls).encode ++ u → v = u.take v.length := by
      grind [length_header, take_length_add_append, append_cancel_left]
    have hw := h.written
    rcases hs : sm.state.sent with _ | _ | k
    · rw [hs] at hw
      rw [show y.stream = [] from hw, take_nil] at hv
      have := congrArg List.length hv
      rw [length_append, length_header, length_nil] at this
      omega
    · rw [hs] at hw
      exact ⟨[], hdrop [] (by rw [append_nil]; exact hw), .inl rfl⟩
    · rw [hs] at hw
      obtain ⟨_, rest, hb, hw⟩ := hw
      cases hi.symm.trans hb
      exact ⟨_, hdrop _ hw, .inr ⟨rest, rfl⟩⟩
  rcases hshape with rfl | ⟨rest, rfl⟩
  · rw [take_nil] at hu
    rw [hu] at hat hv
    exact .inl ⟨_, _, _, decode_nil hat, .fresh _, hv⟩
  · by_cases hlt : v.length < i.bytes.length
    · rw [take_append_of_le_length (Nat.le_of_lt hlt)] at hu
      have hat' := hat
      rw [hu] at hat'
      rcases decode_cut hat' hlt with ⟨_, -⟩ | ⟨-, _, _, _, _⟩
      · grind [h.cut, Side.cutsNodeId]
      · grind
    · rw [take_append, take_of_length_le (Nat.not_lt.mp hlt)] at hu
      rw [hu] at hat
      exact .inr ⟨_, hmsg ▸ decode_item i hat⟩

/-! ### Steps -/

lemma advance (h : Dir sm y) (hset : sm'.myNodeId = sm.myNodeId ∧ sm'.canTls = sm.canTls)
    (hwr : sm'.state.progress ≠ 4 → sm'.state.wrapped = false)
    (hch : 1 ≤ sm'.state.sent → sm'.myContactHeader = some (.new sm.canTls))
    (hsi : 2 ≤ sm'.state.sent → sm'.mySessInit = some (.new sm.myNodeId))
    (hw : Written sm (y.stream ++ w) sm'.state.sent) : Dir sm' (y.receive w) := by
  obtain ⟨hid, htls⟩ := hset
  have htake : (y.stream ++ w).take y.taken = y.stream.take y.taken := take_append_of_le_length h.taken_le
  refine ⟨hid ▸ h.nodeId, hwr, htls ▸ hch, hid ▸ hsi, ?_, ?_, ?_, ?_, htls ▸ h.peerHeader, hid ▸ h.peerInit⟩
  · unfold Written
    rw [hid, htls]
    exact hw
  · grind [h.taken_le, Side.receive]
  · rw [Side.cutsNodeId, hid]
    exact h.cut
  · have haw := h.awaits
    unfold Awaits at haw ⊢
    rw [htls, Side.receive, htake]
    exact haw

lemma of_writer (h : Dir sm y) (hset : sm'.myNodeId = sm.myNodeId ∧ sm'.canTls = sm.canTls)
    (hwr : sm'.state.progress ≠ 4 → sm'.state.wrapped = false) (hsent : sm'.state.sent = sm.state.sent)
    (hmy : sm'.myContactHeader = sm.myContactHeader ∧ sm'.mySessInit = sm.mySessInit) : Dir sm' y := by
  have hnil : y.receive [] = y := by rw [Side.receive, append_nil]
  rw [← hnil]
  refine h.advance hset hwr ?_ ?_ ?_
  · rw [hsent, hmy.1]
    exact h.myHeader
  · rw [hsent, hmy.2]
    exact h.myInit
  · rw [hsent, append_nil]
    exact h.written

lemma push (h : Dir sm y) (hs : sm.state.sent = 2) (w : List UInt8) : Dir sm (y.receive w) := by
  refine h.advance ⟨rfl, rfl⟩ h.wrapped h.myHeader h.myInit ?_
  have hw := h.written
  rw [hs] at hw ⊢
  obtain ⟨v, rest, hv, hw⟩ := hw
  exact ⟨v, rest ++ w, hv, by rw [hw, append_assoc, append_assoc]⟩

lemma fill (h : Dir sm y) (hn : y.taken + n ≤ y.stream.length)
    (hcut : Side.cutsNodeId sm (y.taken + n) = false) : Dir sm (y.fill n) := by
  have htake : y.stream.take (y.taken + n) = y.stream.take y.taken ++ (y.stream.drop y.taken).take n := take_add
  refine { h with taken_le := hn, cut := hcut, awaits := ?_ }
  have haw := h.awaits
  change Awaits sm _ y.machine.state.got
  generalize y.machine.state.got = k at haw ⊢
  match k with
  | 0 => exact ⟨haw.1, by rw [Side.fill, htake, haw.2]⟩
  | 1 =>
    obtain ⟨_, hat, hv⟩ := haw
    exact ⟨_, hat.append _, by rw [Side.fill, htake, hv, append_assoc]⟩
  | _ + 2 => exact trivial

lemma past_writer (h : Dir sm y) (hp : sm.state.progress = 4) (hc : Called sm c sm') : Dir sm' y := by
  have hp' : sm'.state.progress = 4 := Nat.le_antisymm sm'.state.progress_le (hp ▸ hc.progress_le)
  have hx := hc.exchanged_eq hp
  exact h.of_writer hc.settings_eq (fun hne => absurd hp' hne)
    (by rw [States.sent_of_past hp, States.sent_of_past hp'])
    ⟨congrArg Exchanged.myContactHeader hx, congrArg Exchanged.mySessInit hx⟩

lemma past_reader (h : Dir sm y) (c : Codec) (buf : List UInt8) (hp : y.machine.state.progress = 4)
    (hc : sm' = y.machine ∨ ∃ c, Called y.machine c sm') : Dir sm ⟨sm', c, buf, y.stream, y.taken⟩ := by
  have hgot := States.got_of_past hp
  obtain ⟨hx, hp'⟩ : sm'.exchanged = y.machine.exchanged ∧ sm'.state.progress = 4 := by
    rcases hc with rfl | ⟨c, hc⟩
    · exact ⟨rfl, hp⟩
    · exact ⟨hc.exchanged_eq hp, Nat.le_antisymm sm'.state.progress_le (hp ▸ hc.progress_le)⟩
  refine { h with awaits := ?_, peerHeader := fun _ => ?_, peerInit := fun _ => ?_ }
  · dsimp only
    rw [States.got_of_past hp']
    exact trivial
  · exact (congrArg Exchanged.peerContactHeader hx).trans (h.peerHeader (by omega))
  · exact (congrArg Exchanged.peerSessInit hx).trans (h.peerInit (by omega))

lemma of_reader (h : Dir sm y) (hgot : sm'.state.got = y.machine.state.got)
    (hpeer : sm'.peerContactHeader = y.machine.peerContactHeader ∧ sm'.peerSessInit = y.machine.peerSessInit) :
    Dir sm { y with machine := sm' } := by
  refine { h with awaits := ?_, peerHeader := ?_, peerInit := ?_ }
  · have haw := h.awaits
    rw [hgot]
    exact haw
  · dsimp only
    rw [hgot, hpeer.1]
    exact h.peerHeader
  · dsimp only
    rw [hgot, hpeer.2]
    exact h.peerInit

end Dir

lemma States.opening_of_handshake {s : States} (hp : s.progress ≠ 4) (hs : s.wrapped = false) : s.opening = true := by
  cases s with
  | sendKeepalive => cases hs
  | _ => first | rfl | exact absurd rfl hp

/-! ## The steps of the handshake -/

variable {x y : Side}

lemma Side.read_message (hd : x.codec.decode x.buffer = .ok (some m, c, buf))
    (h : x.machine.decodeMessage (.ok m) = (.ok (sm, res) : Outcome SessionErrors _)) :
    x.read = .ok ({ x with machine := sm, codec := c, buffer := buf }, some res) := by
  rw [Side.read, hd]
  dsimp only
  rw [h]
  rfl

/-- A side that reads in the handshake gets what it waits for, or nothing yet. -/
lemma Dir.read_handshake (h : Dir y.machine x) (hown : Dir x.machine y)
    (hi : (x.machine.getInterests : Outcome Exit _) = .ok i) (hr : i.readable = true)
    (hp : x.machine.state.progress ≠ 4) : ∃ x' res, x.read = .ok (x', res) ∧ (∀ r ∈ res, ∃ m, r = .ok m) ∧
      x'.machine.state.opening = true ∧ Dir y.machine x' ∧ Dir x'.machine y := by
  have hopen := States.opening_of_handshake hp (hown.wrapped hp)
  rcases decode_handshake hi hr hp with ⟨hgot, hdec⟩ | ⟨hgot, hdec⟩
  · rcases h.decode_header hgot with hd | ⟨v, hd, hv⟩
    · simp_all [Side.read]
    · obtain ⟨s, hs, hsent, hgot', hopen'⟩ := hdec (.new y.machine.canTls)
      refine ⟨_, _, Side.read_message hd hs, ?_, hopen', ?_, ?_⟩
      · rintro r ⟨⟩
        exact ⟨_, rfl⟩
      · refine { h with awaits := ?_, peerHeader := fun _ => rfl, peerInit := ?_ }
        · dsimp only
          rw [hgot']
          exact ⟨v, .fresh v, hv⟩
        · dsimp only
          rw [hgot']
          omega
      · exact hown.of_writer ⟨rfl, rfl⟩ (fun _ => States.not_wrapped_of_opening hopen') hsent ⟨rfl, rfl⟩
  · rcases h.decode_init hgot with ⟨c, buf, v, hd, hat, hv⟩ | ⟨buf, hd⟩
    · refine ⟨{ x with codec := c, buffer := buf }, none, ?_, nofun, hopen, ?_, hown⟩
      · rw [Side.read, hd]
      · refine { h with awaits := ?_ }
        rw [hgot]
        exact ⟨v, hat, hv⟩
    · obtain ⟨s, hs, hsent, hgot', hopen'⟩ := hdec (.new y.machine.myNodeId)
      refine ⟨_, _, Side.read_message hd hs, ?_, hopen', ?_, ?_⟩
      · rintro r ⟨⟩
        exact ⟨_, rfl⟩
      · refine { h with awaits := ?_, peerHeader := fun _ => ?_, peerInit := fun _ => rfl }
        · dsimp only
          rw [hgot']
          exact trivial
        · exact h.peerHeader (by omega)
      · exact hown.of_writer ⟨rfl, rfl⟩ (fun _ => States.not_wrapped_of_opening hopen') hsent ⟨rfl, rfl⟩

/-- One that writes sends its next handshake message. -/
lemma Dir.write_handshake (h : Dir x.machine y) (hpeer : Dir y.machine x)
    (hi : (x.machine.getInterests : Outcome Exit _) = .ok i) (hw : i.writable = true)
    (hp : x.machine.state.progress ≠ 4) : ∃ x' w, x.write = .ok (x', w) ∧
      x'.machine.state.opening = true ∧ Dir x'.machine (y.receive w) ∧ Dir y.machine x' := by
  rcases send_handshake hi hw hp (h.wrapped hp) with
    ⟨hsent, s, hm, hc, hsent', hgot, hopen⟩ | ⟨hsent, s, hm, hc, hsent', hgot, hopen⟩
  · refine ⟨{ x with machine := { x.machine with myContactHeader := some (.new x.machine.canTls), state := s } },
      (ContactHeader.new x.machine.canTls).encode, ?_, hopen, ?_, hpeer.of_reader hgot ⟨rfl, rfl⟩⟩
    · rw [Side.write, hm, ok_bind]
      dsimp only
      rw [hc]
      rfl
    · refine h.advance ⟨rfl, rfl⟩ (fun _ => States.not_wrapped_of_opening hopen) (fun _ => rfl) ?_ ?_
      · dsimp only
        rw [hsent']
        omega
      · have hwr := h.written
        rw [hsent] at hwr
        rw [hsent', show y.stream = [] from hwr, nil_append]
        exact rfl
  · obtain ⟨init, hinit, -⟩ := exists_initItem h.nodeId
    refine ⟨{ x with machine := { x.machine with mySessInit := some (.new x.machine.myNodeId), state := s } },
      init.bytes, ?_, hopen, ?_, hpeer.of_reader hgot ⟨rfl, rfl⟩⟩
    · grind [Side.write]
    · refine h.advance ⟨rfl, rfl⟩ (fun _ => States.not_wrapped_of_opening hopen) (fun _ => ?_) (fun _ => rfl) ?_
      · exact h.myHeader (by omega)
      · have hwr := h.written
        rw [hsent] at hwr
        rw [hsent', show y.stream = _ from hwr]
        exact ⟨init.bytes, [], hinit, by rw [append_nil]⟩

/-! ## Whole runs -/

/-- Both directions. -/
structure Shaking (x y : Side) : Prop where
  out : Dir x.machine y
  back : Dir y.machine x

variable {x' : Side}

lemma Side.read_eq_ok (hi : (x.machine.getInterests : Outcome Exit _) = .ok i) (hr : i.readable = true)
    (h : x.read = .ok (x', res)) :
    ∃ sm c buf, x' = ⟨sm, c, buf, x.stream, x.taken⟩ ∧ (sm = x.machine ∨ ∃ c, Called x.machine c sm) := by
  have hcalled : ∀ {r sm res}, x.machine.decodeMessage r = (.ok (sm, res) : Outcome SessionErrors _) →
      ∃ c, Called x.machine c sm := fun hd => ⟨_, (Calls.decode hi hr hd).called⟩
  unfold read at h
  split at h
  · cases h
    exact ⟨_, _, _, rfl, .inl rfl⟩
  · obtain ⟨⟨sm, res⟩, hd, h⟩ := bind_eq_ok.mp h
    cases h
    exact ⟨_, _, _, rfl, .inr (hcalled hd)⟩
  · obtain ⟨⟨_, _⟩, hd, h⟩ := bind_eq_ok.mp h
    cases h
    exact ⟨_, _, _, rfl, .inr (hcalled hd)⟩
  · cases h

lemma Side.write_eq_ok (hi : (x.machine.getInterests : Outcome Exit _) = .ok i) (hw : i.writable = true)
    (h : x.write = .ok (x', w)) :
    ∃ sm, x' = { x with machine := sm } ∧ (sm = x.machine ∨ ∃ c, Called x.machine c sm) := by
  obtain ⟨⟨sm, m⟩, hm, h⟩ := bind_eq_ok.mp h
  cases m with
  | none =>
    cases h
    exact ⟨sm, rfl, .inl (sendMessage_none hm)⟩
  | some =>
    obtain ⟨sm', hc, h⟩ := bind_eq_ok.mp h
    obtain ⟨_, -, h⟩ := bind_eq_ok.mp h
    cases h
    exact ⟨sm', rfl, .inr ⟨_, (Calls.send hi hw hm hc).called⟩⟩

/-- Behind the handshake a side may do anything to its machine, its codec and its buffer. -/
lemma Shaking.past (h : Shaking x y) (hp : x.machine.state.progress = 4)
    (hc : sm = x.machine ∨ ∃ c, Called x.machine c sm) (c : Codec) (buf : List UInt8) :
    Shaking ⟨sm, c, buf, x.stream, x.taken⟩ y := by
  refine ⟨?_, h.back.past_reader c buf hp hc⟩
  rcases hc with rfl | ⟨c, hc⟩
  · exact h.out
  · exact h.out.past_writer hp hc

lemma Shaking.step (h : Shaking x y) (hstep : Side.Step x y a x' y')
    (hcut : ∀ n, a = .fill n → Side.cutsNodeId y.machine (x.taken + n) = false) : Shaking x' y' := by
  cases hstep with
  | fill hn => exact ⟨h.out, h.back.fill hn (hcut _ rfl)⟩
  | read hi hr hread =>
    by_cases hp : x.machine.state.progress = 4
    · obtain ⟨sm, c, buf, rfl, hc⟩ := Side.read_eq_ok hi hr hread
      exact h.past hp hc c buf
    · obtain ⟨x1, _, hread', -, -, hback, hout⟩ := h.back.read_handshake h.out hi hr hp
      cases hread.symm.trans hread'
      exact ⟨hout, hback⟩
  | write hi hw hwrite =>
    by_cases hp : x.machine.state.progress = 4
    · obtain ⟨sm, rfl, hc⟩ := Side.write_eq_ok hi hw hwrite
      have h' := h.past hp hc x.codec x.buffer
      have hp' : sm.state.progress = 4 := by
        rcases hc with rfl | ⟨c, hc⟩
        · exact hp
        · exact Nat.le_antisymm sm.state.progress_le (hp ▸ hc.progress_le)
      exact ⟨h'.out.push (States.sent_of_past hp') _, h'.back⟩
    · obtain ⟨_, _, hwrite', -, hout, hback⟩ := h.out.write_handshake h.back hi hw hp
      cases hwrite.symm.trans hwrite'
      exact ⟨hout, hback⟩
  | call _ hp hc =>
    exact h.past (States.pastHandshake_iff.mp hp) (.inr ⟨_, hc.called⟩) x.codec x.buffer

variable {p : Side × Side}

lemma Shaking.of_reaches (h : Side.pair.Reaches Side.whole p) : Shaking p.1 p.2 := by
  refine h.invariant (fun p => Shaking p.1 p.2) ?_ ?_
  · rintro p ⟨a, b, ta, tb, ha, hb, rfl⟩
    constructor
    · exact ⟨ha, fun _ => rfl, nofun, nofun, rfl, Nat.le_refl _, rfl, ⟨rfl, rfl⟩, nofun, nofun⟩
    · exact ⟨hb, fun _ => rfl, nofun, nofun, rfl, Nat.le_refl _, rfl, ⟨rfl, rfl⟩, nofun, nofun⟩
  · rintro ⟨x, y⟩ ⟨b, a⟩ ⟨x', y'⟩ hxy hwhole hstep
    cases b with
    | true =>
      refine hxy.step hstep ?_
      rintro n rfl
      exact hwhole
    | false =>
      have hyx : Shaking y' x' := by
        refine Shaking.step ⟨hxy.back, hxy.out⟩ hstep ?_
        rintro n rfl
        exact hwhole
      exact ⟨hyx.back, hyx.out⟩

/-- A side in the handshake can do what it is to do: it does not panic, what it reads is no error, and it goes
on with the handshake or has established the session. -/
structure Smooth (x y : Side) : Prop where
  read : ∀ i, (x.machine.getInterests : Outcome Exit _) = .ok i → i.readable = true → ∃ x' res,
    x.read = .ok (x', res) ∧ (∀ r ∈ res, ∃ m, r = .ok m) ∧ x'.machine.state.opening = true
  write : ∀ i, (x.machine.getInterests : Outcome Exit _) = .ok i → i.writable = true → ∃ x' w,
    x.write = .ok (x', w) ∧ x'.machine.state.opening = true
  interests : ∃ i, (x.machine.getInterests : Outcome Exit _) = .ok i

lemma Shaking.smooth (h : Shaking x y) (hp : x.machine.state.pastHandshake = false) : Smooth x y := by
  have hp' : x.machine.state.progress ≠ 4 := by grind [States.pastHandshake_iff]
  refine ⟨fun i hi hr => ?_, fun i hi hw => ?_, ?_⟩
  · obtain ⟨x', res, hread, hres, hopen, -⟩ := h.back.read_handshake h.out hi hr hp'
    exact ⟨x', res, hread, hres, hopen⟩
  · obtain ⟨x', w, hwrite, hopen, -⟩ := h.out.write_handshake h.back hi hw hp'
    exact ⟨x', w, hwrite, hopen⟩
  · have hopen := States.opening_of_handshake hp' (h.out.wrapped hp')
    unfold StateMachine.getInterests
    generalize x.machine.state = s at hopen
    cases s <;> first | exact ⟨_, rfl⟩ | cases hopen

/-- What one party knows about the session. -/
structure Agrees (mine other : StateMachine) : Prop where
  nodeId : (mine.getPeerNodeId : Outcome Exit _) = .ok other.myNodeId
  mru : ∃ si, other.mySessInit = some si ∧ (mine.getPeerMru : Outcome Exit _) = .ok si.transferMru
  tls : (mine.shouldUseTls : Outcome Exit _) = .ok (mine.canTls && other.canTls)
  keepalive : ∃ k, (mine.getKeepaliveInterval : Outcome Exit _) = .ok k ∧
    (other.getKeepaliveInterval : Outcome Exit _) = .ok k

lemma Shaking.agrees (h : Shaking x y) (hx : x.machine.isEstablished = true) (hy : y.machine.isEstablished = true) :
    Agrees x.machine y.machine := by
  have hsx := isEstablished_iff.mp hx
  have hsy := isEstablished_iff.mp hy
  have hxch := h.out.myHeader (by rw [hsx]; decide)
  have hxsi := h.out.myInit (by rw [hsx]; decide)
  have hysi := h.back.myInit (by rw [hsy]; decide)
  have hxpch := h.back.peerHeader (by rw [hsx]; decide)
  have hxpsi := h.back.peerInit (by rw [hsx]; decide)
  have hypsi := h.out.peerInit (by rw [hsy]; decide)
  refine ⟨?_, ⟨_, hysi, ?_⟩, ?_, some keepaliveDefaultInterval, ?_, ?_⟩
  · rw [StateMachine.getPeerNodeId, if_pos hx, hxpsi]
    rfl
  · rw [StateMachine.getPeerMru, if_pos hx, hxpsi]
    rfl
  · rw [StateMachine.shouldUseTls, hxch, hxpch]
    rfl
  · rw [StateMachine.getKeepaliveInterval, if_pos hx, hxsi, hxpsi]
    rfl
  · rw [StateMachine.getKeepaliveInterval, if_pos hy, hysi, hypsi]
    rfl

/-- In every run without a piece that ends in a node id, the handshake never panics and never rejects, and both
parties know the same when they are established. -/
theorem handshake_agrees {p : Side × Side} (h : Side.pair.Reaches Side.whole p) :
    (p.1.machine.state.pastHandshake = false → Smooth p.1 p.2) ∧
    (p.2.machine.state.pastHandshake = false → Smooth p.2 p.1) ∧
    (p.1.machine.isEstablished = true → p.2.machine.isEstablished = true →
      Agrees p.1.machine p.2.machine ∧ Agrees p.2.machine p.1.machine) := by
  have hs := Shaking.of_reaches h
  have hs' : Shaking p.2 p.1 := ⟨hs.back, hs.out⟩
  exact ⟨hs.smooth, hs'.smooth, fun hx hy => ⟨hs.agrees hx hy, hs'.agrees hy hx⟩⟩

/-! ## Two handshakes -/

namespace Side

/-- The steps of the handshake as a function. -/
def act (x y : Side) : Act → Option (Side × Side)
  | .fill n => if x.taken + n ≤ x.stream.length then some (x.fill n, y) else none
  | .read =>
    match (x.machine.getInterests : Outcome Exit _), x.read with
    | .ok i, .ok (x', _) => if i.readable then some (x', y) else none
    | _, _ => none
  | .write =>
    match (x.machine.getInterests : Outcome Exit _), x.write with
    | .ok i, .ok (x', w) => if i.writable then some (x', y.receive w) else none
    | _, _ => none
  | .call _ => none

lemma act_eq_some (h : act x y a = some (x', y')) : Step x y a x' y' := by
  cases a with
  | fill =>
    simp only [act] at h
    split at h <;> cases h
    exact .fill ‹_›
  | read =>
    simp only [act] at h
    split at h
    · split at h <;> cases h
      exact .read ‹_› ‹_› ‹_›
    · cases h
  | write =>
    simp only [act] at h
    split at h
    · split at h <;> cases h
      exact .write ‹_› ‹_› ‹_›
    · cases h
  | call => cases h

/-- One step of either side. -/
def play (p : Side × Side) (a : Bool × Act) : Option (Side × Side) :=
  if a.1 then act p.1 p.2 a.2 else (act p.2 p.1 a.2).map Prod.swap

lemma play_eq_some (h : play p a = some p') : pair.step p a p' := by
  obtain ⟨b, a⟩ := a
  cases b with
  | true => exact act_eq_some (show act p.1 p.2 a = some (p'.1, p'.2) from h)
  | false =>
    obtain ⟨⟨_, _⟩, hact, rfl⟩ := Option.map_eq_some_iff.mp h
    exact act_eq_some hact

instance (p : Side × Side) (a : Bool × Act) : Decidable (whole p a) :=
  match a with
  | (true, .fill n) => inferInstanceAs (Decidable (cutsNodeId p.2.machine (p.1.taken + n) = false))
  | (false, .fill n) => inferInstanceAs (Decidable (cutsNodeId p.1.machine (p.2.taken + n) = false))
  | (true, .read) | (true, .write) | (true, .call _) | (false, .read) | (false, .write) | (false, .call _) =>
    inferInstanceAs (Decidable True)

/-- The machines of `a` and of `b`. -/
def start : Side × Side := (.new (.newActive "a" true), .new (.newPassive "b" true))

lemma init_start : pair.init start := ⟨"a", "b", true, true, by decide, by decide, rfl⟩

/-- The handshake up to the SESS_INIT of the active side. -/
def greet : List (Bool × Act) :=
  [(true, .write), (false, .fill 4), (false, .read), (false, .fill 2), (false, .read), (false, .write), (true, .fill 6),
    (true, .read), (true, .write)]

/-- The rest of it. -/
def introduce : List (Bool × Act) :=
  [(false, .fill 26), (false, .read), (false, .write), (true, .fill 20), (true, .read), (true, .fill 6), (true, .read)]

end Side

/-- Both sides are through, and agree. -/
theorem handshake_agrees_start : ∃ p, Side.pair.Reaches Side.whole p ∧ p.1.machine.isEstablished = true ∧
    p.2.machine.isEstablished = true ∧ Agrees p.1.machine p.2.machine ∧ Agrees p.2.machine p.1.machine := by
  have hplay (p a p') (h : (if Side.whole p a then Side.play p a else none) = some p') :
      Side.whole p a ∧ Side.pair.step p a p' := by
    split at h <;> [exact ⟨‹_›, Side.play_eq_some h⟩; cases h]
  obtain ⟨p, hreach, hx, hy⟩ := (System.Reaches.init Side.init_start).foldlM_any hplay (Side.greet ++ Side.introduce)
    (fun p => p.1.machine.isEstablished = true ∧ p.2.machine.isEstablished = true) (by decide +kernel)
  obtain ⟨-, -, hagree⟩ := handshake_agrees hreach
  exact ⟨p, hreach, hx, hy, hagree hx hy⟩

/-- With all but one byte of the SESS_INIT, the passive side panics. -/
theorem handshake_panics : ∃ p, Side.pair.Reaches (fun _ _ => True) p ∧ p.2.machine.state = .passiveWaitSessInit ∧
    p.2.read = .panic :=
  (System.Reaches.init Side.init_start).foldlM_any (fun _ _ _ h => ⟨trivial, Side.play_eq_some h⟩)
    (Side.greet ++ [(false, .fill 25)]) _ (by decide +kernel)

end Dtn.Tcpcl
