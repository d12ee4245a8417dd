import Dtn.Impl.Tcpcl.Session
import Dtn.Framework.Run

/-!
# Two parties over FIFO channels

What a party of the protocol does as the other one sees it. A `Peer` is the
state of its machine, the transfer it is receiving and the messages on their
way to it, with a log of the transfers that it has taken over to send and of
those it has passed up. `Step l x y x' y'` is one thing that `x` can do: what it
writes goes behind the messages on their way to `y`. Its label says whether `x`
closes the session, sends a segment, or does something else.
-/

namespace Dtn.Tcpcl

namespace States

/-- The states behind the exchange of session parameters. -/
def pastHandshake : States → Bool
  | .activeSendContactHeader | .passiveWaitContactHeader | .activeWaitContactHeader | .passiveSendContactHeader
  | .activeSendSessInit | .passiveWaitSessInit | .activeWaitSessInit | .passiveSendSessInit => false
  | .sendKeepalive s => s.pastHandshake
  | _ => true

/-- The transfer being sent. -/
def tracker : States → Option TransferTracker
  | .sendXferSegments tt | .sendXferSegmentsAndAck tt _ => some tt
  | .sendKeepalive s => s.tracker
  | _ => none

/-- The states that read. -/
def reads : States → Bool
  | .passiveWaitContactHeader | .activeWaitContactHeader | .activeWaitSessInit | .passiveWaitSessInit
  | .sessionEstablished | .waitSessTerm | .sendXferSegments _ => true
  | _ => false

/-- The messages that a state that reads has an arm for. -/
def accepts : States → Messages → Bool
  | .activeWaitContactHeader, .contactHeader _ | .passiveWaitContactHeader, .contactHeader _ => true
  | .activeWaitSessInit, .sessInit _ | .passiveWaitSessInit, .sessInit _ => true
  | .waitSessTerm, .sessTerm _ | .sessionEstablished, .sessTerm _ | .sendXferSegments _, .sessTerm _ => true
  | .sessionEstablished, .xferSegment _ | .sendXferSegments _, .xferSegment _ => true
  | .sendXferSegments _, .xferAck _ => true
  | _, .keepalive _ | _, .msgReject _ => true
  | _, _ => false

end States

/-- A party and what is on its way to it. -/
structure Peer where
  state : States
  terminating : Bool
  /-- The largest segment that the other party takes. -/
  mru : UInt64
  receiving : Option Transfer
  inbox : List Messages
  accepted : List Transfer
  passedUp : List Transfer

inductive Label where
  | quiet
  | close
  | segment
  deriving DecidableEq

namespace Peer

/-- `m` is written to the party. -/
def push (y : Peer) (m : Messages) : Peer := { y with inbox := y.inbox ++ [m] }

/-- The transfer a segment is put behind. -/
inductive Joins : Option Transfer → XferSegment → Transfer → Prop where
  | first : Joins none s ⟨s.transferId, s.data⟩
  | next (h : t.id = s.transferId) : Joins (some t) s ⟨t.id, t.data ++ s.data⟩

/-- The state that acknowledges a segment. -/
inductive Acks : States → XferAck → States → Prop where
  | established : Acks .sessionEstablished a (.sendXferAck a)
  | sending : Acks (.sendXferSegments tt) a (.sendXferSegmentsAndAck tt a)

/-- The state behind a segment that ends at `e`. -/
def afterSegment (tt : TransferTracker) (e : Nat) : States :=
  if e = tt.transfer.data.length ∧ e = tt.posAcked then .sessionEstablished else .sendXferSegments { tt with pos := e }

/-- `x` does something. -/
inductive Step : Label → Peer → Peer → Peer → Peer → Prop where
  | idle : Step .quiet x y x y
  | tick (h : x.state.pastHandshake = true) : Step .quiet x y { x with state := .sendKeepalive x.state } y
  -- closing and transfers
  | close (h : x.state = .sessionEstablished) (r : Option SessTerm.ReasonCode) :
      Step .close x y { x with state := .sendSessTerm r } y
  | closeTick (h : x.state = .sessionEstablished) (r : Option SessTerm.ReasonCode) :
      Step .close x y { x with state := .sendKeepalive (.sendSessTerm r) } y
  | transfer (h : x.state = .sessionEstablished) (t : Transfer) (ht : t.data.length ≤ isizeMax) :
      Step .quiet x y { x with state := .sendXferSegments ⟨t, 0, 0⟩, accepted := x.accepted ++ [t] } y
  -- sending
  | sendHeaderActive (h : x.state = .activeSendContactHeader) (ch : ContactHeader) :
      Step .quiet x y { x with state := .activeWaitContactHeader } (y.push (.contactHeader ch))
  | sendHeaderPassive (h : x.state = .passiveSendContactHeader) (ch : ContactHeader) :
      Step .quiet x y { x with state := .passiveWaitSessInit } (y.push (.contactHeader ch))
  | sendInitActive (h : x.state = .activeSendSessInit) (n : String) :
      Step .quiet x y { x with state := .activeWaitSessInit } (y.push (.sessInit (.new n)))
  | sendInitPassive (h : x.state = .passiveSendSessInit) (n : String) :
      Step .quiet x y { x with state := .sessionEstablished } (y.push (.sessInit (.new n)))
  | sendKeepalive (h : x.state = .sendKeepalive s) : Step .quiet x y { x with state := s } (y.push (.keepalive ⟨⟩))
  | sendAck (h : x.state = .sendXferAck a) :
      Step .quiet x y { x with state := .sessionEstablished } (y.push (.xferAck a))
  | sendSegmentsAck (h : x.state = .sendXferSegmentsAndAck tt a) :
      Step .quiet x y { x with state := .sendXferSegments tt } (y.push (.xferAck a))
  | sendSegment (h : x.state = .sendXferSegments tt) (hpos : tt.pos ≠ tt.transfer.data.length)
      (hs : (StateMachine.nextSegment x.mru tt : Outcome Exit _) = .ok (s, e)) :
      Step .segment x y { x with state := afterSegment tt e } (y.push (.xferSegment s))
  | sendTerm (h : x.state = .sendSessTerm r) (st : SessTerm) :
      Step .quiet x y { x with state := if x.terminating then .connectionClose else .waitSessTerm, terminating := true }
        (y.push (.sessTerm st))
  | sendReject (h : x.state = .sendMsgReject r t) :
      Step .quiet x y { x with state := .connectionClose, terminating := true } (y.push (.msgReject ⟨r, t⟩))
  -- reading
  | readHeaderActive (h : x.state = .activeWaitContactHeader) (hx : x.inbox = .contactHeader ch :: ms) :
      Step .quiet x y { x with state := .activeSendSessInit, inbox := ms } y
  | readHeaderPassive (h : x.state = .passiveWaitContactHeader) (hx : x.inbox = .contactHeader ch :: ms) :
      Step .quiet x y { x with state := .passiveSendContactHeader, inbox := ms } y
  | readInitActive (h : x.state = .activeWaitSessInit) (hx : x.inbox = .sessInit si :: ms) :
      Step .quiet x y { x with state := .sessionEstablished, mru := si.segmentMru, inbox := ms } y
  | readInitPassive (h : x.state = .passiveWaitSessInit) (hx : x.inbox = .sessInit si :: ms) :
      Step .quiet x y { x with state := .passiveSendSessInit, mru := si.segmentMru, inbox := ms } y
  | readKeepalive (h : x.state.reads = true) (hx : x.inbox = .keepalive k :: ms) :
      Step .quiet x y { x with inbox := ms } y
  | readTerm (h : x.state = .sessionEstablished ∨ ∃ tt, x.state = .sendXferSegments tt)
      (hx : x.inbox = .sessTerm st :: ms) :
      Step .quiet x y { x with state := .sendSessTerm (some st.reason), terminating := true, inbox := ms } y
  | readLastTerm (h : x.state = .waitSessTerm) (hx : x.inbox = .sessTerm st :: ms) :
      Step .quiet x y { x with state := .connectionClose, inbox := ms } y
  /-- A segment of another transfer than the one that is being received. -/
  | dropSegment (hx : x.inbox = .xferSegment s :: ms) (ht : x.receiving = some t) (hid : t.id ≠ s.transferId) :
      Step .quiet x y { x with inbox := ms } y
  | readSegment (hx : x.inbox = .xferSegment s :: ms) (ht : Joins x.receiving s t)
      (hst : Acks x.state (s.toXferAck (UInt64.ofNat t.data.length)) st) : Step .quiet x y { x with
        state := st
        inbox := ms
        receiving := if s.flags.fin then none else some t
        passedUp := x.passedUp ++ if s.flags.fin then [t] else [] } y
  | readAck (h : x.state = .sendXferSegments tt) (hx : x.inbox = .xferAck a :: ms)
      (hlen : a.acknowlegedLength.toNat ≠ tt.transfer.data.length) : Step .quiet x y
        { x with state := .sendXferSegments { tt with posAcked := a.acknowlegedLength.toNat }, inbox := ms } y
  | readLastAck (h : x.state = .sendXferSegments tt) (hx : x.inbox = .xferAck a :: ms)
      (hlen : a.acknowlegedLength.toNat = tt.transfer.data.length) :
      Step .quiet x y { x with state := .sessionEstablished, inbox := ms } y
  /-- The protocol is broken. -/
  | reject (h : x.state.reads = true) (hx : x.inbox = m :: ms) (hm : x.state.accepts m = false)
      (r : MsgReject.ReasonCode) (t : UInt8) :
      Step .quiet x y { x with state := .sendMsgReject r t, inbox := ms } y

/-- The two parties, each taking steps in any order: the first one if the action says `true`. -/
def system (init : Peer × Peer → Prop) : System (Peer × Peer) (Bool × Label) where
  init := init
  step p a p' := match a with
    | (true, l) => Step l p.1 p.2 p'.1 p'.2
    | (false, l) => Step l p.2 p.1 p'.2 p'.1

end Peer

end Dtn.Tcpcl
