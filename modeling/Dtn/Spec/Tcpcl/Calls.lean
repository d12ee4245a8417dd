import Dtn.Spec.Tcpcl.Peer

/-!
# The calls of the session loop

The machine as the session loop uses it. A `Call` is a call of a method with
what it gives. `Calls sm c sm'` says that the guards of the `select!` let the
loop make the call on `sm`, that it returns normally and that it leaves `sm'`.
The runs of `calls` have all the messages and errors that a peer and a reader
can come up with, in any order.

A call of `send_message` that waits for the flush ends there if another branch
of the `select!` is ready first: the message is in the buffer, `send_complete`
has not run, and the loop calls `send_message` again later.
-/

namespace Dtn.Tcpcl

inductive Call where
  | sent (m : Messages)
  /-- `send_message`, given up behind the message it appends. -/
  | dropped (m : Messages)
  | decoded (r : Except Errors Messages) (res : Except SessionErrors Messages)
  /-- `send_transfer`, and the id that the transfer gets. -/
  | transferred (data : List UInt8) (id : UInt64)
  | refused (data : List UInt8) (e : TransferSendErrors)
  | acked (a : XferAck)
  | keptAlive
  | closed (reason : Option SessTerm.ReasonCode)
  deriving DecidableEq

/-- There is always something to send if the machine is writable. `send_ack` and
`send_keepalive` may come at any time here; the loop calls the one behind a segment
and the other one after the session is established. -/
inductive Calls (sm : StateMachine) : Call → StateMachine → Prop where
  | send (hi : (sm.getInterests : Outcome Exit _) = .ok i) (hw : i.writable = true)
      (h : (sm.sendMessage : Outcome Exit _) = .ok (sm₁, some m))
      (hc : (sm₁.sendComplete : Outcome Exit _) = .ok sm') : Calls sm (.sent m) sm'
  | drop (hi : (sm.getInterests : Outcome Exit _) = .ok i) (hw : i.writable = true)
      (h : (sm.sendMessage : Outcome Exit _) = .ok (sm', some m)) : Calls sm (.dropped m) sm'
  | decode (hi : (sm.getInterests : Outcome Exit _) = .ok i) (hr : i.readable = true)
      (h : (sm.decodeMessage r : Outcome SessionErrors _) = .ok (sm', res)) : Calls sm (.decoded r res) sm'
  | transfer {id : UInt64} (hg : sm.couldSendTransfer = true) (h : sm.sendTransfer data = .ok sm')
      (ht : sm'.state.tracker.map (·.transfer.id) = some id) : Calls sm (.transferred data id) sm'
  | refuse (hg : sm.couldSendTransfer = true) (h : sm.sendTransfer data = .err e) : Calls sm (.refused data e) sm
  | ack (h : (sm.sendAck a : Outcome SessionErrors _) = .ok sm') : Calls sm (.acked a) sm'
  | keepalive : Calls sm .keptAlive sm.sendKeepalive
  | close (hg : sm.isEstablished = true)
      (h : (sm.closeConnection reason : Outcome Exit _) = .ok sm') : Calls sm (.closed reason) sm'

/-- A new machine and the calls on it. -/
def calls : System StateMachine Call where
  init sm := ∃ nodeId canTls, sm = .newActive nodeId canTls ∨ sm = .newPassive nodeId canTls
  step := Calls

namespace Call

/-- The ids of the transfers, in the order in which they were taken over. -/
def ids (cs : List Call) : List UInt64 :=
  cs.filterMap fun | .transferred _ id => some id | _ => none

/-- The message that a call appends. -/
def message : Call → Option Messages
  | .sent m | .dropped m => some m
  | _ => none

/-- The messages that were appended, in order. -/
def messages (cs : List Call) : List Messages := cs.filterMap message

/-- The peer has acknowledged more than it was sent. -/
def invalidAck : Call → Bool
  | .decoded _ (.error (.messageError .invalidACKValue)) => true
  | _ => false

/-- A call of `send_keepalive`, and one of `send_message` that appends the keepalive. -/
def isKeepalive : Call → Bool
  | .keptAlive | .sent (.keepalive _) | .dropped (.keepalive _) => true
  | _ => false

variable (cs cs' : List Call)

@[simp] lemma ids_append : ids (cs ++ cs') = ids cs ++ ids cs' := List.filterMap_append

end Call

namespace States

/-- The state below all keepalives. -/
def stripped : States → States
  | .sendKeepalive s => s.stripped
  | s => s

/-- A keepalive is to be sent. -/
def wrapped : States → Bool
  | .sendKeepalive _ => true
  | _ => false

/-- The states in which a session is up or on its way down. -/
def inSession : States → Bool
  | .sessionEstablished | .sendXferAck _ | .sendXferSegments _ | .sendXferSegmentsAndAck _ _ | .sendSessTerm _
  | .waitSessTerm => true
  | _ => false

/-- How many of the four steps of the handshake are done. The handshake states of one party have different numbers. -/
def progress : States → Nat
  | .activeSendContactHeader | .passiveWaitContactHeader => 0
  | .activeWaitContactHeader | .passiveSendContactHeader => 1
  | .activeSendSessInit | .passiveWaitSessInit => 2
  | .activeWaitSessInit | .passiveSendSessInit => 3
  | .sendKeepalive s => s.progress
  | _ => 4

end States

/-- The machine without the keepalives that it has not sent yet. -/
def StateMachine.stripped (sm : StateMachine) : StateMachine := { sm with state := sm.state.stripped }

end Dtn.Tcpcl
