import Dtn.Impl.Tcpcl.Messages

/-!
# The session state machine (`tcpcl/src/v4/statemachine.rs`)

Each method takes the machine and gives the machine it leaves behind; an
assertion, an `unwrap` and a `panic!` are `panic`. `send_message` waits for the
writer between the message it appends and `send_complete`, so it is in two
parts here: `sendMessage` up to the message in the writer's buffer, and
`sendComplete`.

Positions are natural numbers. The sum of a position and the peer's segment
size wraps at 64 bits and so does the transfer id, as in a release build.
-/

namespace Dtn.Tcpcl

variable {ε : Type}

structure Transfer where
  id : UInt64
  data : List UInt8
  deriving DecidableEq

structure TransferTracker where
  transfer : Transfer
  pos : Nat
  posAcked : Nat
  deriving DecidableEq

/-- `errors::Errors`. -/
inductive SessionErrors where
  | messageTypeInappropriate (t : MessageType)
  | remoteRejected
  | doesNotSpeakTCPCL
  | tlsNameMissmatch (nodeId : String)
  | messageError (e : Errors)
  deriving DecidableEq

inductive TransferSendErrors where
  | bundleTooLarge (maxSize : UInt64)
  deriving DecidableEq

inductive States where
  -- handshake
  | activeSendContactHeader
  | passiveWaitContactHeader
  | activeWaitContactHeader
  | passiveSendContactHeader
  -- session initialisation
  | activeSendSessInit
  | passiveWaitSessInit
  | activeWaitSessInit
  | passiveSendSessInit
  | sessionEstablished
  -- data transfer
  | sendXferAck (ack : XferAck)
  | sendXferSegments (tt : TransferTracker)
  | sendXferSegmentsAndAck (tt : TransferTracker) (ack : XferAck)
  | sendKeepalive (s : States)
  -- session termination
  | sendSessTerm (reason : Option SessTerm.ReasonCode)
  | waitSessTerm
  | sendMsgReject (reason : MsgReject.ReasonCode) (messageType : UInt8)
  | connectionClose
  | shouldNeverExist
  deriving DecidableEq

structure StateMachine where
  state : States
  canTls : Bool
  myNodeId : String
  lastUsedTransferId : UInt64
  myContactHeader : Option ContactHeader
  peerContactHeader : Option ContactHeader
  mySessInit : Option SessInit
  peerSessInit : Option SessInit
  terminating : Bool
  deriving DecidableEq

/-- `tokio::io::Interest`. -/
structure Interest where
  readable : Bool
  writable : Bool
  deriving DecidableEq

/-- `Option::unwrap`. -/
def unwrap {α : Type} : Option α → Outcome ε α
  | some a => .ok a
  | none => .panic

namespace StateMachine

def newActive (nodeId : String) (canTls : Bool) : StateMachine :=
  ⟨.activeSendContactHeader, canTls, nodeId, 0, none, none, none, none, false⟩

def newPassive (nodeId : String) (canTls : Bool) : StateMachine :=
  ⟨.passiveWaitContactHeader, canTls, nodeId, 0, none, none, none, none, false⟩

/-! ## Sending -/

/-- The segment that `send_message` builds, and the position behind it. -/
def nextSegment (mru : UInt64) (tt : TransferTracker) : Outcome ε (XferSegment × Nat) :=
  let endPos := min ((tt.pos + mru.toNat) % 2 ^ 64) tt.transfer.data.length
  if tt.pos ≤ endPos then
    let data := (tt.transfer.data.drop tt.pos).take (endPos - tt.pos)
    .ok (.new ⟨endPos == tt.transfer.data.length, tt.pos == 0⟩ tt.transfer.id data, endPos)
  else .panic

/-- `send_message` up to the flush: the machine, and the message in the buffer.
There is none if all data has been sent; `send_complete` is not called then. -/
def sendMessage (sm : StateMachine) : Outcome ε (StateMachine × Option Messages) :=
  match sm.state with
  | .activeSendContactHeader | .passiveSendContactHeader =>
    let ch := ContactHeader.new sm.canTls
    .ok ({ sm with myContactHeader := some ch }, some (.contactHeader ch))
  | .activeSendSessInit | .passiveSendSessInit =>
    let si := SessInit.new sm.myNodeId
    .ok ({ sm with mySessInit := some si }, some (.sessInit si))
  | .sendXferAck ack | .sendXferSegmentsAndAck _ ack => .ok (sm, some (.xferAck ack))
  | .sendSessTerm r => .ok (sm, some (.sessTerm ⟨sm.terminating, r.getD .unkown⟩))
  | .sendXferSegments tt => do
    let si ← unwrap sm.peerSessInit
    if tt.pos = tt.transfer.data.length then .ok (sm, none)
    else do
      let (segment, endPos) ← nextSegment si.segmentMru tt
      .ok ({ sm with state := .sendXferSegments { tt with pos := endPos } }, some (.xferSegment segment))
  | .sendKeepalive _ => .ok (sm, some (.keepalive ⟨⟩))
  | .sendMsgReject r t => .ok (sm, some (.msgReject ⟨r, t⟩))
  | _ => .panic

def sendComplete (sm : StateMachine) : Outcome ε StateMachine :=
  match sm.state with
  | .activeSendContactHeader => .ok { sm with state := .activeWaitContactHeader }
  | .passiveSendContactHeader => .ok { sm with state := .passiveWaitSessInit }
  | .activeSendSessInit => .ok { sm with state := .activeWaitSessInit }
  | .passiveSendSessInit | .sendXferAck _ => .ok { sm with state := .sessionEstablished }
  | .sendXferSegmentsAndAck tt _ => .ok { sm with state := .sendXferSegments tt }
  | .sendXferSegments tt =>
    if tt.pos = tt.transfer.data.length ∧ tt.pos = tt.posAcked then .ok { sm with state := .sessionEstablished }
    else .ok sm
  | .sendKeepalive s => .ok { sm with state := s }
  | .sendSessTerm _ =>
    if sm.terminating then .ok { sm with state := .connectionClose }
    else .ok { sm with terminating := true, state := .waitSessTerm }
  | .sendMsgReject _ _ => .ok { sm with terminating := true, state := .connectionClose }
  | _ => .panic

/-! ## Receiving -/

/-- The machine after a call of `decode_message`, and what the call returns. -/
abbrev Decoded : Type := StateMachine × Except SessionErrors Messages

/-- A message that the state does not allow. -/
def inappropriate (sm : StateMachine) (m : Messages) : Outcome ε Decoded := do
  let t ← m.getMessageType
  return ({ sm with state := .sendMsgReject .messageUnexpected t.toU8 }, .error (.messageTypeInappropriate t))

/-- An acknowledgement for the transfer `tt`: `sending` is the state that goes on with it, `finished` the one after
it. -/
def acknowledge (sm : StateMachine) (xa : XferAck) (tt : TransferTracker) (sending : TransferTracker → States)
    (finished : States) : Outcome ε Decoded :=
  if tt.transfer.id ≠ xa.transferId then .panic
  else
    let tt := { tt with posAcked := xa.acknowlegedLength.toNat }
    if tt.posAcked > tt.pos then
      .ok ({ sm with state := sending tt }, .error (.messageError .invalidACKValue))
    else if tt.posAcked = tt.transfer.data.length then .ok ({ sm with state := finished }, .ok (.xferAck xa))
    else .ok ({ sm with state := sending tt }, .ok (.xferAck xa))

/-- `decode_message` while waiting for the contact header. -/
def decodeContactHeader (sm : StateMachine) (message : Except Errors Messages) (next : States) : Outcome ε Decoded :=
  match message with
  | .ok (.contactHeader ch) =>
    .ok ({ sm with peerContactHeader := some ch, state := next }, message.mapError .messageError)
  | .error .invalidHeader => .ok (sm, .error .doesNotSpeakTCPCL)
  | _ => .panic

/-- `decode_message` in the other states that read. -/
def decodeInSession (sm : StateMachine) (message : Except Errors Messages) : Outcome ε Decoded :=
  match message with
  | .error (.invalidMessageType n) =>
    .ok ({ sm with state := .sendMsgReject .messageTypeUnkown n }, message.mapError .messageError)
  | .ok (.sessInit si) =>
    match sm.state with
    | .activeWaitSessInit =>
      .ok ({ sm with peerSessInit := some si, state := .sessionEstablished }, message.mapError .messageError)
    | .passiveWaitSessInit =>
      .ok ({ sm with peerSessInit := some si, state := .passiveSendSessInit }, message.mapError .messageError)
    | _ => sm.inappropriate (.sessInit si)
  | .ok (.sessTerm st) =>
    match sm.state with
    | .waitSessTerm => .ok ({ sm with state := .connectionClose }, message.mapError .messageError)
    | .sessionEstablished | .sendXferSegments _ | .sendXferSegmentsAndAck _ _ =>
      .ok ({ sm with state := .sendSessTerm (some st.reason), terminating := true }, message.mapError .messageError)
    | _ => sm.inappropriate (.sessTerm st)
  | .ok (.xferSegment x) =>
    match sm.state with
    | .sessionEstablished | .sendXferSegments _ | .sendXferSegmentsAndAck _ _ =>
      .ok (sm, message.mapError .messageError)
    | _ => sm.inappropriate (.xferSegment x)
  | .ok (.xferAck xa) =>
    match sm.state with
    | .sendXferSegments tt => sm.acknowledge xa tt .sendXferSegments .sessionEstablished
    | .sendXferSegmentsAndAck tt ack => sm.acknowledge xa tt (.sendXferSegmentsAndAck · ack) (.sendXferAck ack)
    | _ => sm.inappropriate (.xferAck xa)
  | .ok (.keepalive _) | .ok (.msgReject _) | .error _ => .ok (sm, message.mapError .messageError)
  | .ok m => sm.inappropriate m

def decodeMessage (sm : StateMachine) (message : Except Errors Messages) : Outcome ε Decoded :=
  match sm.state with
  | .passiveWaitContactHeader => sm.decodeContactHeader message .passiveSendContactHeader
  | .activeWaitContactHeader => sm.decodeContactHeader message .activeSendSessInit
  | .activeWaitSessInit | .passiveWaitSessInit | .waitSessTerm | .sessionEstablished | .sendXferSegments _
  | .sendXferSegmentsAndAck _ _ | .sendKeepalive _ => sm.decodeInSession message
  | _ => .panic

/-! ## What the session asks and tells the machine -/

def getInterests (sm : StateMachine) : Outcome ε Interest :=
  match sm.state with
  | .activeSendContactHeader | .passiveSendContactHeader | .activeSendSessInit | .passiveSendSessInit
  | .sendXferAck _ | .sendSessTerm _ | .sendXferSegmentsAndAck _ _ | .sendKeepalive _ | .sendMsgReject _ _ =>
    .ok ⟨false, true⟩
  | .passiveWaitContactHeader | .activeWaitContactHeader | .activeWaitSessInit | .passiveWaitSessInit
  | .sessionEstablished | .waitSessTerm => .ok ⟨true, false⟩
  | .sendXferSegments tt => .ok ⟨true, decide (tt.pos < tt.transfer.data.length)⟩
  | .connectionClose | .shouldNeverExist => .panic

/-- An error leaves the machine as it was. -/
def sendTransfer (sm : StateMachine) (data : List UInt8) : Outcome TransferSendErrors StateMachine := do
  let si ← unwrap sm.peerSessInit
  if si.transferMru.toNat < data.length then .err (.bundleTooLarge si.transferMru)
  else
    let tracker : TransferTracker := ⟨⟨sm.lastUsedTransferId, data⟩, 0, 0⟩
    let sm := { sm with lastUsedTransferId := sm.lastUsedTransferId + 1 }
    match sm.state with
    | .sendXferAck ack => .ok { sm with state := .sendXferSegmentsAndAck tracker ack }
    | .sessionEstablished => .ok { sm with state := .sendXferSegments tracker }
    | _ => .panic

def sendAck (sm : StateMachine) (ack : XferAck) : Outcome ε StateMachine :=
  match sm.state with
  | .sendXferSegments tt => .ok { sm with state := .sendXferSegmentsAndAck tt ack }
  | .sessionEstablished => .ok { sm with state := .sendXferAck ack }
  | _ => .panic

def sendKeepalive (sm : StateMachine) : StateMachine := { sm with state := .sendKeepalive sm.state }

def isEstablished (sm : StateMachine) : Bool := sm.state == .sessionEstablished

def couldSendTransfer (sm : StateMachine) : Bool := sm.state == .sessionEstablished

def shouldClose (sm : StateMachine) : Bool := sm.state == .connectionClose

def closeConnection (sm : StateMachine) (reason : Option SessTerm.ReasonCode) : Outcome ε StateMachine :=
  if sm.isEstablished then .ok { sm with state := .sendSessTerm reason } else .panic

def connectionClosing (sm : StateMachine) : Bool :=
  match sm.state with
  | .sendSessTerm _ | .waitSessTerm | .connectionClose => true
  | _ => false

def getPeerNodeId (sm : StateMachine) : Outcome ε String :=
  if sm.isEstablished then do return (← unwrap sm.peerSessInit).nodeId else .panic

def getPeerMru (sm : StateMachine) : Outcome ε UInt64 :=
  if sm.isEstablished then do return (← unwrap sm.peerSessInit).transferMru else .panic

def getKeepaliveInterval (sm : StateMachine) : Outcome ε (Option UInt16) :=
  if sm.isEstablished then do
    let my ← unwrap sm.mySessInit
    let peer ← unwrap sm.peerSessInit
    let keepalive := if my.keepaliveInterval ≤ peer.keepaliveInterval then my.keepaliveInterval else
      peer.keepaliveInterval
    return if keepalive = 0 then none else some keepalive
  else .panic

def contactHeaderDone (sm : StateMachine) : Bool :=
  match sm.state with
  | .activeSendContactHeader | .activeWaitContactHeader | .passiveSendContactHeader | .passiveWaitContactHeader => false
  | _ => true

def shouldUseTls (sm : StateMachine) : Outcome ε Bool := do
  let my ← unwrap sm.myContactHeader
  let peer ← unwrap sm.peerContactHeader
  return my.canTls && peer.canTls

end StateMachine

end Dtn.Tcpcl
