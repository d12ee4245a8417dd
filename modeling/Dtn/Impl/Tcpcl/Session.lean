import Dtn.Impl.Tcpcl.StateMachine

/-!
# The session (`tcpcl/src/session.rs`)

`drive_statemachine` is a loop around a `select!`. `loopTop` is what it does
before it checks whether to close, `select` is this check and one branch of the
`select!`, and `turn` one time round from check to check. A branch that its
guard disables gives `none`.

What the session tells others is an `Effect`: the messages it writes, the
transfers it passes up, its answers to those who asked for a transfer, and the
news that it is established. The clock, TLS and the check of the peer's
certificate are outside: a tick says whether the peer has been silent for too
long, and `Tls` says what the library does.
-/

namespace Dtn.Tcpcl

/-- What OpenSSL does: the handshake succeeds, and the certificate is one for the node id. -/
structure Tls where
  upgrade : Bool
  validatePeerCertificate : String → Bool

/-- `TCPCLSession`, with the keepalive timer of `drive_statemachine`. A request for a
transfer is known by a `ρ`, the sender that its result goes to. -/
structure Session (ρ : Type) where
  statemachine : StateMachine
  receivingTransfer : Option Transfer
  establishedChannel : Bool
  initializedKeepalive : Bool
  initializedTls : Bool
  keepaliveTimer : Bool
  transferResultSender : Option ρ
  deriving DecidableEq

inductive Effect (ρ : Type) where
  | write (m : Messages)
  | passUp (t : Transfer)
  | answer (r : ρ) (result : Option TransferSendErrors)
  | established (peerEndpoint : String) (maxBundleSize : UInt64)
  deriving DecidableEq

/-- How `drive_statemachine` ends. -/
inductive Exit where
  | closed
  | peerClosed
  | ioError
  | sslError
  | tcpclError (e : SessionErrors)
  deriving DecidableEq

/-- A branch of the `select!`. -/
inductive Event (ρ : Type) where
  | read (message : Except Errors Messages)
  | eof
  | send
  | sendFailed
  | transfer (data : List UInt8) (r : ρ)
  | tick (idle : Bool)
  | close
  deriving DecidableEq

namespace Session

variable {ρ : Type}

/-- `TCPCLSession::new` and `TCPCLSession::connect`, around their state machines. -/
def new (sm : StateMachine) : Session ρ := ⟨sm, none, true, false, false, true, none⟩

/-- The acknowledgement, and the transfer passed up if this was its last segment. -/
def acknowledge (s : Session ρ) (x : XferSegment) (t : Transfer) : Outcome SessionErrors
    (Session ρ × List (Effect ρ)) := do
  let sm ← s.statemachine.sendAck (x.toXferAck (UInt64.ofNat t.data.length))
  if x.flags.fin then return ({ s with statemachine := sm, receivingTransfer := none }, [.passUp t])
  else return ({ s with statemachine := sm, receivingTransfer := some t }, [])

/-- A segment; one of another transfer than the current one is dropped. -/
def receiveSegment (s : Session ρ) (x : XferSegment) : Outcome SessionErrors (Session ρ × List (Effect ρ)) :=
  match s.receivingTransfer with
  | some t => if t.id = x.transferId then s.acknowledge x ⟨t.id, t.data ++ x.data⟩ else .ok (s, [])
  | none => s.acknowledge x ⟨x.transferId, x.data⟩

def readMessage (tls : Tls) (s : Session ρ) (message : Except Errors Messages) :
    Outcome SessionErrors (Session ρ × List (Effect ρ)) := do
  let (sm, msg) ← s.statemachine.decodeMessage message
  let s := { s with statemachine := sm }
  match msg with
  | .ok (.sessInit si) => do
    let useTls ← sm.shouldUseTls
    if useTls && !tls.validatePeerCertificate si.nodeId then .err (.tlsNameMissmatch si.nodeId) else .ok (s, [])
  | .ok (.xferSegment x) => s.receiveSegment x
  | .ok (.msgReject _) => .err .remoteRejected
  | .ok _ => .ok (s, [])
  | .error (.messageError (.invalidMessageType _)) | .error (.messageTypeInappropriate _) | .error .remoteRejected
  | .error (.tlsNameMissmatch _) => .ok (s, [])
  | .error e => .err e

/-- A tick closes an established session if the peer has been silent for too long. -/
def closeIfIdle (sm : StateMachine) (idle : Bool) : Outcome Exit StateMachine :=
  if sm.isEstablished then do
    let _ ← sm.getKeepaliveInterval
    if idle then sm.closeConnection (some .idleTimeout) else .ok sm
  else .ok sm

/-- One branch of the `select!`, or `none` if its guard does not hold. -/
def branch (tls : Tls) (s : Session ρ) (interest : Interest) :
    Event ρ → Outcome Exit (Option (Session ρ × List (Effect ρ)))
  | .read message => if interest.readable then some <$> (s.readMessage tls message).mapErr .tcpclError else .ok none
  | .eof => if interest.readable then .err .peerClosed else .ok none
  | .send =>
    if interest.writable then do
      let (sm, m) ← s.statemachine.sendMessage
      match m with
      | none => .ok (some ({ s with statemachine := sm }, []))
      | some m => do
        let sm ← sm.sendComplete
        .ok (some ({ s with statemachine := sm }, [.write m]))
    else .ok none
  | .sendFailed => if interest.writable then .err .ioError else .ok none
  | .transfer data r =>
    if s.statemachine.couldSendTransfer then
      match s.statemachine.sendTransfer data with
      | .ok sm => .ok (some ({ s with statemachine := sm, transferResultSender := some r }, []))
      | .err e => .ok (some (s, [.answer r (some e)]))
      | .panic => .panic
    else .ok none
  | .tick idle =>
    if s.keepaliveTimer then do
      let sm ← closeIfIdle s.statemachine idle
      .ok (some ({ s with statemachine := if s.initializedKeepalive then sm.sendKeepalive else sm }, []))
    else .ok none
  | .close =>
    if !s.statemachine.connectionClosing && s.statemachine.isEstablished then do
      let sm ← s.statemachine.closeConnection (some .resourceExhaustion)
      .ok (some ({ s with statemachine := sm }, []))
    else .ok none

/-- The loop ends if the machine should close, and waits in its `select!` else. -/
def select (tls : Tls) (s : Session ρ) (ev : Event ρ) : Outcome Exit (Option (Session ρ × List (Effect ρ))) :=
  if s.statemachine.shouldClose then .err .closed
  else do
    let interest ← s.statemachine.getInterests
    s.branch tls interest ev

/-! ## The loop before the `select!` -/

def initTls (tls : Tls) (s : Session ρ) : Outcome Exit (Session ρ) :=
  if !s.initializedTls && s.statemachine.contactHeaderDone then do
    let useTls ← s.statemachine.shouldUseTls
    if useTls && !tls.upgrade then .err .sslError else .ok { s with initializedTls := true }
  else .ok s

def notifyEstablished (s : Session ρ) : Outcome Exit (Session ρ × List (Effect ρ)) :=
  if s.statemachine.isEstablished && s.establishedChannel then do
    let nodeId ← s.statemachine.getPeerNodeId
    let mru ← s.statemachine.getPeerMru
    .ok ({ s with establishedChannel := false }, [.established nodeId mru])
  else .ok (s, [])

def initKeepalive (s : Session ρ) : Outcome Exit (Session ρ) :=
  if !s.initializedKeepalive && s.statemachine.isEstablished then do
    let interval ← s.statemachine.getKeepaliveInterval
    .ok { s with keepaliveTimer := interval.isSome, initializedKeepalive := true }
  else .ok s

/-- The transfer is over when the machine could send the next one. -/
def answerTransfer (s : Session ρ) : Session ρ × List (Effect ρ) :=
  if s.statemachine.couldSendTransfer then
    match s.transferResultSender with
    | some r => ({ s with transferResultSender := none }, [.answer r none])
    | none => (s, [])
  else (s, [])

def loopTop (tls : Tls) (s : Session ρ) : Outcome Exit (Session ρ × List (Effect ρ)) := do
  let s ← s.initTls tls
  let (s, es) ← s.notifyEstablished
  let s ← s.initKeepalive
  let (s, es') := s.answerTransfer
  .ok (s, es ++ es')

/-- One time round the loop. -/
def turn (tls : Tls) (s : Session ρ) (ev : Event ρ) : Outcome Exit (Option (Session ρ × List (Effect ρ))) := do
  match ← s.select tls ev with
  | none => .ok none
  | some (s, es) => do
    let (s, es') ← s.loopTop tls
    .ok (some (s, es ++ es'))

end Session

end Dtn.Tcpcl
