import Dtn.Framework.Bytes
import Dtn.Framework.Parser

/-!
# TCPCL messages and their codec (`tcpcl/src/v4/messages/`)

Each message has an `encode`, which appends to the output and panics on a
length that does not fit its field, and a `decode`, which works on the front
of the receive buffer: it gives `none` and leaves the buffer alone if bytes
are missing, and it panics where a read or a slice runs past the end of the
buffer. `Codec` decodes the contact header once and then messages by their
type byte, which it takes off the buffer before the message is complete.

Flag fields hold defined bits only and are kept as Booleans.
-/

namespace Dtn.Tcpcl

inductive MessageType where
  | sessInit
  | sessTerm
  | xferSegment
  | xferAck
  | xferRefuse
  | keepalive
  | msgReject
  deriving DecidableEq

def MessageType.toU8 : MessageType → UInt8
  | sessInit => 0x07
  | sessTerm => 0x05
  | xferSegment => 0x01
  | xferAck => 0x02
  | xferRefuse => 0x03
  | keepalive => 0x04
  | msgReject => 0x06

/-- `MessageType::try_from`. -/
def MessageType.tryFrom (n : UInt8) : Option MessageType :=
  if n = 0x07 then some sessInit
  else if n = 0x05 then some sessTerm
  else if n = 0x01 then some xferSegment
  else if n = 0x02 then some xferAck
  else if n = 0x03 then some xferRefuse
  else if n = 0x04 then some keepalive
  else if n = 0x06 then some msgReject
  else none

/-- `messages::Errors`; the content of an I/O error is left out. -/
inductive Errors where
  | ioError
  | invalidMessageType (n : UInt8)
  | invalidHeader
  | unkownCriticalSessionExtension (t : UInt16)
  | unkownCriticalTransferExtension (t : UInt16)
  | segmentTooLong
  | nodeIdInvalid
  | invalidACKValue
  deriving DecidableEq

/-! ## Reading and writing numbers -/

variable {ε : Type}

def getU8 : Parser ε UInt8 := do return UInt8.ofNat (beNat (← Parser.get 1))
def getU16 : Parser ε UInt16 := do return UInt16.ofNat (beNat (← Parser.get 2))
def getU32 : Parser ε UInt32 := do return UInt32.ofNat (beNat (← Parser.get 4))
def getU64 : Parser ε UInt64 := do return UInt64.ofNat (beNat (← Parser.get 8))

def putU8 (n : UInt8) : List UInt8 := beBytes 1 n.toNat
def putU16 (n : UInt16) : List UInt8 := beBytes 2 n.toNat
def putU64 (n : UInt64) : List UInt8 := beBytes 8 n.toNat

/-- The number in the slice `src[i..i + k]`, which panics past the end. -/
def peek (i k : Nat) (src : List UInt8) : Outcome ε Nat :=
  if i + k ≤ src.length then .ok (beNat ((src.drop i).take k)) else .panic

/-- A length, as the `k`-byte number that `try_into().unwrap()` makes of it. -/
def putLength (k n : Nat) : Outcome ε (List UInt8) :=
  if n < 256 ^ k then .ok (beBytes k n) else .panic

/-! ## Contact header -/

/-- The magic bytes are the same in every value and left out. -/
structure ContactHeader where
  version : UInt8
  canTls : Bool
  deriving DecidableEq

/-- `DTN_MAGIC_BYTES`. -/
def dtnMagicBytes : List UInt8 := [0x64, 0x74, 0x6E, 0x21]

namespace ContactHeader

def new (canTls : Bool) : ContactHeader := ⟨4, canTls⟩

def decode : Parser Errors (Option ContactHeader) := fun src =>
  if src.length < 6 then .ok (none, src)
  else
    (do
      let magic ← Parser.get 4
      if magic ≠ dtnMagicBytes then .fail .invalidHeader
      else do
        let version ← getU8
        let flags ← getU8
        return some ⟨version, flags &&& 1 == 1⟩ : Parser Errors (Option ContactHeader)) src

def encode (h : ContactHeader) : List UInt8 := dtnMagicBytes ++ (putU8 h.version ++ putU8 (if h.canTls then 1 else 0))

end ContactHeader

/-! ## Session initialisation -/

structure SessionExtension where
  critical : Bool
  extensionType : UInt16
  value : List UInt8
  deriving DecidableEq

namespace SessionExtension

def decode : Parser Errors SessionExtension := do
  let flags ← getU8
  let extensionType ← getU16
  let valueLength ← getU16
  let value ← Parser.get valueLength.toNat
  return ⟨flags &&& 1 == 1, extensionType, value⟩

def write (e : SessionExtension) : Outcome ε (List UInt8) := do
  let length ← putLength 2 e.value.length
  return putU8 (if e.critical then 1 else 0) ++ (putU16 e.extensionType ++ (length ++ e.value))

/-- One round of the loop over the extensions. -/
def decodeNext : Parser Errors SessionExtension := do
  let se ← decode
  if se.critical then .fail (.unkownCriticalSessionExtension se.extensionType) else return se

/-- `while src.remaining() > target_remaining`. Every extension takes a byte,
so the fuel is the length of the buffer. -/
def decodeAll (target fuel : Nat) : Parser Errors (List SessionExtension) := Parser.untilLeft target decodeNext fuel

/-- The extensions one after the other. -/
def writeAll (es : List SessionExtension) : Outcome ε (List UInt8) := Outcome.concat write es

end SessionExtension

structure SessInit where
  keepaliveInterval : UInt16
  segmentMru : UInt64
  transferMru : UInt64
  nodeId : String
  sessionExtensions : List SessionExtension
  deriving DecidableEq

/-- `KEEPALIVE_DEFAULT_INTERVAL`. -/
def keepaliveDefaultInterval : UInt16 := 60

/-- `MAX_SEGMENT_MRU`. -/
def maxSegmentMru : Nat := 100 * 1024

/-- `MAX_TRANSFER_MRU`. -/
def maxTransferMru : Nat := 1024 * 1024

namespace SessInit

def new (nodeId : String) : SessInit where
  keepaliveInterval := keepaliveDefaultInterval
  segmentMru := UInt64.ofNat maxSegmentMru
  transferMru := UInt64.ofNat maxTransferMru
  nodeId := nodeId
  sessionExtensions := []

/-- What `decode` does once it has seen a full frame. -/
def decodeFrame (nodeIdLength sessionExtensionsLength : Nat) : Parser Errors (Option SessInit) := do
  let keepaliveInterval ← getU16
  let segmentMru ← getU64
  let transferMru ← getU64
  let _ ← Parser.get 2
  let nodeIdVec ← Parser.get nodeIdLength
  match fromUtf8 nodeIdVec with
  | none => .fail .nodeIdInvalid
  | some nodeId => do
    let _ ← Parser.get 4
    let sessionExtensions ← fun src =>
      SessionExtension.decodeAll (src.length - sessionExtensionsLength) (src.length + 1) src
    return some { keepaliveInterval, segmentMru, transferMru, nodeId, sessionExtensions }

def decode : Parser Errors (Option SessInit) := fun src =>
  if src.length < 24 then .ok (none, src)
  else do
    let nodeIdLength ← peek 18 2 src
    let sessionExtensionsLength ← peek (20 + nodeIdLength) 4 src
    if src.length < 24 + nodeIdLength + sessionExtensionsLength then .ok (none, src)
    else decodeFrame nodeIdLength sessionExtensionsLength src

def encode (m : SessInit) : Outcome ε (List UInt8) := do
  let nodeIdLength ← putLength 2 (utf8 m.nodeId).length
  let extensions ← SessionExtension.writeAll m.sessionExtensions
  let extensionsLength ← putLength 4 extensions.length
  return putU16 m.keepaliveInterval ++ (putU64 m.segmentMru ++ (putU64 m.transferMru ++ (nodeIdLength ++
    (utf8 m.nodeId ++ (extensionsLength ++ extensions)))))

end SessInit

/-! ## Session termination -/

namespace SessTerm

inductive ReasonCode where
  | unkown
  | idleTimeout
  | versionMissmatch
  | busy
  | contactFailure
  | resourceExhaustion
  deriving DecidableEq

def ReasonCode.toU8 : ReasonCode → UInt8
  | unkown => 0
  | idleTimeout => 1
  | versionMissmatch => 2
  | busy => 3
  | contactFailure => 4
  | resourceExhaustion => 5

/-- `try_into().unwrap_or(ReasonCode::Unkown)`. -/
def ReasonCode.ofU8 (n : UInt8) : ReasonCode :=
  if n = 1 then idleTimeout
  else if n = 2 then versionMissmatch
  else if n = 3 then busy
  else if n = 4 then contactFailure
  else if n = 5 then resourceExhaustion
  else unkown

end SessTerm

structure SessTerm where
  reply : Bool
  reason : SessTerm.ReasonCode
  deriving DecidableEq

namespace SessTerm

def decode : Parser Errors (Option SessTerm) := fun src =>
  if src.length < 2 then .ok (none, src)
  else
    (do
      let flags ← getU8
      let reason ← getU8
      return some ⟨flags &&& 1 == 1, .ofU8 reason⟩ : Parser Errors (Option SessTerm)) src

def encode (m : SessTerm) : List UInt8 := putU8 (if m.reply then 1 else 0) ++ putU8 m.reason.toU8

end SessTerm

/-! ## Keepalive and rejection -/

structure Keepalive where
  deriving DecidableEq

def Keepalive.decode : Parser Errors (Option Keepalive) := fun src => .ok (some ⟨⟩, src)

def Keepalive.encode (_ : Keepalive) : List UInt8 := []

namespace MsgReject

inductive ReasonCode where
  | unkown
  | messageTypeUnkown
  | messageUnsupported
  | messageUnexpected
  deriving DecidableEq

def ReasonCode.toU8 : ReasonCode → UInt8
  | unkown => 0
  | messageTypeUnkown => 1
  | messageUnsupported => 2
  | messageUnexpected => 3

/-- `try_into().unwrap_or(ReasonCode::Unkown)`. -/
def ReasonCode.ofU8 (n : UInt8) : ReasonCode :=
  if n = 1 then messageTypeUnkown
  else if n = 2 then messageUnsupported
  else if n = 3 then messageUnexpected
  else unkown

end MsgReject

structure MsgReject where
  reason : MsgReject.ReasonCode
  messageHeader : UInt8
  deriving DecidableEq

namespace MsgReject

def decode : Parser Errors (Option MsgReject) := fun src =>
  if src.length < 2 then .ok (none, src)
  else
    (do
      let reason ← getU8
      let messageHeader ← getU8
      return some ⟨.ofU8 reason, messageHeader⟩ : Parser Errors (Option MsgReject)) src

def encode (m : MsgReject) : List UInt8 := putU8 m.reason.toU8 ++ putU8 m.messageHeader

end MsgReject

/-! ## Transfer segments -/

/-- `xfer_segment::MessageFlags`. -/
structure MessageFlags where
  fin : Bool
  start : Bool
  deriving DecidableEq

def MessageFlags.fromBitsTruncate (n : UInt8) : MessageFlags := ⟨n &&& 1 == 1, n &&& 2 == 2⟩

def MessageFlags.bits (f : MessageFlags) : UInt8 := (if f.fin then 1 else 0) ||| (if f.start then 2 else 0)

structure TransferExtension where
  critical : Bool
  extensionType : UInt16
  value : List UInt8
  deriving DecidableEq

namespace TransferExtension

/-- The vector starts out with as many zeros as the value has bytes, and `put` appends the value to them. -/
def decode : Parser Errors TransferExtension := do
  let flags ← getU8
  let extensionType ← getU16
  let valueLength ← getU16
  let value ← Parser.get valueLength.toNat
  return ⟨flags &&& 1 == 1, extensionType, List.replicate valueLength.toNat 0 ++ value⟩

def write (e : TransferExtension) : Outcome ε (List UInt8) := do
  let length ← putLength 2 e.value.length
  return putU8 (if e.critical then 1 else 0) ++ (putU16 e.extensionType ++ (length ++ e.value))

/-- One round of the loop over the extensions. -/
def decodeNext : Parser Errors TransferExtension := do
  let se ← decode
  if se.critical then .fail (.unkownCriticalTransferExtension se.extensionType) else return se

/-- `while src.remaining() > target_remaining`. Every extension takes a byte,
so the fuel is the length of the buffer. -/
def decodeAll (target fuel : Nat) : Parser Errors (List TransferExtension) := Parser.untilLeft target decodeNext fuel

/-- The extensions one after the other. -/
def writeAll (es : List TransferExtension) : Outcome ε (List UInt8) := Outcome.concat write es

end TransferExtension

structure XferAck where
  flags : MessageFlags
  transferId : UInt64
  acknowlegedLength : UInt64
  deriving DecidableEq

structure XferSegment where
  flags : MessageFlags
  transferId : UInt64
  transferExtensions : List TransferExtension
  data : List UInt8
  deriving DecidableEq

namespace XferSegment

def new (flags : MessageFlags) (transferId : UInt64) (data : List UInt8) : XferSegment :=
  ⟨flags, transferId, [], data⟩

def toXferAck (m : XferSegment) (acknowlegedLength : UInt64) : XferAck := ⟨m.flags, m.transferId, acknowlegedLength⟩

/-- The extensions from behind their length on; the assertion panics. -/
def decodeExtensionItems (length : Nat) : Parser Errors (List TransferExtension) := fun src =>
  if src.length < length then .panic
  else TransferExtension.decodeAll (src.length - length) (src.length + 1) src

/-- The extensions, which a first segment has; the assertion panics. -/
def decodeExtensions (flags : MessageFlags) : Parser Errors (List TransferExtension) := fun src =>
  if flags.start then
    if src.length < 12 then .panic
    else
      (do
        let transferExtensionsLength ← getU32
        decodeExtensionItems transferExtensionsLength.toNat : Parser Errors (List TransferExtension)) src
  else .ok ([], src)

/-- What `decode` does once it has seen a full frame. -/
def decodeFrame (flags : MessageFlags) (dataLength : Nat) : Parser Errors (Option XferSegment) := do
  let _ ← Parser.get 1
  let transferId ← getU64
  let transferExtensions ← decodeExtensions flags
  let _ ← Parser.get 8
  let data ← Parser.get dataLength
  return some { flags, transferId, transferExtensions, data }

/-- `decode` from the size of the frame without its data on. -/
def decodeSized (flags : MessageFlags) (minSize : Nat) : Parser Errors (Option XferSegment) := fun src => do
  let dataLength ← peek (minSize - 8) 8 src
  if dataLength > maxSegmentMru then .err .segmentTooLong
  else if src.length < minSize + dataLength then .ok (none, src)
  else decodeFrame flags dataLength src

def decode : Parser Errors (Option XferSegment) := fun src =>
  if src.length < 10 then .ok (none, src)
  else do
    let flags ← peek 0 1 src
    let flags := MessageFlags.fromBitsTruncate (UInt8.ofNat flags)
    if flags.start then do
      let extensionsLength ← peek 9 4 src
      if src.length < 21 + extensionsLength then .ok (none, src)
      else decodeSized flags (21 + extensionsLength) src
    else decodeSized flags 17 src

/-- The extensions' part of the encoding. -/
def encodeExtensions (m : XferSegment) : Outcome ε (List UInt8) :=
  if m.flags.start then do
    let extensions ← TransferExtension.writeAll m.transferExtensions
    let length ← putLength 4 extensions.length
    return length ++ extensions
  else .ok []

def encode (m : XferSegment) : Outcome ε (List UInt8) := do
  let extensions ← m.encodeExtensions
  let length ← putLength 8 m.data.length
  return putU8 m.flags.bits ++ (putU64 m.transferId ++ (extensions ++ (length ++ m.data)))

end XferSegment

/-! ## Transfer acknowledgements and refusals -/

namespace XferAck

def decode : Parser Errors (Option XferAck) := fun src =>
  if src.length < 9 then .ok (none, src)
  else
    (do
      let flags ← getU8
      let transferId ← getU64
      let acknowlegedLength ← getU64
      return some ⟨.fromBitsTruncate flags, transferId, acknowlegedLength⟩ : Parser Errors (Option XferAck)) src

def encode (m : XferAck) : List UInt8 := putU8 m.flags.bits ++ (putU64 m.transferId ++ putU64 m.acknowlegedLength)

end XferAck

namespace XferRefuse

inductive ReasonCode where
  | unkown
  | completed
  | noResources
  | retransmit
  | notAcceptable
  | extensionFailure
  | sessionTerminating
  deriving DecidableEq

def ReasonCode.toU8 : ReasonCode → UInt8
  | unkown => 0
  | completed => 1
  | noResources => 2
  | retransmit => 3
  | notAcceptable => 4
  | extensionFailure => 5
  | sessionTerminating => 6

/-- `try_into().unwrap_or(ReasonCode::Unkown)`. -/
def ReasonCode.ofU8 (n : UInt8) : ReasonCode :=
  if n = 1 then completed
  else if n = 2 then noResources
  else if n = 3 then retransmit
  else if n = 4 then notAcceptable
  else if n = 5 then extensionFailure
  else if n = 6 then sessionTerminating
  else unkown

end XferRefuse

structure XferRefuse where
  reason : XferRefuse.ReasonCode
  transferId : UInt64
  deriving DecidableEq

namespace XferRefuse

def decode : Parser Errors (Option XferRefuse) := fun src =>
  if src.length < 5 then .ok (none, src)
  else
    (do
      let reason ← getU8
      let transferId ← getU64
      return some ⟨.ofU8 reason, transferId⟩ : Parser Errors (Option XferRefuse)) src

def encode (m : XferRefuse) : List UInt8 := putU8 m.reason.toU8 ++ putU64 m.transferId

end XferRefuse

/-! ## The codec -/

inductive Messages where
  | contactHeader (m : ContactHeader)
  | sessInit (m : SessInit)
  | sessTerm (m : SessTerm)
  | keepalive (m : Keepalive)
  | msgReject (m : MsgReject)
  | xferSegment (m : XferSegment)
  | xferAck (m : XferAck)
  | xferRefuse (m : XferRefuse)
  deriving DecidableEq

/-- `Messages::get_message_type`, which panics on a contact header. -/
def Messages.getMessageType : Messages → Outcome ε MessageType
  | contactHeader _ => .panic
  | sessInit _ => .ok .sessInit
  | sessTerm _ => .ok .sessTerm
  | keepalive _ => .ok .keepalive
  | msgReject _ => .ok .msgReject
  | xferSegment _ => .ok .xferSegment
  | xferAck _ => .ok .xferAck
  | xferRefuse _ => .ok .xferRefuse

structure Codec where
  contactHeaderDone : Bool
  currMessageType : Option MessageType
  deriving DecidableEq

namespace Codec

/-- `Codec::default()`. -/
def default : Codec := ⟨false, none⟩

/-- The message of a known type, after its type byte. -/
def decodeMessage : MessageType → Parser Errors (Option Messages)
  | .sessInit => do return (← SessInit.decode).map .sessInit
  | .sessTerm => do return (← SessTerm.decode).map .sessTerm
  | .xferSegment => do return (← XferSegment.decode).map .xferSegment
  | .xferAck => do return (← XferAck.decode).map .xferAck
  | .xferRefuse => do return (← XferRefuse.decode).map .xferRefuse
  | .keepalive => do return (← Keepalive.decode).map .keepalive
  | .msgReject => do return (← MsgReject.decode).map .msgReject

/-- The message of the current type; it stays the current one until the message is there. -/
def decodeCurrent (t : MessageType) (src : List UInt8) : Outcome Errors (Option Messages × Codec × List UInt8) := do
  let (m, src) ← decodeMessage t src
  return (m, ⟨true, if m.isSome then none else some t⟩, src)

/-- `Codec::decode`: the message if there is one, and the codec and the buffer it leaves behind. -/
def decode (c : Codec) (src : List UInt8) : Outcome Errors (Option Messages × Codec × List UInt8) :=
  if !c.contactHeaderDone then do
    let (m, src) ← ContactHeader.decode src
    return (m.map .contactHeader, { c with contactHeaderDone := m.isSome }, src)
  else
    match src, c.currMessageType with
    | [], _ => .ok (none, c, [])
    | b :: bs, none =>
      match MessageType.tryFrom b with
      | some t => decodeCurrent t bs
      | none => .err (.invalidMessageType b)
    | src, some t => decodeCurrent t src

/-- `Codec::encode`, as the bytes it appends. -/
def encode : Messages → Outcome ε (List UInt8)
  | .contactHeader m => .ok m.encode
  | .sessInit m => do return putU8 MessageType.sessInit.toU8 ++ (← m.encode)
  | .sessTerm m => .ok (putU8 MessageType.sessTerm.toU8 ++ m.encode)
  | .keepalive m => .ok (putU8 MessageType.keepalive.toU8 ++ m.encode)
  | .msgReject m => .ok (putU8 MessageType.msgReject.toU8 ++ m.encode)
  | .xferSegment m => do return putU8 MessageType.xferSegment.toU8 ++ (← m.encode)
  | .xferAck m => .ok (putU8 MessageType.xferAck.toU8 ++ m.encode)
  | .xferRefuse m => .ok (putU8 MessageType.xferRefuse.toU8 ++ m.encode)

end Codec

end Dtn.Tcpcl
