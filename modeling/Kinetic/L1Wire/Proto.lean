import Kinetic.Core.Bytes

/-!
# The protobuf messages

`Message` and `Command` of `kinetic.proto` (in src/tarballs, renamed
`kinetic_client.proto` by the build): the fields the client reads or sets, each
optional field an `Option` (`none`: `has_...()` is false). The getters that the
code calls answer the field's default when it is absent; the default of an
enumeration is its first member (`INVALID_AUTH_TYPE`, `INVALID_ALGORITHM`).

Serialization, parsing and OpenSSL's HMAC are vendored code and enter as the
parameter `Lib`.
-/
open Kinetic.Core

namespace Kinetic.L1

inductive AuthType where
  | invalidAuthType | hmacAuth | pinAuth | unsolicitedStatus
  deriving DecidableEq, Repr

structure HmacAuth where
  identity : Option Int := none
  hmac : Option Bytes := none
  deriving DecidableEq, Repr

structure PinAuth where
  pin : Option Bytes := none
  deriving DecidableEq, Repr

structure Message where
  authType : Option AuthType := none
  hmacAuth : Option HmacAuth := none
  pinAuth : Option PinAuth := none
  commandBytes : Option Bytes := none
  deriving DecidableEq, Repr

namespace Message

def getAuthType (m : Message) : AuthType := m.authType.getD .invalidAuthType

def getCommandBytes (m : Message) : Bytes := m.commandBytes.getD []

def getHmac (m : Message) : Bytes := (m.hmacAuth.getD {}).hmac.getD []

end Message

/-- `Command_MessageType` -/
inductive MessageType where
  | invalidMessageType
  | get | getResponse | put | putResponse | delete | deleteResponse | getNext | getNextResponse
  | getPrevious | getPreviousResponse | getKeyRange | getKeyRangeResponse | getVersion
  | getVersionResponse | setup | setupResponse | getLog | getLogResponse | security
  | securityResponse | peer2PeerPush | peer2PeerPushResponse | noop | noopResponse
  | flushAllData | flushAllDataResponse | pinOp | pinOpResponse | mediaScan | mediaScanResponse
  | mediaOptimize | mediaOptimizeResponse
  deriving DecidableEq, Repr

/-- `Command_MessageType_Name` -/
def MessageType.name : MessageType → String
  | .invalidMessageType => "INVALID_MESSAGE_TYPE"
  | .get => "GET"
  | .getResponse => "GET_RESPONSE"
  | .put => "PUT"
  | .putResponse => "PUT_RESPONSE"
  | .delete => "DELETE"
  | .deleteResponse => "DELETE_RESPONSE"
  | .getNext => "GETNEXT"
  | .getNextResponse => "GETNEXT_RESPONSE"
  | .getPrevious => "GETPREVIOUS"
  | .getPreviousResponse => "GETPREVIOUS_RESPONSE"
  | .getKeyRange => "GETKEYRANGE"
  | .getKeyRangeResponse => "GETKEYRANGE_RESPONSE"
  | .getVersion => "GETVERSION"
  | .getVersionResponse => "GETVERSION_RESPONSE"
  | .setup => "SETUP"
  | .setupResponse => "SETUP_RESPONSE"
  | .getLog => "GETLOG"
  | .getLogResponse => "GETLOG_RESPONSE"
  | .security => "SECURITY"
  | .securityResponse => "SECURITY_RESPONSE"
  | .peer2PeerPush => "PEER2PEERPUSH"
  | .peer2PeerPushResponse => "PEER2PEERPUSH_RESPONSE"
  | .noop => "NOOP"
  | .noopResponse => "NOOP_RESPONSE"
  | .flushAllData => "FLUSHALLDATA"
  | .flushAllDataResponse => "FLUSHALLDATA_RESPONSE"
  | .pinOp => "PINOP"
  | .pinOpResponse => "PINOP_RESPONSE"
  | .mediaScan => "MEDIASCAN"
  | .mediaScanResponse => "MEDIASCAN_RESPONSE"
  | .mediaOptimize => "MEDIAOPTIMIZE"
  | .mediaOptimizeResponse => "MEDIAOPTIMIZE_RESPONSE"

inductive Priority where
  | lower | other (n : Nat)
  deriving DecidableEq, Repr

structure Header where
  messageType : Option MessageType := none
  clusterVersion : Option Int := none
  connectionId : Option Int := none
  sequence : Option Int := none
  ackSequence : Option Int := none
  priority : Option Priority := none
  deriving DecidableEq, Repr

/-- `Command_Status_StatusCode`; `other` is a member `ConvertFromProtoStatus`
does not name. -/
inductive ProtoStatusCode where
  | invalidStatusCode | hmacFailure | notAuthorized | versionFailure | internalError
  | headerRequired | notFound | versionMismatch | serviceBusy | expired | dataError
  | permDataError | remoteConnectionError | noSpace | noSuchHmacAlgorithm | invalidRequest
  | nestedOperationErrors | success
  | other (n : Nat)
  deriving DecidableEq, Repr

structure Status where
  code : Option ProtoStatusCode := none
  statusMessage : Option Bytes := none
  deriving DecidableEq, Repr

inductive Synchronization where
  | writeThrough | writeBack | flush
  deriving DecidableEq, Repr

/-- `Command_Algorithm` -/
inductive Algorithm where
  | invalidAlgorithm | sha1 | sha2 | sha3 | crc32 | crc64
  deriving DecidableEq, Repr

structure KeyValue where
  newVersion : Option Bytes := none
  key : Option Bytes := none
  dbVersion : Option Bytes := none
  tag : Option Bytes := none
  algorithm : Option Algorithm := none
  force : Option Bool := none
  synchronization : Option Synchronization := none
  deriving DecidableEq, Repr

structure Range where
  startKey : Option Bytes := none
  endKey : Option Bytes := none
  startKeyInclusive : Option Bool := none
  endKeyInclusive : Option Bool := none
  maxReturned : Option Int := none
  keys : List Bytes := []
  reverse : Option Bool := none
  deriving DecidableEq, Repr

structure Setup where
  newClusterVersion : Option Int := none
  firmwareDownload : Option Bool := none
  deriving DecidableEq, Repr

structure Peer where
  hostname : Option Bytes := none
  port : Option Int := none
  deriving DecidableEq, Repr

mutual

/-- `Command_P2POperation` -/
inductive P2POperation where
  | mk (peer : Option Peer) (operation : List P2POperationOperation)

/-- `Command_P2POperation_Operation` -/
inductive P2POperationOperation where
  | mk (key version newKey : Option Bytes) (force : Option Bool) (status : Option Status)
      (p2pop : Option P2POperation)

end

inductive GetLogType where
  | utilizations | temperatures | capacities | configuration | statistics | messages | limits
  | device
  deriving DecidableEq, Repr

/-- A `float`, by its bits: the client only copies it. -/
abbrev FloatBits := BitVec 32

namespace GetLog

structure Utilization where
  name : Option Bytes := none
  value : Option FloatBits := none
  deriving DecidableEq, Repr

structure Temperature where
  name : Option Bytes := none
  current : Option FloatBits := none
  minimum : Option FloatBits := none
  maximum : Option FloatBits := none
  target : Option FloatBits := none
  deriving DecidableEq, Repr

structure Capacity where
  nominalCapacityInBytes : Option Nat := none
  portionFull : Option FloatBits := none
  deriving DecidableEq, Repr

structure Configuration where
  vendor : Option Bytes := none
  model : Option Bytes := none
  serialNumber : Option Bytes := none
  version : Option Bytes := none
  compilationDate : Option Bytes := none
  sourceHash : Option Bytes := none
  port : Option Int := none
  tlsPort : Option Int := none
  deriving DecidableEq, Repr

structure Statistics where
  messageType : Option MessageType := none
  count : Option Nat := none
  bytes : Option Nat := none
  deriving DecidableEq, Repr

structure Limits where
  maxKeySize : Option Nat := none
  maxValueSize : Option Nat := none
  maxVersionSize : Option Nat := none
  maxTagSize : Option Nat := none
  maxConnections : Option Nat := none
  maxOutstandingReadRequests : Option Nat := none
  maxOutstandingWriteRequests : Option Nat := none
  maxMessageSize : Option Nat := none
  deriving DecidableEq, Repr

end GetLog

/-- `types` is what a request asks for, the rest what a response brings. -/
structure GetLog where
  types : List GetLogType := []
  utilizations : List GetLog.Utilization := []
  temperatures : List GetLog.Temperature := []
  capacity : Option GetLog.Capacity := none
  configuration : Option GetLog.Configuration := none
  statistics : List GetLog.Statistics := []
  messages : Option Bytes := none
  limits : Option GetLog.Limits := none
  deriving DecidableEq, Repr

inductive ProtoPermission where
  | read | write | delete | range | setup | p2pOp | getLog | security
  deriving DecidableEq, Repr

structure AclScope where
  offset : Option Int := none
  value : Option Bytes := none
  permission : List ProtoPermission := []
  deriving DecidableEq, Repr

inductive HmacAlgorithm where
  | hmacSha1
  deriving DecidableEq, Repr

structure SecurityAcl where
  identity : Option Int := none
  key : Option Bytes := none
  hmacAlgorithm : Option HmacAlgorithm := none
  scope : List AclScope := []
  deriving DecidableEq, Repr

structure Security where
  acl : List SecurityAcl := []
  oldLockPin : Option Bytes := none
  newLockPin : Option Bytes := none
  oldErasePin : Option Bytes := none
  newErasePin : Option Bytes := none
  deriving DecidableEq, Repr

inductive PinOpType where
  | unlockPinOp | lockPinOp | erasePinOp | secureErasePinOp
  deriving DecidableEq, Repr

structure PinOperation where
  pinOpType : Option PinOpType := none
  deriving DecidableEq, Repr

structure Body where
  keyValue : Option KeyValue := none
  range : Option Range := none
  setup : Option Setup := none
  p2pOperation : Option P2POperation := none
  getLog : Option GetLog := none
  security : Option Security := none
  pinOp : Option PinOperation := none

structure Command where
  header : Option Header := none
  body : Option Body := none
  status : Option Status := none

namespace Command

def getHeader (c : Command) : Header := c.header.getD {}

/-- `command.mutable_header()->...`: the header is created if absent. -/
def modifyHeader (c : Command) (f : Header → Header) : Command :=
  { c with header := some (f c.getHeader) }

def modifyBody (c : Command) (f : Body → Body) : Command :=
  { c with body := some (f (c.body.getD {})) }

def getStatusCode (c : Command) : ProtoStatusCode :=
  ((c.status.getD {}).code).getD .invalidStatusCode

def getSequence (c : Command) : Int := c.getHeader.sequence.getD 0

def getClusterVersion (c : Command) : Int := c.getHeader.clusterVersion.getD 0

@[simp] theorem getHeader_modifyHeader (c : Command) (f : Header → Header) :
    (c.modifyHeader f).getHeader = f c.getHeader := rfl

end Command

/-- The vendored code that the client runs its messages through.
`SerializeToString` returns `serializeToString`, and when that is true it has
written `serializeMessage`; the protobuf of src/tarballs never returns false there,
but the code asks. The parsers answer whether they succeeded and what they left in
the message, which a failed parse leaves half filled. `hmacSha1 key` is HMAC-SHA1
of the bytes fed to it. -/
structure Lib where
  serializeToString : Message → Bool
  serializeMessage : Message → Bytes
  parseMessage : Bytes → Bool × Message
  serializeCommand : Command → Bytes
  parseCommand : Bytes → Bool × Command
  hmacSha1 : Bytes → Bytes → Bytes

end Kinetic.L1
