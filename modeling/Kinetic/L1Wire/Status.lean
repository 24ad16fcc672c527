import Kinetic.L1Wire.Proto

/-!
# Client status codes

`StatusCode`, `KineticStatus` and the translation of a drive's status.
-/
namespace Kinetic.L1

/-- mirrors include/kinetic/status_code.h:28-52 -/
inductive StatusCode where
  | ok
  | clientIoError
  | clientShutdown
  | clientInternalError
  | clientResponseHmacVerificationError
  | remoteHmacError
  | remoteNotAuthorized
  | remoteClusterVersionMismatch
  | remoteInvalidRequest
  | remoteInternalError
  | remoteHeaderRequired
  | remoteNotFound
  | remoteVersionMismatch
  | remoteServiceBusy
  | remoteExpired
  | remoteDataError
  | remotePermDataError
  | remoteRemoteConnectionError
  | remoteNoSpace
  | remoteNoSuchHmacAlgorithm
  | remoteOtherError
  | protocolErrorResponseNoAcksequence
  | remoteNestedOperationErrors
  deriving DecidableEq, Repr

/-- mirrors include/kinetic/kinetic_status.h:28-69 -/
structure KineticStatus where
  code : StatusCode
  message : String
  expectedClusterVersion : Int := 0
  deriving DecidableEq, Repr

/-- mirrors src/main/status_code.cc:43-86 -/
def convertFromProtoStatus : ProtoStatusCode → StatusCode
  | .success => .ok
  | .hmacFailure => .remoteHmacError
  | .notAuthorized => .remoteNotAuthorized
  | .versionFailure => .remoteClusterVersionMismatch
  | .internalError => .remoteInternalError
  | .headerRequired => .remoteHeaderRequired
  | .notFound => .remoteNotFound
  | .versionMismatch => .remoteVersionMismatch
  | .serviceBusy => .remoteServiceBusy
  | .expired => .remoteExpired
  | .dataError => .remoteDataError
  | .permDataError => .remotePermDataError
  | .remoteConnectionError => .remoteRemoteConnectionError
  | .noSpace => .remoteNoSpace
  | .noSuchHmacAlgorithm => .remoteNoSuchHmacAlgorithm
  | .invalidRequest => .remoteInvalidRequest
  | .invalidStatusCode => .clientInternalError
  | .nestedOperationErrors => .remoteNestedOperationErrors
  | .other _ => .remoteOtherError

/-- mirrors src/main/nonblocking_packet_receiver.cc:35-78 -/
def getKineticStatus (code : StatusCode) (expectedClusterVersion : Int) : KineticStatus :=
  match code with
  | .clientIoError => ⟨code, "IO error", 0⟩
  | .clientShutdown => ⟨code, "Client shutdown", 0⟩
  | .protocolErrorResponseNoAcksequence => ⟨code, "Response did not contain ack sequence", 0⟩
  | .clientResponseHmacVerificationError => ⟨code, "Response HMAC verification failed", 0⟩
  | .remoteHmacError => ⟨code, "Remote HMAC verification failed", 0⟩
  | .remoteNotAuthorized => ⟨code, "Not authorized", 0⟩
  | .remoteClusterVersionMismatch => ⟨code, "Cluster version mismatch", expectedClusterVersion⟩
  | .remoteInternalError => ⟨code, "Remote internal error", 0⟩
  | .remoteHeaderRequired => ⟨code, "Request requires a header to be set", 0⟩
  | .remoteNotFound => ⟨code, "Key not found", 0⟩
  | .remoteVersionMismatch => ⟨code, "Version mismatch", 0⟩
  | .remoteServiceBusy => ⟨code, "Remote service is busy", 0⟩
  | .remoteExpired => ⟨code, "Remote timeout", 0⟩
  | .remoteDataError => ⟨code, "Remote transient data error", 0⟩
  | .remotePermDataError => ⟨code, "Remote permanent data error", 0⟩
  | .remoteRemoteConnectionError => ⟨code, "Remote connection to peer failed", 0⟩
  | .remoteNoSpace => ⟨code, "No space left", 0⟩
  | .remoteNoSuchHmacAlgorithm => ⟨code, "Unknown HMAC algorithm", 0⟩
  | .remoteNestedOperationErrors => ⟨code, "Operation completed but has nested errors", 0⟩
  | _ => ⟨code, "Internal Error", 0⟩

/-- The translated status keeps its code. -/
@[simp] theorem getKineticStatus_code (code : StatusCode) (v : Int) :
    (getKineticStatus code v).code = code := by
  cases code <;> rfl

theorem convertFromProtoStatus_ok (c : ProtoStatusCode) :
    convertFromProtoStatus c = .ok ↔ c = .success := by
  cases c <;> simp [convertFromProtoStatus]

end Kinetic.L1
