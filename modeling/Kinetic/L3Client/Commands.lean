import Kinetic.L1Wire.Proto

/-!
# The commands of the client interface

What each operation of `NonblockingKineticConnection` submits to the packet
service: a `Message`, a `Command` and a value. Arguments are modelled as the
source passes them: a `shared_ptr` is an `Option` (`none` is null), and an
operation that dereferences a null pointer has no submission. Callbacks do not
enter a submission and are left to `Blocking`.
-/
open Kinetic.Core

namespace Kinetic.L3

open L1

/-- mirrors include/kinetic/kinetic_connection.h:23-31 -/
inductive WriteMode where
  | requireSameVersion | ignoreVersion
  deriving DecidableEq, Repr

/-- mirrors include/kinetic/kinetic_connection.h:33-41 -/
inductive PersistMode where
  | writeBack | writeThrough | flush
  deriving DecidableEq, Repr

/-- mirrors include/kinetic/acls.h:28 -/
inductive Permission where
  | read | write | delete | range | setup | p2pOp | getLog | security
  deriving DecidableEq, Repr

/-- mirrors include/kinetic/acls.h:33-39 -/
structure Scope where
  offset : Int
  value : Bytes
  permissions : List Permission
  deriving DecidableEq, Repr

/-- mirrors include/kinetic/acls.h:41-51 -/
structure ACL where
  identity : Int
  hmacKey : Bytes
  scopes : List Scope
  deriving DecidableEq, Repr

/-- `shared_ptr<const string>` -/
abbrev StringPtr := Option Bytes

/-- mirrors include/kinetic/kinetic_record.h:74-78 -/
structure KineticRecord where
  value : StringPtr
  version : StringPtr
  tag : StringPtr
  algorithm : Algorithm
  deriving DecidableEq, Repr

mutual

/-- mirrors include/kinetic/nonblocking_kinetic_connection_interface.h:290-297 -/
inductive P2PPushRequest where
  | mk (host : Bytes) (port : Int) (operations : List P2PPushOperation)

/-- mirrors include/kinetic/nonblocking_kinetic_connection_interface.h:267-288 -/
inductive P2PPushOperation where
  | mk (key version newKey : Bytes) (force : Bool) (request : Option P2PPushRequest)

end

/-- What `Submit` is given, the handler apart. -/
structure Submission where
  message : Message
  command : Command
  value : StringPtr

/-- mirrors include/kinetic/nonblocking_kinetic_connection.h, the members that
a command depends on. -/
structure NonblockingKineticConnection where
  clusterVersion : Int
  deriving DecidableEq, Repr

def hmacMessage : Message := { authType := some .hmacAuth }

def pinMessage (pin : StringPtr) : Message :=
  { authType := some .pinAuth, pinAuth := pin.map fun p => { pin := some p } }

def modifySecurity (c : Command) (f : Security → Security) : Command :=
  c.modifyBody fun b => { b with security := some (f (b.security.getD {})) }

def modifyGetLog (c : Command) (f : GetLog → GetLog) : Command :=
  c.modifyBody fun b => { b with getLog := some (f (b.getLog.getD {})) }

/-- mirrors src/main/nonblocking_kinetic_connection.cc:817-828 -/
def getSynchronizationForPersistMode : PersistMode → Synchronization
  | .writeBack => .writeBack
  | .writeThrough => .writeThrough
  | .flush => .flush

/-- The switch of src/main/nonblocking_kinetic_connection.cc:631-652. -/
def Permission.toProto : Permission → ProtoPermission
  | .read => .read
  | .write => .write
  | .delete => .delete
  | .range => .range
  | .setup => .setup
  | .p2pOp => .p2pOp
  | .getLog => .getLog
  | .security => .security

/-- The body of the loops of src/main/nonblocking_kinetic_connection.cc:615-653. -/
def ACL.toProto (acl : ACL) : SecurityAcl where
  identity := some acl.identity
  key := some acl.hmacKey
  hmacAlgorithm := some .hmacSha1
  scope := acl.scopes.map fun s =>
    { offset := some s.offset, value := some s.value, permission := s.permissions.map Permission.toProto }

mutual

/-- mirrors src/main/nonblocking_kinetic_connection.cc:708-728, on an operation
message that is still empty. -/
def populateP2PMessage : P2PPushRequest → P2POperation
  | .mk host port operations =>
    .mk (some { hostname := some host, port := some port }) (populateOperations operations)

def populateOperations : List P2PPushOperation → List P2POperationOperation
  | [] => []
  | op :: ops => populateOperation op :: populateOperations ops

def populateOperation : P2PPushOperation → P2POperationOperation
  | .mk key version newKey force request =>
    .mk (some key) (some version) (if newKey ≠ [] ∧ newKey ≠ key then some newKey else none)
      (some force) none (populateRequest request)

def populateRequest : Option P2PPushRequest → Option P2POperation
  | none => none
  | some request => some (populateP2PMessage request)

end

namespace NonblockingKineticConnection

variable (n : NonblockingKineticConnection)

/-- mirrors src/main/nonblocking_kinetic_connection.cc:246-248 -/
def setClientClusterVersion (_ : NonblockingKineticConnection) (clusterVersion : Int) :
    NonblockingKineticConnection := { clusterVersion }

/-- mirrors src/main/nonblocking_kinetic_connection.cc:250-255 -/
def newCommand (messageType : MessageType) : Command :=
  { header := some { messageType := some messageType, clusterVersion := some n.clusterVersion } }

/-- `empty_str_` -/
def emptyStr : StringPtr := some []

/-- mirrors src/main/nonblocking_kinetic_connection.cc:257-265 -/
def noOp : Option Submission := some ⟨hmacMessage, n.newCommand .noop, emptyStr⟩

/-- mirrors src/main/nonblocking_kinetic_connection.cc:535-546 -/
def genericGet (key : StringPtr) (messageType : MessageType) : Option Submission := do
  let key ← key
  return ⟨hmacMessage, (n.newCommand messageType).modifyBody fun b =>
    { b with keyValue := some { key := some key } }, emptyStr⟩

/-- mirrors src/main/nonblocking_kinetic_connection.cc:267-270 -/
def get (key : StringPtr) : Option Submission := n.genericGet key .get

/-- mirrors src/main/nonblocking_kinetic_connection.cc:277-280 -/
def getNext (key : StringPtr) : Option Submission := n.genericGet key .getNext

/-- mirrors src/main/nonblocking_kinetic_connection.cc:287-290 -/
def getPrevious (key : StringPtr) : Option Submission := n.genericGet key .getPrevious

/-- mirrors src/main/nonblocking_kinetic_connection.cc:297-307; the command is
built as in `GenericGet`. -/
def getVersion (key : StringPtr) : Option Submission := n.genericGet key .getVersion

/-- mirrors src/main/nonblocking_kinetic_connection.cc:314-335 -/
def getKeyRange (startKey : StringPtr) (startKeyInclusive : Bool) (endKey : StringPtr)
    (endKeyInclusive reverseResults : Bool) (maxResults : Int) : Option Submission := do
  let startKey ← startKey
  let endKey ← endKey
  return ⟨hmacMessage, (n.newCommand .getKeyRange).modifyBody fun b =>
    { b with range := some {
        startKey := some startKey
        startKeyInclusive := some startKeyInclusive
        endKey := some endKey
        endKeyInclusive := some endKeyInclusive
        reverse := some reverseResults
        maxReturned := some maxResults } }, emptyStr⟩

/-- mirrors src/main/nonblocking_kinetic_connection.cc:353-381 -/
def put (key currentVersion : StringPtr) (mode : WriteMode) (record : Option KineticRecord)
    (persistMode : PersistMode) : Option Submission := do
  let key ← key
  let currentVersion ← currentVersion
  let record ← record
  let tag ← record.tag
  return ⟨hmacMessage, (n.newCommand .put).modifyBody fun b =>
    { b with keyValue := some {
        key := some key
        dbVersion := some currentVersion
        force := some (mode = .ignoreVersion)
        newVersion := record.version
        tag := some tag
        algorithm := some record.algorithm
        synchronization := some (getSynchronizationForPersistMode persistMode) } }, record.value⟩

/-- mirrors src/main/nonblocking_kinetic_connection.cc:415-435 -/
def delete (key version : StringPtr) (mode : WriteMode) (persistMode : PersistMode) :
    Option Submission := do
  let key ← key
  let version ← version
  return ⟨hmacMessage, (n.newCommand .delete).modifyBody fun b =>
    { b with keyValue := some {
        key := some key
        dbVersion := some version
        force := some (mode = .ignoreVersion)
        synchronization := some (getSynchronizationForPersistMode persistMode) } }, emptyStr⟩

/-- What the four operations that need a PIN have in common. -/
def pinOperation (pinOpType : PinOpType) (pin : StringPtr) : Option Submission :=
  some ⟨pinMessage pin, (n.newCommand .pinOp).modifyBody fun b =>
    { b with pinOp := some { pinOpType := some pinOpType } }, emptyStr⟩

/-- mirrors src/main/nonblocking_kinetic_connection.cc:461-473 -/
def secureErase (pin : StringPtr) : Option Submission := n.pinOperation .secureErasePinOp pin

/-- mirrors src/main/nonblocking_kinetic_connection.cc:480-492 -/
def instantErase (pin : StringPtr) : Option Submission := n.pinOperation .erasePinOp pin

/-- mirrors src/main/nonblocking_kinetic_connection.cc:499-510 -/
def lockDevice (pin : StringPtr) : Option Submission := n.pinOperation .lockPinOp pin

/-- mirrors src/main/nonblocking_kinetic_connection.cc:517-528 -/
def unlockDevice (pin : StringPtr) : Option Submission := n.pinOperation .unlockPinOp pin

/-- mirrors src/main/nonblocking_kinetic_connection.cc:548-555 -/
def flush : Option Submission := some ⟨hmacMessage, n.newCommand .flushAllData, emptyStr⟩

/-- mirrors src/main/nonblocking_kinetic_connection.cc:557-567 -/
def setClusterVersion (newClusterVersion : Int) : Option Submission :=
  some ⟨hmacMessage, (n.newCommand .setup).modifyBody fun b =>
    { b with setup := some { newClusterVersion := some newClusterVersion } }, emptyStr⟩

/-- mirrors src/main/nonblocking_kinetic_connection.cc:582-595 -/
def getLog (types : List GetLogType) : Option Submission :=
  some ⟨hmacMessage, types.foldl (fun c t => modifyGetLog c fun g => { g with types := g.types ++ [t] })
    (n.newCommand .getLog), emptyStr⟩

/-- The types of src/main/nonblocking_kinetic_connection.cc:570-577. -/
def allLogTypes : List GetLogType :=
  [.utilizations, .temperatures, .capacities, .configuration, .statistics, .messages, .limits]

/-- mirrors src/main/nonblocking_kinetic_connection.cc:597-607 -/
def updateFirmware (newFirmware : StringPtr) : Option Submission :=
  some ⟨hmacMessage, (n.newCommand .setup).modifyBody fun b =>
    { b with setup := some { firmwareDownload := some true } }, newFirmware⟩

/-- mirrors src/main/nonblocking_kinetic_connection.cc:609-657 -/
def setACLs (acls : Option (List ACL)) : Option Submission := do
  let acls ← acls
  return ⟨hmacMessage, acls.foldl (fun c acl => modifySecurity c fun s =>
    { s with acl := s.acl ++ [acl.toProto] }) (n.newCommand .security), emptyStr⟩

/-- mirrors src/main/nonblocking_kinetic_connection.cc:659-673 -/
def setLockPIN (newPin currentPin : StringPtr) : Option Submission :=
  let request := n.newCommand .security
  let request := match currentPin with
    | none => request
    | some pin => modifySecurity request fun s => { s with oldLockPin := some pin }
  let request := match newPin with
    | none => request
    | some pin => modifySecurity request fun s => { s with newLockPin := some pin }
  some ⟨hmacMessage, request, emptyStr⟩

/-- mirrors src/main/nonblocking_kinetic_connection.cc:681-695 -/
def setErasePIN (newPin currentPin : StringPtr) : Option Submission :=
  let request := n.newCommand .security
  let request := match currentPin with
    | none => request
    | some pin => modifySecurity request fun s => { s with oldErasePin := some pin }
  let request := match newPin with
    | none => request
    | some pin => modifySecurity request fun s => { s with newErasePin := some pin }
  some ⟨hmacMessage, request, emptyStr⟩

/-- mirrors src/main/nonblocking_kinetic_connection.cc:730-741 -/
def p2pPush (pushRequest : Option P2PPushRequest) : Option Submission := do
  let pushRequest ← pushRequest
  return ⟨hmacMessage, (n.newCommand .peer2PeerPush).modifyBody fun b =>
    { b with p2pOperation := some (populateP2PMessage pushRequest) }, emptyStr⟩

/-- mirrors src/main/nonblocking_kinetic_connection.cc:743-764 -/
def mediaScan (startKey : StringPtr) (startKeyInclusive : Bool) (endKey : StringPtr)
    (endKeyInclusive : Bool) (maxResults : Int) : Option Submission := do
  let startKey ← startKey
  let endKey ← endKey
  let request := (n.newCommand .mediaScan).modifyHeader fun h => { h with priority := some .lower }
  return ⟨hmacMessage, request.modifyBody fun b =>
    { b with range := some {
        startKey := some startKey
        startKeyInclusive := some startKeyInclusive
        endKey := some endKey
        endKeyInclusive := some endKeyInclusive
        maxReturned := some maxResults } }, emptyStr⟩

/-- mirrors src/main/nonblocking_kinetic_connection.cc:780-799 -/
def mediaOptimize (startKey : StringPtr) (startKeyInclusive : Bool) (endKey : StringPtr)
    (endKeyInclusive : Bool) : Option Submission := do
  let startKey ← startKey
  let endKey ← endKey
  let request := (n.newCommand .mediaOptimize).modifyHeader fun h =>
    { h with priority := some .lower }
  return ⟨hmacMessage, request.modifyBody fun b =>
    { b with range := some {
        startKey := some startKey
        startKeyInclusive := some startKeyInclusive
        endKey := some endKey
        endKeyInclusive := some endKeyInclusive } }, emptyStr⟩

end NonblockingKineticConnection

/-! ## The interface -/

/-- A call of the client interface: an operation, one of its overloads, and the
arguments, callbacks and out parameters apart. `S` is the overload that takes
`string`s, `P` the one that takes a `PersistMode`. The record of `putS` is a
`shared_ptr` in the nonblocking classes and a reference in the blocking ones. -/
inductive Call where
  | noOp
  | get (key : StringPtr)
  | getS (key : Bytes)
  | getNext (key : StringPtr)
  | getNextS (key : Bytes)
  | getPrevious (key : StringPtr)
  | getPreviousS (key : Bytes)
  | getVersion (key : StringPtr)
  | getVersionS (key : Bytes)
  | getKeyRange (startKey : StringPtr) (startKeyInclusive : Bool) (endKey : StringPtr)
      (endKeyInclusive reverseResults : Bool) (maxResults : Int)
  | getKeyRangeS (startKey : Bytes) (startKeyInclusive : Bool) (endKey : Bytes)
      (endKeyInclusive reverseResults : Bool) (maxResults : Int)
  | put (key currentVersion : StringPtr) (mode : WriteMode) (record : Option KineticRecord)
  | putP (key currentVersion : StringPtr) (mode : WriteMode) (record : Option KineticRecord)
      (persistMode : PersistMode)
  | putS (key currentVersion : Bytes) (mode : WriteMode) (record : Option KineticRecord)
  | putSP (key currentVersion : Bytes) (mode : WriteMode) (record : Option KineticRecord)
      (persistMode : PersistMode)
  | delete (key version : StringPtr) (mode : WriteMode)
  | deleteP (key version : StringPtr) (mode : WriteMode) (persistMode : PersistMode)
  | deleteS (key version : Bytes) (mode : WriteMode)
  | deleteSP (key version : Bytes) (mode : WriteMode) (persistMode : PersistMode)
  | secureErase (pin : StringPtr)
  | secureEraseS (pin : Bytes)
  | instantErase (pin : StringPtr)
  | instantEraseS (pin : Bytes)
  | lockDevice (pin : StringPtr)
  | lockDeviceS (pin : Bytes)
  | unlockDevice (pin : StringPtr)
  | unlockDeviceS (pin : Bytes)
  | flush
  | setClusterVersion (newClusterVersion : Int)
  | getLog
  | getLogTypes (types : List GetLogType)
  | updateFirmware (newFirmware : StringPtr)
  | setACLs (acls : Option (List ACL))
  | setLockPIN (newPin currentPin : StringPtr)
  | setLockPINS (newPin currentPin : Bytes)
  | setErasePIN (newPin currentPin : StringPtr)
  | setErasePINS (newPin currentPin : Bytes)
  | p2pPush (pushRequest : Option P2PPushRequest)
  | p2pPushS (pushRequest : P2PPushRequest)
  | mediaScan (startKey : StringPtr) (startKeyInclusive : Bool) (endKey : StringPtr)
      (endKeyInclusive : Bool) (maxResults : Int)
  | mediaScanS (startKey : Bytes) (startKeyInclusive : Bool) (endKey : Bytes)
      (endKeyInclusive : Bool) (maxResults : Int)
  | mediaOptimize (startKey : StringPtr) (startKeyInclusive : Bool) (endKey : StringPtr)
      (endKeyInclusive : Bool)
  | mediaOptimizeS (startKey : Bytes) (startKeyInclusive : Bool) (endKey : Bytes)
      (endKeyInclusive : Bool)

/-- The overloads of src/main/nonblocking_kinetic_connection.cc: what each call
submits. -/
def NonblockingKineticConnection.submits (n : NonblockingKineticConnection) :
    Call → Option Submission
  | .noOp => n.noOp
  | .get key => n.get key
  | .getS key => n.get (some key)
  | .getNext key => n.getNext key
  | .getNextS key => n.getNext (some key)
  | .getPrevious key => n.getPrevious key
  | .getPreviousS key => n.getPrevious (some key)
  | .getVersion key => n.getVersion key
  | .getVersionS key => n.getVersion (some key)
  | .getKeyRange startKey si endKey ei reverse maxResults =>
    n.getKeyRange startKey si endKey ei reverse maxResults
  | .getKeyRangeS startKey si endKey ei reverse maxResults =>
    n.getKeyRange (some startKey) si (some endKey) ei reverse maxResults
  | .put key currentVersion mode record => n.put key currentVersion mode record .writeBack
  | .putP key currentVersion mode record persistMode =>
    n.put key currentVersion mode record persistMode
  | .putS key currentVersion mode record =>
    n.put (some key) (some currentVersion) mode record .writeBack
  | .putSP key currentVersion mode record persistMode =>
    n.put (some key) (some currentVersion) mode record persistMode
  | .delete key version mode => n.delete key version mode .writeBack
  | .deleteP key version mode persistMode => n.delete key version mode persistMode
  | .deleteS key version mode => n.delete (some key) (some version) mode .writeBack
  | .deleteSP key version mode persistMode => n.delete (some key) (some version) mode persistMode
  | .secureErase pin => n.secureErase pin
  | .secureEraseS pin => n.secureErase (some pin)
  | .instantErase pin => n.instantErase pin
  | .instantEraseS pin => n.instantErase (some pin)
  | .lockDevice pin => n.lockDevice pin
  | .lockDeviceS pin => n.lockDevice (some pin)
  | .unlockDevice pin => n.unlockDevice pin
  | .unlockDeviceS pin => n.unlockDevice (some pin)
  | .flush => n.flush
  | .setClusterVersion newClusterVersion => n.setClusterVersion newClusterVersion
  | .getLog => n.getLog NonblockingKineticConnection.allLogTypes
  | .getLogTypes types => n.getLog types
  | .updateFirmware newFirmware => n.updateFirmware newFirmware
  | .setACLs acls => n.setACLs acls
  | .setLockPIN newPin currentPin => n.setLockPIN newPin currentPin
  | .setLockPINS newPin currentPin => n.setLockPIN (some newPin) (some currentPin)
  | .setErasePIN newPin currentPin => n.setErasePIN newPin currentPin
  | .setErasePINS newPin currentPin => n.setErasePIN (some newPin) (some currentPin)
  | .p2pPush pushRequest => n.p2pPush pushRequest
  | .p2pPushS pushRequest => n.p2pPush (some pushRequest)
  | .mediaScan startKey si endKey ei maxResults => n.mediaScan startKey si endKey ei maxResults
  | .mediaScanS startKey si endKey ei maxResults =>
    n.mediaScan (some startKey) si (some endKey) ei maxResults
  | .mediaOptimize startKey si endKey ei => n.mediaOptimize startKey si endKey ei
  | .mediaOptimizeS startKey si endKey ei => n.mediaOptimize (some startKey) si (some endKey) ei

end Kinetic.L3
