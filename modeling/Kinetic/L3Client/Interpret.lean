import Kinetic.L2Service.Step
import Kinetic.L3Client.PeerPush

/-!
# What a request asks for

Reading a submission back as a call. Two calls submit the same exactly if they ask
for the same under the same cluster version: overloads, default persist modes and
blank target keys apart, a call can be told from every other by what it submits,
but for the three calls of `SetACLs`, `SetLockPIN` and `SetErasePIN` that set
nothing (`same_submission_iff`).
-/
open Kinetic.Core

namespace Kinetic.L3

open L1 L2

/-! ## Calls written out -/

/-- The call with every argument passed as a pointer and every default written out.
A call of the security operations that sets nothing is written as `SetACLs`. -/
def Call.explicit : Call → Call
  | .getS key => .get (some key)
  | .getNextS key => .getNext (some key)
  | .getPreviousS key => .getPrevious (some key)
  | .getVersionS key => .getVersion (some key)
  | .getKeyRangeS startKey si endKey ei reverse maxResults =>
    .getKeyRange (some startKey) si (some endKey) ei reverse maxResults
  | .put key currentVersion mode record => .putP key currentVersion mode record .writeBack
  | .putS key currentVersion mode record =>
    .putP (some key) (some currentVersion) mode record .writeBack
  | .putSP key currentVersion mode record persistMode =>
    .putP (some key) (some currentVersion) mode record persistMode
  | .delete key version mode => .deleteP key version mode .writeBack
  | .deleteS key version mode => .deleteP (some key) (some version) mode .writeBack
  | .deleteSP key version mode persistMode => .deleteP (some key) (some version) mode persistMode
  | .secureEraseS pin => .secureErase (some pin)
  | .instantEraseS pin => .instantErase (some pin)
  | .lockDeviceS pin => .lockDevice (some pin)
  | .unlockDeviceS pin => .unlockDevice (some pin)
  | .getLog => .getLogTypes NonblockingKineticConnection.allLogTypes
  | .setLockPIN none none => .setACLs (some [])
  | .setLockPINS newPin currentPin => .setLockPIN (some newPin) (some currentPin)
  | .setErasePIN none none => .setACLs (some [])
  | .setErasePINS newPin currentPin => .setErasePIN (some newPin) (some currentPin)
  | .p2pPush pushRequest => .p2pPush (pushRequest.map P2PPushRequest.explicit)
  | .p2pPushS pushRequest => .p2pPush (some pushRequest.explicit)
  | .mediaScanS startKey si endKey ei maxResults =>
    .mediaScan (some startKey) si (some endKey) ei maxResults
  | .mediaOptimizeS startKey si endKey ei => .mediaOptimize (some startKey) si (some endKey) ei
  | call => call

/-! ## Reading a submission -/

def modeOf (force : Bool) : WriteMode := if force then .ignoreVersion else .requireSameVersion

def persistModeOf : Synchronization → PersistMode
  | .writeBack => .writeBack
  | .writeThrough => .writeThrough
  | .flush => .flush

def permissionOf : ProtoPermission → Permission
  | .read => .read
  | .write => .write
  | .delete => .delete
  | .range => .range
  | .setup => .setup
  | .p2pOp => .p2pOp
  | .getLog => .getLog
  | .security => .security

def scopeOf (s : AclScope) : Option Scope := do
  let offset ← s.offset
  let value ← s.value
  return ⟨offset, value, s.permission.map permissionOf⟩

def aclOf (acl : SecurityAcl) : Option ACL := do
  let identity ← acl.identity
  let key ← acl.key
  let scopes ← acl.scope.mapM scopeOf
  return ⟨identity, key, scopes⟩

def interpretPut (kv : KeyValue) (value : StringPtr) : Option Call := do
  let algorithm ← kv.algorithm
  let force ← kv.force
  let synchronization ← kv.synchronization
  return .putP kv.key kv.dbVersion (modeOf force) (some ⟨value, kv.newVersion, kv.tag, algorithm⟩)
    (persistModeOf synchronization)

def interpretDelete (kv : KeyValue) : Option Call := do
  let force ← kv.force
  let synchronization ← kv.synchronization
  return .deleteP kv.key kv.dbVersion (modeOf force) (persistModeOf synchronization)

def interpretGetKeyRange (r : Range) : Option Call := do
  let si ← r.startKeyInclusive
  let ei ← r.endKeyInclusive
  let reverse ← r.reverse
  let maxReturned ← r.maxReturned
  return .getKeyRange r.startKey si r.endKey ei reverse maxReturned

def interpretMediaScan (r : Range) : Option Call := do
  let si ← r.startKeyInclusive
  let ei ← r.endKeyInclusive
  let maxReturned ← r.maxReturned
  return .mediaScan r.startKey si r.endKey ei maxReturned

def interpretMediaOptimize (r : Range) : Option Call := do
  let si ← r.startKeyInclusive
  let ei ← r.endKeyInclusive
  return .mediaOptimize r.startKey si r.endKey ei

def interpretPin (pin : StringPtr) : PinOpType → Call
  | .secureErasePinOp => .secureErase pin
  | .erasePinOp => .instantErase pin
  | .lockPinOp => .lockDevice pin
  | .unlockPinOp => .unlockDevice pin

def interpretSetup (s : Setup) (value : StringPtr) : Call :=
  match s.newClusterVersion with
  | some newClusterVersion => .setClusterVersion newClusterVersion
  | none => .updateFirmware value

def interpretSecurity (s : Security) : Option Call :=
  if s.newLockPin.isSome || s.oldLockPin.isSome then some (.setLockPIN s.newLockPin s.oldLockPin)
  else if s.newErasePin.isSome || s.oldErasePin.isSome then
    some (.setErasePIN s.newErasePin s.oldErasePin)
  else (s.acl.mapM aclOf).map fun acls => .setACLs (some acls)

/-- The call that a request of this type makes. -/
def interpretBody (message : Message) (b : Body) (value : StringPtr) : MessageType → Option Call
  | .noop => some .noOp
  | .get => some (.get (b.keyValue.bind KeyValue.key))
  | .getNext => some (.getNext (b.keyValue.bind KeyValue.key))
  | .getPrevious => some (.getPrevious (b.keyValue.bind KeyValue.key))
  | .getVersion => some (.getVersion (b.keyValue.bind KeyValue.key))
  | .getKeyRange => b.range.bind interpretGetKeyRange
  | .put => b.keyValue.bind fun kv => interpretPut kv value
  | .delete => b.keyValue.bind interpretDelete
  | .pinOp => (b.pinOp.bind PinOperation.pinOpType).map
    (interpretPin (message.pinAuth.bind PinAuth.pin))
  | .flushAllData => some .flush
  | .setup => b.setup.map fun s => interpretSetup s value
  | .getLog => some (.getLogTypes (b.getLog.getD {}).types)
  | .security => interpretSecurity (b.security.getD {})
  | .peer2PeerPush => (b.p2pOperation.bind decode).map fun r => .p2pPush (some r)
  | .mediaScan => b.range.bind interpretMediaScan
  | .mediaOptimize => b.range.bind interpretMediaOptimize
  | _ => none

/-- The cluster version and the call that a request stands for, read off its
Message, its Command and its value. -/
def interpret (message : Message) (command : Command) (value : StringPtr) : Option (Int × Call) := do
  let messageType ← command.getHeader.messageType
  let clusterVersion ← command.getHeader.clusterVersion
  let call ← interpretBody message (command.body.getD {}) value messageType
  return (clusterVersion, call)

/-- The submission stands for the call, under the cluster version of `n`. -/
def Submission.Means (n : NonblockingKineticConnection) (x : Submission) (call : Call) : Prop :=
  interpret x.message x.command x.value = some (n.clusterVersion, call)

/-! ## Each operation -/

variable {n n' : NonblockingKineticConnection} {x : Submission} {call call' : Call}

theorem modeOf_force (mode : WriteMode) : modeOf (mode = .ignoreVersion) = mode := by
  cases mode <;> rfl

theorem persistModeOf_synchronization (persistMode : PersistMode) :
    persistModeOf (getSynchronizationForPersistMode persistMode) = persistMode := by
  cases persistMode <;> rfl

theorem permissionOf_toProto (p : Permission) : permissionOf p.toProto = p := by
  cases p <;> rfl

theorem aclOf_toProto (acl : ACL) : aclOf acl.toProto = some acl := by
  have hscopes : (acl.scopes.map fun s : Scope =>
      ({ offset := some s.offset, value := some s.value,
         permission := s.permissions.map Permission.toProto } : AclScope)).mapM scopeOf =
        some acl.scopes := by
    induction acl.scopes with
    | nil => rfl
    | cons s scopes ih =>
      rw [List.map_cons, List.mapM_cons, ih]
      simp [scopeOf, Function.comp_def, permissionOf_toProto]
  simp [aclOf, ACL.toProto, hscopes]

theorem aclsOf_toProto (acls : List ACL) : (acls.map ACL.toProto).mapM aclOf = some acls := by
  induction acls with
  | nil => rfl
  | cons acl acls ih =>
    rw [List.map_cons, List.mapM_cons, ih, aclOf_toProto]
    rfl

theorem genericGet_means {key : StringPtr} {messageType : MessageType}
    {call : StringPtr → Call} (h : n.genericGet key messageType = some x)
    (hcall : ∀ m b v, interpretBody m b v messageType =
      some (call (b.keyValue.bind KeyValue.key))) : x.Means n (call key) := by
  cases key with
  | none => cases h
  | some key =>
    cases h
    simp [Submission.Means, interpret, Command.modifyBody, Command.getHeader,
      NonblockingKineticConnection.newCommand, hcall]

theorem getKeyRange_means {startKey endKey : StringPtr} {si ei reverse : Bool} {maxResults : Int}
    (h : n.getKeyRange startKey si endKey ei reverse maxResults = some x) :
    x.Means n (.getKeyRange startKey si endKey ei reverse maxResults) := by
  cases startKey with
  | none => cases h
  | some startKey =>
    cases endKey with
    | none => cases h
    | some endKey => cases h; rfl

theorem put_means {key currentVersion : StringPtr} {mode : WriteMode}
    {record : Option KineticRecord} {persistMode : PersistMode}
    (h : n.put key currentVersion mode record persistMode = some x) :
    x.Means n (.putP key currentVersion mode record persistMode) := by
  cases key with
  | none => cases h
  | some key =>
    cases currentVersion with
    | none => cases h
    | some currentVersion =>
      cases record with
      | none => cases h
      | some record =>
        obtain ⟨value, version, tag, algorithm⟩ := record
        cases tag with
        | none => cases h
        | some tag =>
          cases h
          simp [Submission.Means, interpret, interpretBody, interpretPut, Command.modifyBody,
            Command.getHeader, NonblockingKineticConnection.newCommand, modeOf_force,
            persistModeOf_synchronization]

theorem delete_means {key version : StringPtr} {mode : WriteMode} {persistMode : PersistMode}
    (h : n.delete key version mode persistMode = some x) :
    x.Means n (.deleteP key version mode persistMode) := by
  cases key with
  | none => cases h
  | some key =>
    cases version with
    | none => cases h
    | some version =>
      cases h
      simp [Submission.Means, interpret, interpretBody, interpretDelete, Command.modifyBody,
        Command.getHeader, NonblockingKineticConnection.newCommand, modeOf_force,
        persistModeOf_synchronization]

theorem pinOperation_means {pinOpType : PinOpType} {pin : StringPtr}
    (h : n.pinOperation pinOpType pin = some x) : x.Means n (interpretPin pin pinOpType) := by
  cases h
  cases pin <;> rfl

theorem getLog_foldl (types : List GetLogType) (c : Command) :
    ∃ body, types.foldl (fun c t => modifyGetLog c fun g => { g with types := g.types ++ [t] }) c =
      { c with body } ∧ ((body.getD {}).getLog.getD {}).types =
        ((c.body.getD {}).getLog.getD {}).types ++ types := by
  induction types generalizing c with
  | nil => exact ⟨c.body, rfl, (List.append_nil _).symm⟩
  | cons t types ih =>
    obtain ⟨body, hfold, hbody⟩ := ih (modifyGetLog c fun g => { g with types := g.types ++ [t] })
    refine ⟨body, hfold, hbody.trans ?_⟩
    simp [modifyGetLog, Command.modifyBody]

theorem getLog_means {types : List GetLogType} (h : n.getLog types = some x) :
    x.Means n (.getLogTypes types) := by
  obtain ⟨body, hfold, hbody⟩ := getLog_foldl types (n.newCommand .getLog)
  cases h
  rw [Submission.Means, hfold]
  simp only [NonblockingKineticConnection.newCommand, Option.getD_none, List.nil_append] at hbody
  simp [interpret, Command.getHeader, NonblockingKineticConnection.newCommand, interpretBody, hbody]

theorem setACLs_foldl (acls : List ACL) (c : Command) :
    ∃ body, acls.foldl (fun c acl => modifySecurity c fun s =>
      { s with acl := s.acl ++ [acl.toProto] }) c = { c with body } ∧
      (body.getD {}).security.getD {} = { ((c.body.getD {}).security.getD {}) with
        acl := ((c.body.getD {}).security.getD {}).acl ++ acls.map ACL.toProto } := by
  induction acls generalizing c with
  | nil => exact ⟨c.body, rfl, by simp⟩
  | cons acl acls ih =>
    obtain ⟨body, h1, h2⟩ := ih (modifySecurity c fun s => { s with acl := s.acl ++ [acl.toProto] })
    refine ⟨body, h1, h2.trans ?_⟩
    simp [modifySecurity, Command.modifyBody]

theorem setACLs_means {acls : Option (List ACL)} (h : n.setACLs acls = some x) :
    x.Means n (.setACLs acls) := by
  cases acls with
  | none => cases h
  | some acls =>
    obtain ⟨body, h1, h2⟩ := setACLs_foldl acls (n.newCommand .security)
    have hacl : (body.getD {}).security.getD {} = { acl := acls.map ACL.toProto } := h2
    have hsec : interpretSecurity ((body.getD {}).security.getD {}) =
        some (.setACLs (some acls)) := by
      rw [hacl]
      exact congrArg (Option.map _) (aclsOf_toProto acls)
    obtain rfl : ⟨hmacMessage, { n.newCommand .security with body },
        NonblockingKineticConnection.emptyStr⟩ = x := by
      rw [← h1]
      exact Option.some.inj h
    simp only [Submission.Means, interpret, Command.getHeader,
      NonblockingKineticConnection.newCommand, interpretBody, Option.getD_some, hsec]
    rfl

theorem setLockPIN_means {newPin currentPin : StringPtr}
    (h : n.setLockPIN newPin currentPin = some x) :
    x.Means n (Call.setLockPIN newPin currentPin).explicit := by
  cases h
  cases newPin <;> cases currentPin <;> rfl

theorem setErasePIN_means {newPin currentPin : StringPtr}
    (h : n.setErasePIN newPin currentPin = some x) :
    x.Means n (Call.setErasePIN newPin currentPin).explicit := by
  cases h
  cases newPin <;> cases currentPin <;> rfl

theorem p2pPush_means {pushRequest : Option P2PPushRequest} (h : n.p2pPush pushRequest = some x) :
    x.Means n (.p2pPush (pushRequest.map P2PPushRequest.explicit)) := by
  cases pushRequest with
  | none => cases h
  | some request =>
    cases h
    simp [Submission.Means, interpret, interpretBody, Command.modifyBody, Command.getHeader,
      NonblockingKineticConnection.newCommand, decode_populate]

theorem mediaScan_means {startKey endKey : StringPtr} {si ei : Bool} {maxResults : Int}
    (h : n.mediaScan startKey si endKey ei maxResults = some x) :
    x.Means n (.mediaScan startKey si endKey ei maxResults) := by
  cases startKey with
  | none => cases h
  | some startKey =>
    cases endKey with
    | none => cases h
    | some endKey => cases h; rfl

theorem mediaOptimize_means {startKey endKey : StringPtr} {si ei : Bool}
    (h : n.mediaOptimize startKey si endKey ei = some x) :
    x.Means n (.mediaOptimize startKey si endKey ei) := by
  cases startKey with
  | none => cases h
  | some startKey =>
    cases endKey with
    | none => cases h
    | some endKey => cases h; rfl

/-! ## All of them -/

/-- **A submission means** the call that it was made for, written out. -/
theorem submits_means (h : n.submits call = some x) : x.Means n call.explicit := by
  cases call with
  | noOp => cases h; rfl
  | flush => cases h; rfl
  | setClusterVersion newClusterVersion => cases h; rfl
  | updateFirmware newFirmware => cases h; rfl
  | get key | getS key => exact genericGet_means h fun _ _ _ => rfl
  | getNext key | getNextS key => exact genericGet_means h fun _ _ _ => rfl
  | getPrevious key | getPreviousS key => exact genericGet_means h fun _ _ _ => rfl
  | getVersion key | getVersionS key => exact genericGet_means h fun _ _ _ => rfl
  | getKeyRange startKey si endKey ei reverse maxResults => exact getKeyRange_means h
  | getKeyRangeS startKey si endKey ei reverse maxResults => exact getKeyRange_means h
  | put key currentVersion mode record => exact put_means h
  | putP key currentVersion mode record persistMode => exact put_means h
  | putS key currentVersion mode record => exact put_means h
  | putSP key currentVersion mode record persistMode => exact put_means h
  | delete key version mode => exact delete_means h
  | deleteP key version mode persistMode => exact delete_means h
  | deleteS key version mode => exact delete_means h
  | deleteSP key version mode persistMode => exact delete_means h
  | secureErase pin | secureEraseS pin => exact pinOperation_means h
  | instantErase pin | instantEraseS pin => exact pinOperation_means h
  | lockDevice pin | lockDeviceS pin => exact pinOperation_means h
  | unlockDevice pin | unlockDeviceS pin => exact pinOperation_means h
  | getLog => exact getLog_means h
  | getLogTypes types => exact getLog_means h
  | setACLs acls => exact setACLs_means h
  | setLockPIN newPin currentPin => exact setLockPIN_means h
  | setLockPINS newPin currentPin =>
    have h : n.setLockPIN (some newPin) (some currentPin) = some x := h
    exact setLockPIN_means h
  | setErasePIN newPin currentPin => exact setErasePIN_means h
  | setErasePINS newPin currentPin =>
    have h : n.setErasePIN (some newPin) (some currentPin) = some x := h
    exact setErasePIN_means h
  | p2pPush pushRequest => exact p2pPush_means h
  | p2pPushS pushRequest => exact p2pPush_means h
  | mediaScan startKey si endKey ei maxResults => exact mediaScan_means h
  | mediaScanS startKey si endKey ei maxResults => exact mediaScan_means h
  | mediaOptimize startKey si endKey ei => exact mediaOptimize_means h
  | mediaOptimizeS startKey si endKey ei => exact mediaOptimize_means h

/-- A target key that is written out is sent as if it were left blank. -/
theorem sent_targetKey (key newKey : Bytes) :
    (if targetKey key newKey ≠ [] ∧ targetKey key newKey ≠ key then
      some (targetKey key newKey) else none) =
    if newKey ≠ [] ∧ newKey ≠ key then some newKey else none := by
  unfold targetKey
  by_cases h : newKey = [] <;> simp [h]

mutual

theorem populate_explicit : ∀ request : P2PPushRequest,
    populateP2PMessage request.explicit = populateP2PMessage request
  | .mk host port operations => by
    rw [P2PPushRequest.explicit, populateP2PMessage, populateP2PMessage,
      populateOperations_explicit operations]

theorem populateOperations_explicit : ∀ operations : List P2PPushOperation,
    populateOperations (explicitOperations operations) = populateOperations operations
  | [] => rfl
  | op :: ops => by
    rw [explicitOperations, populateOperations, populateOperations, populateOperation_explicit op,
      populateOperations_explicit ops]

theorem populateOperation_explicit : ∀ operation : P2PPushOperation,
    populateOperation operation.explicit = populateOperation operation
  | .mk key version newKey force request => by
    rw [P2PPushOperation.explicit, populateOperation, populateOperation, sent_targetKey,
      populateRequest_explicit request]

theorem populateRequest_explicit : ∀ request : Option P2PPushRequest,
    populateRequest (explicitRequest request) = populateRequest request
  | none => rfl
  | some request => by
    rw [explicitRequest, populateRequest, populateRequest, populate_explicit request]

end

/-- Writing a call out does not change what it submits. -/
theorem submits_explicit (n : NonblockingKineticConnection) (call : Call) :
    n.submits call.explicit = n.submits call := by
  have hpush : ∀ pushRequest : Option P2PPushRequest,
      n.p2pPush (pushRequest.map P2PPushRequest.explicit) = n.p2pPush pushRequest := by
    intro pushRequest
    cases pushRequest with
    | none => rfl
    | some request =>
      simp [NonblockingKineticConnection.p2pPush, populate_explicit]
  cases call with
  | setLockPIN newPin currentPin => cases newPin <;> cases currentPin <;> rfl
  | setErasePIN newPin currentPin => cases newPin <;> cases currentPin <;> rfl
  | p2pPush pushRequest => exact hpush pushRequest
  | p2pPushS pushRequest => exact hpush (some pushRequest)
  | _ => rfl

/-- `Enqueue` signs and numbers a request, and leaves what it means alone. -/
theorem enqueue_means (lib : Lib) (message : Message) (command : Command) (value : Bytes)
    (handler key : Nat) (s : NonblockingPacketService) :
    ∃ r : Request, (NonblockingSender.enqueue lib message command value handler key s).log =
        s.log ++ [.submitted r] ∧
      interpret r.message r.command (some r.value) = interpret message command (some value) := by
  refine ⟨_, rfl, ?_⟩
  dsimp only
  split <;> rfl

/-- **Two calls submit the same** exactly if they ask for the same, written out,
under the same cluster version, or both dereference a null pointer. What `Enqueue`
then sends still says which call it was made for. -/
theorem same_submission_iff (n n' : NonblockingKineticConnection) (call call' : Call) :
    (n.submits call = n'.submits call' ↔
      (n.submits call = none ∧ n'.submits call' = none) ∨
        n = n' ∧ call.explicit = call'.explicit) ∧
    ∀ x value, n.submits call = some x → x.value = some value →
      ∀ lib handler key s, ∃ r, (NonblockingSender.enqueue lib x.message x.command value handler key
          s).log = s.log ++ [.submitted r] ∧
        interpret r.message r.command (some r.value) = some (n.clusterVersion, call.explicit) := by
  refine ⟨⟨fun h => ?_, ?_⟩, fun x value hx hv lib handler key s => ?_⟩
  · cases hx : n.submits call with
    | none => exact .inl ⟨rfl, h ▸ hx⟩
    | some x =>
      have h1 := submits_means hx
      have h2 := submits_means (h ▸ hx)
      obtain ⟨hv, hc⟩ := Prod.mk.inj (Option.some.inj (h1.symm.trans h2))
      obtain ⟨v⟩ := n
      obtain ⟨v'⟩ := n'
      exact .inr ⟨congrArg _ hv, hc⟩
  · rintro (⟨h, h'⟩ | ⟨rfl, h⟩)
    · rw [h, h']
    · rw [← submits_explicit n call, h, submits_explicit]
  · obtain ⟨r, hl, hr⟩ := enqueue_means lib x.message x.command value handler key s
    refine ⟨r, hl, hr.trans ?_⟩
    rw [← hv]
    exact submits_means hx

/-- No ACLs and no PIN are the same request. -/
theorem same_submission_iff_nothingSet :
    NonblockingKineticConnection.submits ⟨3⟩ (.setACLs (some [])) =
      NonblockingKineticConnection.submits ⟨3⟩ (.setLockPIN none none) :=
  (same_submission_iff _ _ _ _).1.2 (.inr ⟨rfl, rfl⟩)

end Kinetic.L3
