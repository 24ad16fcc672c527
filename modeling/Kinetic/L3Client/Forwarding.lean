import Kinetic.L3Client.Commands

/-!
# The four connection classes

`BlockingKineticConnection` and the two thread-safe classes forward every
operation by hand. What a call submits to the packet service is the same through
each of them as through `NonblockingKineticConnection`, but for one operation:
`ThreadsafeBlockingKineticConnection::SecureErase` forwards to `InstantErase`
(`same_submissions_iff`).
-/
open Kinetic.Core

namespace Kinetic.L3

open L1

/-- mirrors include/kinetic/blocking_kinetic_connection.h, the timeout apart. -/
structure BlockingKineticConnection where
  nonblockingConnection : NonblockingKineticConnection

/-- mirrors include/kinetic/threadsafe_blocking_kinetic_connection.h, the mutex apart. -/
structure ThreadsafeBlockingKineticConnection where
  connection : BlockingKineticConnection

/-- mirrors include/kinetic/threadsafe_nonblocking_connection.h, the mutex apart. -/
structure ThreadsafeNonblockingKineticConnection where
  connection : NonblockingKineticConnection

/-! ## BlockingKineticConnection -/

namespace BlockingKineticConnection

variable (b : BlockingKineticConnection)

/-- mirrors src/main/blocking_kinetic_connection.cc:204-206 -/
def setClientClusterVersion (clusterVersion : Int) : BlockingKineticConnection :=
  ⟨b.nonblockingConnection.setClientClusterVersion clusterVersion⟩

/-- What src/main/blocking_kinetic_connection.cc:79-594 submits. An overload
that calls the other one of its class is written as the call this makes. -/
def submits : Call → Option Submission
  | .noOp => b.nonblockingConnection.submits .noOp
  | .get key => b.nonblockingConnection.submits (.get key)
  | .getS key => b.nonblockingConnection.submits (.get (some key))
  | .getNext key => b.nonblockingConnection.submits (.getNext key)
  | .getNextS key => b.nonblockingConnection.submits (.getNext (some key))
  | .getPrevious key => b.nonblockingConnection.submits (.getPrevious key)
  | .getPreviousS key => b.nonblockingConnection.submits (.getPrevious (some key))
  | .getVersion key => b.nonblockingConnection.submits (.getVersion key)
  | .getVersionS key => b.nonblockingConnection.submits (.getVersion (some key))
  | .getKeyRange startKey si endKey ei reverse maxResults =>
    b.nonblockingConnection.submits (.getKeyRange startKey si endKey ei reverse maxResults)
  | .getKeyRangeS startKey si endKey ei reverse maxResults =>
    b.nonblockingConnection.submits
      (.getKeyRange (some startKey) si (some endKey) ei reverse maxResults)
  | .put key currentVersion mode record =>
    b.nonblockingConnection.submits (.put key currentVersion mode record)
  | .putP key currentVersion mode record persistMode =>
    b.nonblockingConnection.submits (.putP key currentVersion mode record persistMode)
  | .putS key currentVersion mode record => do
    let record ← record
    b.nonblockingConnection.submits (.put (some key) (some currentVersion) mode (some record))
  | .putSP key currentVersion mode record persistMode => do
    let record ← record
    b.nonblockingConnection.submits
      (.putP (some key) (some currentVersion) mode (some record) persistMode)
  | .delete key version mode => b.nonblockingConnection.submits (.delete key version mode)
  | .deleteP key version mode persistMode =>
    b.nonblockingConnection.submits (.deleteP key version mode persistMode)
  | .deleteS key version mode =>
    b.nonblockingConnection.submits (.delete (some key) (some version) mode)
  | .deleteSP key version mode persistMode =>
    b.nonblockingConnection.submits (.deleteP (some key) (some version) mode persistMode)
  | .secureErase pin => b.nonblockingConnection.submits (.secureErase pin)
  | .secureEraseS pin => b.nonblockingConnection.submits (.secureErase (some pin))
  | .instantErase pin => b.nonblockingConnection.submits (.instantErase pin)
  | .instantEraseS pin => b.nonblockingConnection.submits (.instantErase (some pin))
  | .lockDevice pin => b.nonblockingConnection.submits (.lockDevice pin)
  | .lockDeviceS pin => b.nonblockingConnection.submits (.lockDevice (some pin))
  | .unlockDevice pin => b.nonblockingConnection.submits (.unlockDevice pin)
  | .unlockDeviceS pin => b.nonblockingConnection.submits (.unlockDevice (some pin))
  | .flush => b.nonblockingConnection.submits .flush
  | .setClusterVersion newClusterVersion =>
    b.nonblockingConnection.submits (.setClusterVersion newClusterVersion)
  | .getLog => b.nonblockingConnection.submits .getLog
  | .getLogTypes types => b.nonblockingConnection.submits (.getLogTypes types)
  | .updateFirmware newFirmware => b.nonblockingConnection.submits (.updateFirmware newFirmware)
  | .setACLs acls => b.nonblockingConnection.submits (.setACLs acls)
  | .setLockPIN newPin currentPin => b.nonblockingConnection.submits (.setLockPIN newPin currentPin)
  | .setLockPINS newPin currentPin =>
    b.nonblockingConnection.submits (.setLockPIN (some newPin) (some currentPin))
  | .setErasePIN newPin currentPin =>
    b.nonblockingConnection.submits (.setErasePIN newPin currentPin)
  | .setErasePINS newPin currentPin =>
    b.nonblockingConnection.submits (.setErasePIN (some newPin) (some currentPin))
  | .p2pPush pushRequest => b.nonblockingConnection.submits (.p2pPush pushRequest)
  | .p2pPushS pushRequest => b.nonblockingConnection.submits (.p2pPush (some pushRequest))
  | .mediaScan startKey si endKey ei maxResults =>
    b.nonblockingConnection.submits (.mediaScan startKey si endKey ei maxResults)
  | .mediaScanS startKey si endKey ei maxResults =>
    b.nonblockingConnection.submits (.mediaScanS startKey si endKey ei maxResults)
  | .mediaOptimize startKey si endKey ei =>
    b.nonblockingConnection.submits (.mediaOptimize startKey si endKey ei)
  | .mediaOptimizeS startKey si endKey ei =>
    b.nonblockingConnection.submits (.mediaOptimizeS startKey si endKey ei)

/-- The request of the first frame, which the iterator's constructor loads
(src/main/blocking_kinetic_connection.cc:483-490, src/main/key_range_iterator.cc:43-61
and 155-176). `frame_size` is unsigned, `max_results` an `int32_t`. -/
def iterateKeyRange (startKey : StringPtr) (startKeyInclusive : Bool) (endKey : StringPtr)
    (endKeyInclusive : Bool) (frameSize : BitVec 32) : Option Submission := do
  let startKey ← startKey
  let endKey ← endKey
  b.submits (.getKeyRangeS startKey startKeyInclusive endKey endKeyInclusive false frameSize.toInt)

/-- mirrors src/main/blocking_kinetic_connection.cc:492-502 -/
def iterateKeyRangeS (startKey : Bytes) (startKeyInclusive : Bool) (endKey : Bytes)
    (endKeyInclusive : Bool) (frameSize : BitVec 32) : Option Submission :=
  b.iterateKeyRange (some startKey) startKeyInclusive (some endKey) endKeyInclusive frameSize

end BlockingKineticConnection

/-! ## ThreadsafeBlockingKineticConnection -/

namespace ThreadsafeBlockingKineticConnection

variable (c : ThreadsafeBlockingKineticConnection)

/-- mirrors src/main/threadsafe_blocking_kinetic_connection.cc:41-44 -/
def setClientClusterVersion (clusterVersion : Int) : ThreadsafeBlockingKineticConnection :=
  ⟨c.connection.setClientClusterVersion clusterVersion⟩

/-- What src/main/threadsafe_blocking_kinetic_connection.cc:36-371 submits. -/
def submits : Call → Option Submission
  | .noOp => c.connection.submits .noOp
  | .get key => c.connection.submits (.get key)
  | .getS key => c.connection.submits (.getS key)
  | .getNext key => c.connection.submits (.getNext key)
  | .getNextS key => c.connection.submits (.getNextS key)
  | .getPrevious key => c.connection.submits (.getPrevious key)
  | .getPreviousS key => c.connection.submits (.getPreviousS key)
  | .getVersion key => c.connection.submits (.getVersion key)
  | .getVersionS key => c.connection.submits (.getVersionS key)
  | .getKeyRange startKey si endKey ei reverse maxResults =>
    c.connection.submits (.getKeyRange startKey si endKey ei reverse maxResults)
  | .getKeyRangeS startKey si endKey ei reverse maxResults =>
    c.connection.submits (.getKeyRangeS startKey si endKey ei reverse maxResults)
  | .put key currentVersion mode record => c.connection.submits (.put key currentVersion mode record)
  | .putP key currentVersion mode record persistMode =>
    c.connection.submits (.putP key currentVersion mode record persistMode)
  | .putS key currentVersion mode record =>
    c.connection.submits (.putS key currentVersion mode record)
  | .putSP key currentVersion mode record persistMode =>
    c.connection.submits (.putSP key currentVersion mode record persistMode)
  | .delete key version mode => c.connection.submits (.delete key version mode)
  | .deleteP key version mode persistMode =>
    c.connection.submits (.deleteP key version mode persistMode)
  | .deleteS key version mode => c.connection.submits (.deleteS key version mode)
  | .deleteSP key version mode persistMode =>
    c.connection.submits (.deleteSP key version mode persistMode)
  | .secureErase pin => c.connection.submits (.instantErase pin)
  | .secureEraseS pin => c.connection.submits (.instantEraseS pin)
  | .instantErase pin => c.connection.submits (.instantErase pin)
  | .instantEraseS pin => c.connection.submits (.instantEraseS pin)
  | .lockDevice pin => c.connection.submits (.lockDevice pin)
  | .lockDeviceS pin => c.connection.submits (.lockDeviceS pin)
  | .unlockDevice pin => c.connection.submits (.unlockDevice pin)
  | .unlockDeviceS pin => c.connection.submits (.unlockDeviceS pin)
  | .flush => c.connection.submits .flush
  | .setClusterVersion newClusterVersion =>
    c.connection.submits (.setClusterVersion newClusterVersion)
  | .getLog => c.connection.submits .getLog
  | .getLogTypes types => c.connection.submits (.getLogTypes types)
  | .updateFirmware newFirmware => c.connection.submits (.updateFirmware newFirmware)
  | .setACLs acls => c.connection.submits (.setACLs acls)
  | .setLockPIN newPin currentPin => c.connection.submits (.setLockPIN newPin currentPin)
  | .setLockPINS newPin currentPin => c.connection.submits (.setLockPINS newPin currentPin)
  | .setErasePIN newPin currentPin => c.connection.submits (.setErasePIN newPin currentPin)
  | .setErasePINS newPin currentPin => c.connection.submits (.setErasePINS newPin currentPin)
  | .p2pPush pushRequest => c.connection.submits (.p2pPush pushRequest)
  | .p2pPushS pushRequest => c.connection.submits (.p2pPushS pushRequest)
  | .mediaScan startKey si endKey ei maxResults =>
    c.connection.submits (.mediaScan startKey si endKey ei maxResults)
  | .mediaScanS startKey si endKey ei maxResults =>
    c.connection.submits (.mediaScanS startKey si endKey ei maxResults)
  | .mediaOptimize startKey si endKey ei =>
    c.connection.submits (.mediaOptimize startKey si endKey ei)
  | .mediaOptimizeS startKey si endKey ei =>
    c.connection.submits (.mediaOptimizeS startKey si endKey ei)

/-- mirrors src/main/threadsafe_blocking_kinetic_connection.cc:291-298 -/
def iterateKeyRange (startKey : StringPtr) (startKeyInclusive : Bool) (endKey : StringPtr)
    (endKeyInclusive : Bool) (frameSize : BitVec 32) : Option Submission :=
  c.connection.iterateKeyRange startKey startKeyInclusive endKey endKeyInclusive frameSize

/-- mirrors src/main/threadsafe_blocking_kinetic_connection.cc:300-307 -/
def iterateKeyRangeS (startKey : Bytes) (startKeyInclusive : Bool) (endKey : Bytes)
    (endKeyInclusive : Bool) (frameSize : BitVec 32) : Option Submission :=
  c.connection.iterateKeyRangeS startKey startKeyInclusive endKey endKeyInclusive frameSize

end ThreadsafeBlockingKineticConnection

/-! ## ThreadsafeNonblockingKineticConnection -/

namespace ThreadsafeNonblockingKineticConnection

variable (c : ThreadsafeNonblockingKineticConnection)

/-- mirrors src/main/threadsafe_nonblocking_kinetic_connection.cc:46-49 -/
def setClientClusterVersion (clusterVersion : Int) : ThreadsafeNonblockingKineticConnection :=
  ⟨c.connection.setClientClusterVersion clusterVersion⟩

/-- What src/main/threadsafe_nonblocking_kinetic_connection.cc:51-368 submits. -/
def submits : Call → Option Submission
  | .noOp => c.connection.submits .noOp
  | .get key => c.connection.submits (.get key)
  | .getS key => c.connection.submits (.getS key)
  | .getNext key => c.connection.submits (.getNext key)
  | .getNextS key => c.connection.submits (.getNextS key)
  | .getPrevious key => c.connection.submits (.getPrevious key)
  | .getPreviousS key => c.connection.submits (.getPreviousS key)
  | .getVersion key => c.connection.submits (.getVersion key)
  | .getVersionS key => c.connection.submits (.getVersionS key)
  | .getKeyRange startKey si endKey ei reverse maxResults =>
    c.connection.submits (.getKeyRange startKey si endKey ei reverse maxResults)
  | .getKeyRangeS startKey si endKey ei reverse maxResults =>
    c.connection.submits (.getKeyRangeS startKey si endKey ei reverse maxResults)
  | .put key currentVersion mode record => c.connection.submits (.put key currentVersion mode record)
  | .putP key currentVersion mode record persistMode =>
    c.connection.submits (.putP key currentVersion mode record persistMode)
  | .putS key currentVersion mode record =>
    c.connection.submits (.putS key currentVersion mode record)
  | .putSP key currentVersion mode record persistMode =>
    c.connection.submits (.putSP key currentVersion mode record persistMode)
  | .delete key version mode => c.connection.submits (.delete key version mode)
  | .deleteP key version mode persistMode =>
    c.connection.submits (.deleteP key version mode persistMode)
  | .deleteS key version mode => c.connection.submits (.deleteS key version mode)
  | .deleteSP key version mode persistMode =>
    c.connection.submits (.deleteSP key version mode persistMode)
  | .secureErase pin => c.connection.submits (.secureErase pin)
  | .secureEraseS pin => c.connection.submits (.secureEraseS pin)
  | .instantErase pin => c.connection.submits (.instantErase pin)
  | .instantEraseS pin => c.connection.submits (.instantEraseS pin)
  | .lockDevice pin => c.connection.submits (.lockDevice pin)
  | .lockDeviceS pin => c.connection.submits (.lockDeviceS pin)
  | .unlockDevice pin => c.connection.submits (.unlockDevice pin)
  | .unlockDeviceS pin => c.connection.submits (.unlockDeviceS pin)
  | .flush => c.connection.submits .flush
  | .setClusterVersion newClusterVersion =>
    c.connection.submits (.setClusterVersion newClusterVersion)
  | .getLog => c.connection.submits .getLog
  | .getLogTypes types => c.connection.submits (.getLogTypes types)
  | .updateFirmware newFirmware => c.connection.submits (.updateFirmware newFirmware)
  | .setACLs acls => c.connection.submits (.setACLs acls)
  | .setLockPIN newPin currentPin => c.connection.submits (.setLockPIN newPin currentPin)
  | .setLockPINS newPin currentPin => c.connection.submits (.setLockPINS newPin currentPin)
  | .setErasePIN newPin currentPin => c.connection.submits (.setErasePIN newPin currentPin)
  | .setErasePINS newPin currentPin => c.connection.submits (.setErasePINS newPin currentPin)
  | .p2pPush pushRequest => c.connection.submits (.p2pPush pushRequest)
  | .p2pPushS pushRequest => c.connection.submits (.p2pPushS pushRequest)
  | .mediaScan startKey si endKey ei maxResults =>
    c.connection.submits (.mediaScan startKey si endKey ei maxResults)
  | .mediaScanS startKey si endKey ei maxResults =>
    c.connection.submits (.mediaScanS startKey si endKey ei maxResults)
  | .mediaOptimize startKey si endKey ei =>
    c.connection.submits (.mediaOptimize startKey si endKey ei)
  | .mediaOptimizeS startKey si endKey ei =>
    c.connection.submits (.mediaOptimizeS startKey si endKey ei)

end ThreadsafeNonblockingKineticConnection

/-! ## The same calls through each of them -/

/-- What a connection class makes of its caller's calls. -/
structure Variant (C : Type) where
  setClientClusterVersion : C → Int → C
  submits : C → Call → Option Submission

def nonblocking : Variant NonblockingKineticConnection :=
  ⟨NonblockingKineticConnection.setClientClusterVersion, NonblockingKineticConnection.submits⟩

def blocking : Variant BlockingKineticConnection :=
  ⟨BlockingKineticConnection.setClientClusterVersion, BlockingKineticConnection.submits⟩

def threadsafeBlocking : Variant ThreadsafeBlockingKineticConnection :=
  ⟨ThreadsafeBlockingKineticConnection.setClientClusterVersion,
    ThreadsafeBlockingKineticConnection.submits⟩

def threadsafeNonblocking : Variant ThreadsafeNonblockingKineticConnection :=
  ⟨ThreadsafeNonblockingKineticConnection.setClientClusterVersion,
    ThreadsafeNonblockingKineticConnection.submits⟩

/-- What the caller does with a connection. -/
inductive Use where
  | setClientClusterVersion (clusterVersion : Int)
  | call (call : Call)

/-- What reaches the packet service, call by call. -/
def Variant.session {C : Type} (v : Variant C) : C → List Use → List (Option Submission)
  | _, [] => []
  | c, .setClientClusterVersion k :: uses => v.session (v.setClientClusterVersion c k) uses
  | c, .call x :: uses => v.submits c x :: v.session c uses

def Call.isSecureErase : Call → Bool
  | .secureErase _ => true
  | .secureEraseS _ => true
  | _ => false

variable (n : NonblockingKineticConnection)

theorem blocking_submits (x : Call) : (BlockingKineticConnection.mk n).submits x = n.submits x := by
  cases x with
  | putS key currentVersion mode record => cases record <;> rfl
  | putSP key currentVersion mode record persistMode => cases record <;> rfl
  | _ => rfl

theorem threadsafeNonblocking_submits (x : Call) :
    (ThreadsafeNonblockingKineticConnection.mk n).submits x = n.submits x := by
  cases x <;> rfl

/-- The kind of PIN operation a submission asks for. -/
def Submission.pinOpType (x : Submission) : Option PinOpType :=
  x.command.body.bind fun b => b.pinOp.bind PinOperation.pinOpType

/-- Only the two overloads of `SecureErase` are not forwarded as they are. -/
theorem threadsafeBlocking_forwards {x : Call} (h : x.isSecureErase = false) :
    (ThreadsafeBlockingKineticConnection.mk ⟨n⟩).submits x =
      (BlockingKineticConnection.mk n).submits x := by
  cases x with
  | secureErase pin => cases h
  | secureEraseS pin => cases h
  | _ => rfl

theorem threadsafeBlocking_submits (x : Call) :
    (ThreadsafeBlockingKineticConnection.mk ⟨n⟩).submits x = n.submits x ↔
      x.isSecureErase = false := by
  refine ⟨fun h => ?_, fun h => (threadsafeBlocking_forwards n h).trans (blocking_submits n x)⟩
  -- the kind of PIN operation tells the two erasures apart
  cases x with
  | secureErase pin => cases congrArg (fun s => s.bind Submission.pinOpType) h
  | secureEraseS pin => cases congrArg (fun s => s.bind Submission.pinOpType) h
  | _ => rfl

theorem Variant.session_eq {C D : Type} (v : Variant C) (w : Variant D) {R : C → D → Prop}
    (hset : ∀ c d k, R c d → R (v.setClientClusterVersion c k) (w.setClientClusterVersion d k))
    {uses : List Use} (hsub : ∀ c d, R c d → ∀ x, .call x ∈ uses → v.submits c x = w.submits d x)
    {c : C} {d : D} (h : R c d) : v.session c uses = w.session d uses := by
  induction uses generalizing c d with
  | nil => rfl
  | cons u uses ih =>
    have ih := @ih fun c d h x hx => hsub c d h x (List.mem_cons_of_mem _ hx)
    cases u with
    | setClientClusterVersion k => exact ih (hset c d k h)
    | call x =>
      rw [session, session, hsub c d h x List.mem_cons_self, ih h]

/-- A session that comes out the same has no `SecureErase` in it. -/
theorem threadsafeBlocking_session {uses : List Use}
    (h : threadsafeBlocking.session ⟨⟨n⟩⟩ uses = nonblocking.session n uses) :
    ∀ x, .call x ∈ uses → x.isSecureErase = false := by
  induction uses generalizing n with
  | nil => simp
  | cons u uses ih =>
    intro x hx
    cases u with
    | setClientClusterVersion k =>
      rcases List.mem_cons.1 hx with hx | hx
      · cases hx
      · exact ih _ h x hx
    | call y =>
      obtain ⟨hy, h⟩ := List.cons.inj h
      rcases List.mem_cons.1 hx with hx | hx
      · obtain rfl := Use.call.inj hx
        exact (threadsafeBlocking_submits n x).1 hy
      · exact ih n h x hx

/-- **All variants issue the same commands** in every session that does not use
`SecureErase`, and only in those: through `ThreadsafeBlockingKineticConnection`
it is an `InstantErase`. `IterateKeyRange`, which only the blocking classes have,
is forwarded as it is. -/
theorem same_submissions_iff (uses : List Use) :
    ((threadsafeBlocking.session ⟨⟨n⟩⟩ uses = blocking.session ⟨n⟩ uses ∧
        blocking.session ⟨n⟩ uses = threadsafeNonblocking.session ⟨n⟩ uses ∧
        threadsafeNonblocking.session ⟨n⟩ uses = nonblocking.session n uses) ↔
      ∀ x, .call x ∈ uses → x.isSecureErase = false) ∧
    ∀ startKey si endKey ei frameSize,
      (ThreadsafeBlockingKineticConnection.mk ⟨n⟩).iterateKeyRange startKey si endKey ei frameSize =
        (BlockingKineticConnection.mk n).iterateKeyRange startKey si endKey ei frameSize := by
  refine ⟨⟨fun ⟨h1, h2, h3⟩ => ?_, fun h => ?_⟩, fun _ _ _ _ _ => rfl⟩
  · exact threadsafeBlocking_session n (h1.trans (h2.trans h3))
  · have hb : blocking.session ⟨n⟩ uses = nonblocking.session n uses :=
      Variant.session_eq (R := fun b m => b = ⟨m⟩) _ _ (by rintro _ _ k rfl; rfl)
        (by rintro _ m rfl x -; exact blocking_submits m x) rfl
    have ht : threadsafeNonblocking.session ⟨n⟩ uses = nonblocking.session n uses :=
      Variant.session_eq (R := fun b m => b = ⟨m⟩) _ _ (by rintro _ _ k rfl; rfl)
        (by rintro _ m rfl x -; exact threadsafeNonblocking_submits m x) rfl
    have hs : threadsafeBlocking.session ⟨⟨n⟩⟩ uses = nonblocking.session n uses :=
      Variant.session_eq (R := fun b m => b = ⟨⟨m⟩⟩) _ _ (by rintro _ _ k rfl; rfl)
        (by rintro _ m rfl x hx; exact (threadsafeBlocking_submits m x).2 (h x hx)) rfl
    exact ⟨hs.trans hb.symm, hb.trans ht.symm, ht⟩

/-- A `SecureErase` through `ThreadsafeBlockingKineticConnection` is not the one
of the other classes. -/
theorem secureErase_forwarded_wrong :
    ¬ ∀ (n : NonblockingKineticConnection) (x : Call),
      (ThreadsafeBlockingKineticConnection.mk ⟨n⟩).submits x = (BlockingKineticConnection.mk n).submits x := by
  intro h
  have h := (h ⟨0⟩ (.secureEraseS [49])).trans (blocking_submits ⟨0⟩ (.secureEraseS [49]))
  exact absurd ((threadsafeBlocking_submits ⟨0⟩ _).1 h) (by decide)

end Kinetic.L3
