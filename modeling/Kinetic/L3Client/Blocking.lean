import Kinetic.L2Service.Failure
import Kinetic.L2Service.Reports
import Kinetic.L3Client.DriveLog
import Kinetic.L3Client.Forwarding

/-!
# Blocking operations

`BlockingKineticConnection` submits one request at a time, with a callback that
holds the caller's out parameters by reference, and calls `Run` until the callback
has been invoked, `select` fails or times out, or `Run` reports failure. What a
callback has been told is read off the log of the service. The other callbacks
of the nonblocking connection, those of requests that are still pending on it,
may do as they like.
-/
open Kinetic.Core

namespace Kinetic.L3

open L1 L2 NonblockingPacketService

/-! ## Callbacks -/

/-- mirrors src/main/blocking_kinetic_connection.cc:41-64 -/
structure BlockingCallbackState where
  done : Bool
  success : Bool
  error : KineticStatus
  deriving DecidableEq, Repr

namespace BlockingCallbackState

def create : BlockingCallbackState := ⟨false, false, ⟨.ok, "default -- never seen", 0⟩⟩

def onSuccess (s : BlockingCallbackState) : BlockingCallbackState :=
  { s with done := true, success := true }

def onError (_ : BlockingCallbackState) (error : KineticStatus) : BlockingCallbackState :=
  { done := true, success := false, error := error }

/-- The handlers of src/main/nonblocking_kinetic_connection.cc:33-222 pass
`Handle` on to `Success` and `Error` to `Failure`. -/
def notify (s : BlockingCallbackState) : Completion → BlockingCallbackState
  | .handle _ _ _ => s.onSuccess
  | .error _ status _ => s.onError status

end BlockingCallbackState

/-- The out parameters of the operations, each a `unique_ptr`. -/
structure Outputs where
  actualKey : Option Bytes := none
  record : Option KineticRecord := none
  version : Option Bytes := none
  keys : Option (List Bytes) := none
  lastHandledKey : Option Bytes := none
  driveLog : Option DriveLog := none
  operationStatuses : Option (List KineticStatus) := none
  deriving DecidableEq, Repr

/-- The callback classes of src/main/blocking_kinetic_connection.cc. -/
inductive Callback where
  | simple
  | get (wantActualKey : Bool)
  | getVersion
  | getKeyRange
  | mediaScan
  | mediaOptimize
  | put
  | getLog
  | p2pPush
  deriving DecidableEq, Repr

/-- A protobuf string as a message text. -/
def statusText (bytes : Bytes) : String := String.ofList (bytes.map fun b => Char.ofNat b.toNat)

/-- The statuses of src/main/nonblocking_kinetic_connection.cc:205-216. -/
def P2POperationOperation.status : P2POperationOperation → KineticStatus
  | .mk _ _ _ _ status _ =>
    ⟨convertFromProtoStatus (((status.getD {}).code).getD .invalidStatusCode),
      statusText ((status.getD {}).statusMessage.getD []), 0⟩

def P2POperation.statuses : P2POperation → List KineticStatus
  | .mk _ operations => operations.map P2POperationOperation.status

/-- What `Success` writes to the out parameters, from the response that the
handler was given (src/main/nonblocking_kinetic_connection.cc:35-216,
src/main/blocking_kinetic_connection.cc:67-202, 220-231, 328-343 and 509-526). -/
def Callback.success (callback : Callback) (response : Command) (value : Option Bytes)
    (out : Outputs) : Outputs :=
  let body := response.body.getD {}
  let keyValue := body.keyValue.getD {}
  let range := body.range.getD {}
  match callback with
  | .simple | .put => out
  | .get wantActualKey =>
    let out := if wantActualKey then { out with actualKey := some (keyValue.key.getD []) } else out
    { out with record := some {
        value := value
        version := some (keyValue.dbVersion.getD [])
        tag := some (keyValue.tag.getD [])
        algorithm := keyValue.algorithm.getD .invalidAlgorithm } }
  | .getVersion => { out with version := some (keyValue.dbVersion.getD []) }
  | .getKeyRange => { out with keys := some range.keys }
  | .mediaScan =>
    { out with lastHandledKey := some (range.endKey.getD []), keys := some range.keys }
  | .mediaOptimize => { out with lastHandledKey := some (range.endKey.getD []) }
  | .getLog => { out with driveLog := some (GetLogHandler.driveLog (body.getLog.getD {})) }
  | .p2pPush => { out with operationStatuses := some (body.p2pOperation.elim [] P2POperation.statuses) }

/-- The callback that each operation creates
(src/main/blocking_kinetic_connection.cc:79-594). -/
def Call.callback : Call → Callback
  | .get _ | .getS _ => .get false
  | .getNext _ | .getNextS _ | .getPrevious _ | .getPreviousS _ => .get true
  | .getVersion _ | .getVersionS _ => .getVersion
  | .getKeyRange _ _ _ _ _ _ | .getKeyRangeS _ _ _ _ _ _ => .getKeyRange
  | .put _ _ _ _ | .putP _ _ _ _ _ | .putS _ _ _ _ | .putSP _ _ _ _ _ => .put
  | .getLog | .getLogTypes _ => .getLog
  | .p2pPush _ | .p2pPushS _ => .p2pPush
  | .mediaScan _ _ _ _ _ | .mediaScanS _ _ _ _ _ => .mediaScan
  | .mediaOptimize _ _ _ _ | .mediaOptimizeS _ _ _ _ => .mediaOptimize
  | _ => .simple

/-- The calls of the callback that was submitted as handler `h`. -/
def callsOf (h : Nat) (log : List Event) : List Completion :=
  (completions log).filter (·.handler == h)

/-- The callback's own fields after these calls. -/
def callbackState (h : Nat) (log : List Event) : BlockingCallbackState :=
  (callsOf h log).foldl BlockingCallbackState.notify .create

/-- The caller's out parameters after these calls: `Failure` writes none. -/
def outputs (callback : Callback) (out : Outputs) (h : Nat) (log : List Event) : Outputs :=
  (callsOf h log).foldl (fun out c =>
    match c with
    | .handle _ response value => callback.success response value out
    | .error _ _ _ => out) out

/-! ## RunOperation -/

/-- What `select` answers: a positive number, -1 with `EINTR`, zero, or -1 with
another `errno`, given as its text. -/
inductive Select where
  | ready
  | interrupted
  | timeout
  | error (message : String)
  deriving DecidableEq, Repr

/-- One turn of the loop: the answer of `select`, and what happens in the `Run`
that may follow. -/
structure Turn where
  select : Select
  io : Io

/-- The ways out of `RunOperation`. -/
inductive Exit where
  | done
  | connectionFailed
  | selectFailed (message : String)
  | timedOut
  deriving DecidableEq, Repr

/-- mirrors src/main/blocking_kinetic_connection.cc:607-636, up to where the loop
is left; `none` has not left it yet. -/
def waitLoop (lib : Lib) (h : Nat) (turns : List Turn) (fds : FdSets)
    (s : NonblockingPacketService) : Option Exit × NonblockingPacketService :=
  if (callbackState h s.log).done then (some .done, s)
  else
    match turns with
    | [] => (none, s)
    | turn :: turns =>
      match turn.select with
      | .error message => (some (.selectFailed message), s)
      | .timeout => (some .timedOut, s)
      | .ready | .interrupted =>
        match (s.supply turn.io).run lib fds with
        | (false, _, s) => (some .connectionFailed, s)
        | (true, fds, s) => waitLoop lib h turns fds s

/-- mirrors src/main/blocking_kinetic_connection.cc:598-606 -/
def wait (lib : Lib) (h : Nat) (first : Io) (turns : List Turn) (fds : FdSets)
    (s : NonblockingPacketService) : Option Exit × NonblockingPacketService :=
  match (s.supply first).run lib fds with
  | (false, _, s) => (some .connectionFailed, s)
  | (true, fds, s) => waitLoop lib h turns fds s

/-- The states in which the loop calls `Run`. -/
def loopRuns (lib : Lib) (h : Nat) : List Turn → FdSets → NonblockingPacketService →
    List NonblockingPacketService
  | [], _, _ => []
  | turn :: turns, fds, s =>
    if (callbackState h s.log).done then []
    else
      match turn.select with
      | .error _ | .timeout => []
      | .ready | .interrupted => s.supply turn.io ::
        match (s.supply turn.io).run lib fds with
        | (false, _, _) => []
        | (true, fds, s) => loopRuns lib h turns fds s

/-- What `RunOperation` returns, and the `RemoveHandler` before it on the four
error exits (src/main/blocking_kinetic_connection.cc:602-603, 621-643). -/
def Exit.leave (h key : Nat) (s : NonblockingPacketService) :
    Exit → KineticStatus × NonblockingPacketService
  | .done =>
    let callback := callbackState h s.log
    (if callback.success then ⟨.ok, "", 0⟩ else callback.error, s)
  | .connectionFailed => (⟨.clientIoError, "Connection failed", 0⟩, (s.remove key).2)
  | .selectFailed message => (⟨.clientIoError, message, 0⟩, (s.remove key).2)
  | .timedOut => (⟨.clientIoError, "Network timeout", 0⟩, (s.remove key).2)

/-- mirrors src/main/blocking_kinetic_connection.cc:596-644; `none` has not
returned yet. -/
def runOperation (lib : Lib) (h key : Nat) (first : Io) (turns : List Turn) (fds : FdSets)
    (s : NonblockingPacketService) : Option KineticStatus × NonblockingPacketService :=
  match wait lib h first turns fds s with
  | (none, s) => (none, s)
  | (some exit, s) => (some (exit.leave h key s).1, (exit.leave h key s).2)

/-! ## Operations -/

/-- An operation: the connection with the cluster version then in force, the
call, what happens in each turn, and what the two sets and `nfds`, which are not
initialized, hold at first. -/
structure Operation where
  connection : BlockingKineticConnection
  call : Call
  first : Io
  turns : List Turn
  fds : FdSets

/-- What is submitted, where no null pointer is dereferenced. -/
def Operation.request (op : Operation) : Option (Message × Command × Bytes) := do
  let submission ← op.connection.submits op.call
  let value ← submission.value
  return (submission.message, submission.command, value)

/-- After the operation's `Submit`, whose own callback does nothing. -/
def Operation.submit (lib : Lib) (op : Operation) (s : NonblockingPacketService) :
    NonblockingPacketService :=
  match op.request with
  | none => s
  | some (m, c, v) => (Op.submit [] m c v).apply lib s

/-- The states in which the operation calls `Run`. -/
def Operation.runs (lib : Lib) (op : Operation) (s : NonblockingPacketService) :
    List NonblockingPacketService :=
  let u := (op.submit lib s).supply op.first
  u :: match u.run lib op.fds with
    | (false, _, _) => []
    | (true, fds, t) => loopRuns lib s.handlers op.turns fds t

/-- The operation is defined: so are its request, `Submit`, and each `Run`. -/
def Operation.Defined (lib : Lib) (op : Operation) (s : NonblockingPacketService) : Prop :=
  op.request.isSome ∧ s.submitDefined = true ∧ ∀ u ∈ op.runs lib s, u.runDefined lib = true

instance (lib : Lib) (op : Operation) (s : NonblockingPacketService) :
    Decidable (op.Defined lib s) := inferInstanceAs (Decidable (_ ∧ _ ∧ _))

/-- The operation, called in `s`: its handler is the next one, and so is its key. -/
def Operation.perform (lib : Lib) (op : Operation) (s : NonblockingPacketService) :
    Option KineticStatus × NonblockingPacketService :=
  runOperation lib s.handlers s.nextKey op.first op.turns op.fds (op.submit lib s)

def session (lib : Lib) (s : NonblockingPacketService) : List Operation → NonblockingPacketService
  | [] => s
  | op :: ops =>
    match op.perform lib s with
    | (none, t) => t
    | (some _, t) => session lib t ops

def SessionDefined (lib : Lib) (s : NonblockingPacketService) : List Operation → Prop
  | [] => True
  | op :: ops => op.Defined lib s ∧
    ((op.perform lib s).1.isSome → SessionDefined lib (op.perform lib s).2 ops)

/-! ## Calls of the callback -/

variable {lib : Lib} {s t : NonblockingPacketService} {h : Nat}

theorem callsOf_append (h : Nat) (l new : List Event) :
    callsOf h (l ++ new) = callsOf h l ++ callsOf h new := by
  simp [callsOf]

theorem mem_callsOf {l : List Event} {c : Completion} :
    c ∈ callsOf h l ↔ c ∈ completions l ∧ c.handler = h := by
  simp [callsOf]

theorem callsOf_eq_nil {l : List Event} : callsOf h l = [] ↔ h ∉ settled l := by
  rw [callsOf, List.filter_eq_nil_iff, settled, List.mem_map]
  constructor
  · rintro hn ⟨c, hc, he⟩
    exact hn c hc (by simpa using he)
  · rintro hn c hc he
    exact hn ⟨c, hc, by simpa using he⟩

theorem callsOf_length (h : Nat) (l : List Event) :
    (callsOf h l).length = (settled l).count h := by
  rw [callsOf, settled, List.count, List.countP_map, List.countP_eq_length_filter]
  rfl

/-- A callback is called at most once. -/
theorem callsOf_cases (hi : Inv s) (h : Nat) :
    callsOf h s.log = [] ∨ ∃ c, callsOf h s.log = [c] := by
  have h1 := callsOf_length h s.log
  have h2 := hi.ledger.settled_once h
  match hc : callsOf h s.log with
  | [] => exact .inl rfl
  | [c] => exact .inr ⟨c, rfl⟩
  | c :: c' :: rest =>
    rw [hc] at h1
    simp only [List.length_cons] at h1
    omega

theorem done_iff (hi : Inv s) : (callbackState h s.log).done = true ↔ h ∈ settled s.log := by
  have hn := callsOf_eq_nil (h := h) (l := s.log)
  unfold callbackState
  rcases callsOf_cases hi h with hc | ⟨c, hc⟩
  · rw [hc] at hn ⊢
    simpa [BlockingCallbackState.create] using hn
  · rw [hc] at hn ⊢
    cases c <;> simpa [BlockingCallbackState.notify, BlockingCallbackState.onSuccess,
      BlockingCallbackState.onError] using hn

/-- `RunOperation` leaves its loop as done only when the callback is. -/
theorem waitLoop_done (turns : List Turn) (fds : FdSets)
    (hw : waitLoop lib h turns fds s = (some .done, t)) : (callbackState h t.log).done = true := by
  induction turns generalizing fds s with
  | nil =>
    unfold waitLoop at hw
    split at hw
    · cases hw; assumption
    · cases hw
  | cons turn turns ih =>
    unfold waitLoop at hw
    split at hw
    · cases hw; assumption
    · dsimp only at hw
      split at hw <;> try cases hw
      all_goals
        split at hw
        · cases hw
        · exact ih _ hw

theorem wait_done {first : Io} {turns : List Turn} {fds : FdSets}
    (hw : wait lib h first turns fds s = (some .done, t)) : (callbackState h t.log).done = true := by
  unfold wait at hw
  split at hw
  · cases hw
  · exact waitLoop_done _ _ hw

theorem wait_failed {first : Io} (turns : List Turn) {fds : FdSets}
    (hr : ((s.supply first).run lib fds).1 = false) :
    wait lib h first turns fds s =
      (some .connectionFailed, ((s.supply first).run lib fds).2.2) := by
  unfold wait
  split
  all_goals rename_i he; rw [he] at hr ⊢
  cases hr

theorem runs_failed {op : Operation}
    (hr : (((op.submit lib s).supply op.first).run lib op.fds).1 = false) :
    op.runs lib s = [(op.submit lib s).supply op.first] := by
  unfold Operation.runs
  dsimp only
  split
  · rfl
  · rename_i he
    rw [he] at hr
    cases hr

/-- A `Run` that reports failure sets no descriptor. -/
theorem runDefined_failed {fds : FdSets} (hr : (s.run lib fds).1 = false) :
    s.runDefined lib = true := by
  have hfds : (s.run lib ⟨[], [], 0⟩).2.1.nfds = 0 := by
    cases hf : s.failed with
    | true => simp [NonblockingPacketService.run, hf]
    | false =>
      rcases run_cases hf ⟨[], [], 0⟩ with ⟨-, he⟩ | ⟨-, -, he⟩ | ⟨h1, h2, -⟩
      · rw [he]
      · rw [he]
      · rcases run_cases hf fds with ⟨h, -⟩ | ⟨-, h, -⟩ | ⟨-, -, he⟩
        · exact absurd h h1
        · exact absurd h h2
        · rw [he] at hr
          cases hr
  rw [runDefined, hfds]
  exact Bool.or_true _

/-! ## Operations are runs of the service -/

theorem waitLoop_run {turns : List Turn} {fds : FdSets}
    (hd : ∀ u ∈ loopRuns lib h turns fds s, u.runDefined lib = true) :
    ∃ ops, (service lib).Run s ops (waitLoop lib h turns fds s).2 := by
  induction turns generalizing fds s with
  | nil =>
    unfold waitLoop
    split <;> exact ⟨[], .nil s⟩
  | cons turn turns ih =>
    have hrun : (∀ u ∈ s.supply turn.io :: (match (s.supply turn.io).run lib fds with
          | (false, _, _) => []
          | (true, fds, s) => loopRuns lib h turns fds s), u.runDefined lib = true) →
        ∃ ops, (service lib).Run s ops
          (match (s.supply turn.io).run lib fds with
            | (false, _, s) => (some Exit.connectionFailed, s)
            | (true, fds, s) => waitLoop lib h turns fds s).2 := by
      intro hd
      obtain ⟨hfirst, hrest⟩ := List.forall_mem_cons.1 hd
      have hstep : (service lib).step s (.run turn.io fds) ((s.supply turn.io).run lib fds).2.2 :=
        ⟨hfirst, rfl⟩
      split
      all_goals
        rename_i hr
        rw [hr] at hstep hrest
      · exact ⟨_, .cons hstep (.nil _)⟩
      · obtain ⟨ops, ho⟩ := ih hrest
        exact ⟨_, .cons hstep ho⟩
    unfold loopRuns at hd
    unfold waitLoop
    split
    · exact ⟨[], .nil s⟩
    rename_i hdone
    rw [if_neg hdone] at hd
    dsimp only at hd ⊢
    split at hd
    · exact ⟨[], .nil s⟩
    · exact ⟨[], .nil s⟩
    · exact hrun hd
    · exact hrun hd

theorem wait_run {op : Operation} (hd : ∀ u ∈ op.runs lib s, u.runDefined lib = true) :
    ∃ ops, (service lib).Run (op.submit lib s) ops
      (wait lib s.handlers op.first op.turns op.fds (op.submit lib s)).2 := by
  obtain ⟨hfirst, hrest⟩ := List.forall_mem_cons.1 hd
  have hstep : (service lib).step (op.submit lib s) (.run op.first op.fds)
      (((op.submit lib s).supply op.first).run lib op.fds).2.2 := ⟨hfirst, rfl⟩
  unfold wait
  split
  all_goals
    rename_i hr
    rw [hr] at hstep hrest
  · exact ⟨_, .cons hstep (.nil _)⟩
  · obtain ⟨ops, ho⟩ := waitLoop_run hrest
    exact ⟨_, .cons hstep ho⟩

theorem leave_run (h key : Nat) (exit : Exit) (s : NonblockingPacketService) :
    ∃ ops, (service lib).Run s ops (exit.leave h key s).2 := by
  have hstep : (service lib).step s (.remove key) (s.remove key).2 := ⟨trivial, rfl⟩
  cases exit with
  | done => exact ⟨[], .nil s⟩
  | connectionFailed => exact ⟨_, .cons hstep (.nil _)⟩
  | selectFailed message => exact ⟨_, .cons hstep (.nil _)⟩
  | timedOut => exact ⟨_, .cons hstep (.nil _)⟩

theorem submit_run (op : Operation) (hd : op.Defined lib s) :
    ∃ ops, (service lib).Run s ops (op.submit lib s) := by
  unfold Operation.submit
  split
  · exact ⟨[], .nil s⟩
  · rename_i m c v _
    have hstep : (service lib).step s (.submit [] m c v) ((Op.submit [] m c v).apply lib s) :=
      ⟨hd.2.1, rfl⟩
    exact ⟨_, .cons hstep (.nil _)⟩

theorem perform_run (op : Operation) (hd : op.Defined lib s) :
    ∃ ops, (service lib).Run s ops (op.perform lib s).2 := by
  obtain ⟨ops₁, h₁⟩ := submit_run op hd
  obtain ⟨ops₂, h₂⟩ := wait_run hd.2.2
  unfold Operation.perform runOperation
  split
  all_goals
    rename_i he
    rw [he] at h₂
  · exact ⟨_, h₁.append h₂⟩
  · rename_i exit u
    obtain ⟨ops₃, h₃⟩ := leave_run s.handlers s.nextKey exit u
    exact ⟨_, (h₁.append h₂).append h₃⟩

theorem session_run (ops : List Operation) (hd : SessionDefined lib s ops) :
    ∃ ops', (service lib).Run s ops' (session lib s ops) := by
  induction ops generalizing s with
  | nil => exact ⟨[], .nil s⟩
  | cons op ops ih =>
    obtain ⟨hop, hrest⟩ := hd
    obtain ⟨ops₁, h₁⟩ := perform_run op hop
    unfold session
    split
    all_goals
      rename_i he
      rw [he] at h₁ hrest
    · exact ⟨_, h₁⟩
    · obtain ⟨ops₂, h₂⟩ := ih (hrest rfl)
      exact ⟨_, h₁.append h₂⟩

/-- The operation's request has been issued under its own handler. -/
theorem submit_issued (hs : Steady lib s) (op : Operation) (hd : op.Defined lib s) :
    s.handlers ∈ issued (op.submit lib s).log ∧
      (s.handlers ∈ settled (op.submit lib s).log ∨ s.nextKey = s.handlers) := by
  unfold Operation.submit
  split
  · rename_i hr
    have := hd.1
    rw [hr] at this; cases this
  rename_i m c v _
  cases hf : s.failed with
  | true =>
    obtain ⟨-, new, hl⟩ := submit_failed hs hf [] m c v
    rw [hl]
    refine ⟨by simp [issued], .inl ?_⟩
    rw [settled_append]
    simp [settled, completions, Completion.handler]
  | false =>
    obtain ⟨r, he, hr, -⟩ := enqueue_spec lib m c v s.handlers s.nextKey
      ({ s with scripts := [] } : NonblockingPacketService).count
    have hl : ((Op.submit [] m c v).apply lib s).log = s.log ++ [.submitted r] := by
      simp only [Op.apply, NonblockingPacketService.submit, hf, Bool.false_eq_true, if_false]
      exact congrArg NonblockingPacketService.log he
    refine ⟨?_, .inr (hs.inv.live hf).1⟩
    rw [hl, issued_append]
    simp [issued, hr]

end Kinetic.L3
