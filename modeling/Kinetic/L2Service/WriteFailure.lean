import Kinetic.Core.Worklist
import Kinetic.L1Wire.Codec
import Kinetic.L2Service.Moves
import Kinetic.L2Service.System

/-!
# Callbacks that submit when a write fails

When its writer fails, `Send` calls `Error` for everything queued, and it goes
on until the queue is empty: the queue that the callbacks submit to, the service
not being failed yet. So far callbacks have had finitely many scripts; here the
`k`-th call of a handler submits `b k`, whatever `k` (`Behaviour`), and `Send`
(`sendWith`) need not return. It does if and only if the calls catch up with the
submissions (`Fails.returns_iff`), and then it has done what it should; a
callback that always retries its request keeps it going for good. Where the loop
ends, finitely many scripts say as much, and `writeFailed` does the same
(`writeFailedWith_eq`).

The sequence number is not bounded here: 2^63 submissions lie between a run and
the increment that would be undefined.
-/
open Kinetic.Core

namespace Kinetic.L2

open L1 NonblockingPacketService

structure Submission where
  message : Message
  command : Command
  value : Bytes

/-- What the callbacks submit, by the number of the call. A handler is called
once, so this is any behaviour of any handlers. -/
abbrev Behaviour := Nat → List Submission

/-- The service has not failed while `Send` runs, so `Submit` calls nobody. -/
def Submission.perform (lib : Lib) (s : NonblockingPacketService) (a : Submission) :
    NonblockingPacketService :=
  (s.submit lib (fun c s => s.emit (.completed c)) a.message a.command a.value).2

/-- `handler->Error(...)`, the `k`-th call. -/
def callWith (lib : Lib) (b : Behaviour) (k : Nat) (c : Completion) (s : NonblockingPacketService) :
    NonblockingPacketService := (b k).foldl (Submission.perform lib) (s.emit (.completed c))

namespace NonblockingSender

/-- mirrors src/main/nonblocking_packet_sender.cc:106-109 -/
def failNext (lib : Lib) (b : Behaviour) (status : KineticStatus) (k : Nat)
    (s : NonblockingPacketService) : NonblockingPacketService :=
  match s.sender.requestQueue with
  | [] => s
  | r :: rest =>
    callWith lib b k (.error r.handler status none) { s with sender.requestQueue := rest }

/-- mirrors src/main/nonblocking_packet_sender.cc:105-110; `none`: still going. -/
def failQueueWith (lib : Lib) (b : Behaviour) (status : KineticStatus) :
    Nat → Nat → NonblockingPacketService → Option NonblockingPacketService :=
  drain (fun s => s.sender.requestQueue.length) (failNext lib b status)

/-- Call the sender's current handler, which must be there; the number of the
next call. -/
def errorCurrentWith (lib : Lib) (b : Behaviour) (status : KineticStatus) (k : Nat)
    (s : NonblockingPacketService) : Nat × NonblockingPacketService :=
  match s.sender.handler with
  | none => (k, s.emit .aborted)
  | some h => (k + 1, callWith lib b k (.error h status none) s)

def writeError : KineticStatus := ⟨.clientIoError, "I/O write error", 0⟩

/-- mirrors src/main/nonblocking_packet_sender.cc:101-110 -/
def writeFailedWith (lib : Lib) (b : Behaviour) (fuel k : Nat) (s : NonblockingPacketService) :
    Option NonblockingPacketService :=
  let (k, s) := errorCurrentWith lib b writeError k s
  failQueueWith lib b writeError fuel k (resetHandler s)

/-- mirrors src/main/nonblocking_packet_sender.cc:114-124 -/
def finishRequestWith (lib : Lib) (b : Behaviour) (k : Nat) (s : NonblockingPacketService) :
    Nat × NonblockingPacketService :=
  let s := { s with sender.currentWriter := none }
  match s.sender.handler with
  | none => (k, s.emit .aborted)
  | some h =>
    let s := s.emit (.written h)
    match s.receiver.enqueue h s.sender.messageSequence s.sender.handlerKey with
    | (true, receiver) => (k, resetHandler { s with receiver })
    | (false, receiver) =>
      let (k, s) := errorCurrentWith lib b
        ⟨.clientInternalError, "Could not enqueue handler", 0⟩ k { s with receiver }
      (k, resetHandler s)

/-- mirrors src/main/nonblocking_packet_sender.cc:77-126; `none`: still going. -/
def sendWith (lib : Lib) (b : Behaviour) : Nat → Nat → NonblockingPacketService →
    Option (NonblockingPacketServiceStatus × NonblockingPacketService)
  | 0, _, _ => none
  | fuel + 1, k, s =>
    match startNext s with
    | none => some (.idle, s)
    | some (w, s) =>
      match w.write lib s.socket with
      | (.inProgress, w, socket) =>
        some (.ioWait, { s with socket, sender.currentWriter := some w })
      | (.failed, w, socket) =>
        (writeFailedWith lib b fuel k
          { s with socket, sender.currentWriter := some w }).map (.error, ·)
      | (.done, w, socket) =>
        let (k, s) := finishRequestWith lib b k { s with socket, sender.currentWriter := some w }
        sendWith lib b fuel k s

end NonblockingSender

open NonblockingSender

/-- `Send`, called in `s`, returns. -/
def Sends (lib : Lib) (b : Behaviour) (s : NonblockingPacketService)
    (out : NonblockingPacketServiceStatus × NonblockingPacketService) : Prop :=
  ∃ fuel, sendWith lib b fuel 0 s = some out

/-- What `Run` does with what `Send` has returned.
mirrors src/main/nonblocking_packet_service.cc:57-78 -/
def NonblockingPacketService.runOn (lib : Lib) (fds : FdSets) :
    NonblockingPacketServiceStatus × NonblockingPacketService →
    Bool × FdSets × NonblockingPacketService
  | (.error, s) => (false, fds, s.cleanUp)
  | (senderStatus, s) =>
    match NonblockingReceiver.receive lib s with
    | (.error, s) => (false, fds, s.cleanUp)
    | (receiverStatus, s) => (true, interest s.socket.fd senderStatus receiverStatus, s)

theorem run_eq (lib : Lib) (fds : FdSets) (s : NonblockingPacketService) :
    s.run lib fds = if s.failed then (false, fds, s) else runOn lib fds (send lib s) := by
  unfold NonblockingPacketService.run runOn
  split
  · rfl
  · cases send lib s with
    | mk st t => cases st <;> rfl

/-- `Run`, called in `s`, returns. -/
def Runs (lib : Lib) (b : Behaviour) (fds : FdSets) (s : NonblockingPacketService)
    (out : Bool × FdSets × NonblockingPacketService) : Prop :=
  if s.failed then out = (false, fds, s) else ∃ sent, Sends lib b s sent ∧ out = runOn lib fds sent

/-- The writer of `Send` fails, in the state `t`; the `k'`-th call comes next. -/
inductive Fails (lib : Lib) (b : Behaviour) :
    Nat → NonblockingPacketService → Nat → NonblockingPacketService → Prop
  | now {s s₁ : NonblockingPacketService} {w w' : NonblockingPacketWriter} {socket : Socket}
      {k : Nat} : startNext s = some (w, s₁) → w.write lib s₁.socket = (.failed, w', socket) →
      Fails lib b k s k { s₁ with socket, sender.currentWriter := some w' }
  | later {s s₁ t : NonblockingPacketService} {w w' : NonblockingPacketWriter} {socket : Socket}
      {k k' : Nat} : startNext s = some (w, s₁) → w.write lib s₁.socket = (.done, w', socket) →
      Fails lib b
        (finishRequestWith lib b k { s₁ with socket, sender.currentWriter := some w' }).1
        (finishRequestWith lib b k { s₁ with socket, sender.currentWriter := some w' }).2 k' t →
      Fails lib b k s k' t

variable {lib : Lib} {b : Behaviour} {s t u : NonblockingPacketService} {k k' : Nat}

/-! ## A call -/

/-- `t` is `s` once the handler of `c` has been called and `new` submitted. -/
structure Called (s : NonblockingPacketService) (c : List Completion) (new : List Request)
    (t : NonblockingPacketService) : Prop where
  queue : t.sender.requestQueue = s.sender.requestQueue ++ new
  accepted : accepted t.log = accepted s.log ++ new
  completions : completions t.log = completions s.log ++ c
  failed : t.failed = s.failed
  currentWriter : t.sender.currentWriter = s.sender.currentWriter
  handler : t.sender.handler = s.sender.handler

theorem Called.trans {c d : List Completion} {new more : List Request} (h : Called s c new t)
    (h' : Called t d more u) : Called s (c ++ d) (new ++ more) u where
  queue := by rw [h'.queue, h.queue, List.append_assoc]
  accepted := by rw [h'.accepted, h.accepted, List.append_assoc]
  completions := by rw [h'.completions, h.completions, List.append_assoc]
  failed := h'.failed.trans h.failed
  currentWriter := h'.currentWriter.trans h.currentWriter
  handler := h'.handler.trans h.handler

theorem perform_called (a : Submission) (hf : s.failed = false) :
    ∃ r, Called s [] [r] (a.perform lib s) := by
  obtain ⟨r, he, -⟩ := enqueue_spec lib a.message a.command a.value s.handlers s.nextKey s.count
  refine ⟨r, ?_⟩
  have hp : a.perform lib s =
      NonblockingSender.enqueue lib a.message a.command a.value s.handlers s.nextKey s.count := by
    simp [Submission.perform, NonblockingPacketService.submit, hf, NonblockingPacketService.count]
  rw [hp, he]
  exact ⟨rfl, by simp [accepted, NonblockingPacketService.count],
    by simp [completions, NonblockingPacketService.count], rfl, rfl, rfl⟩

/-- **One call** submits what the behaviour says. -/
theorem callWith_called (c : Completion) (hf : s.failed = false) :
    ∃ new, new.length = (b k).length ∧ Called s [c] new (callWith lib b k c s) := by
  have hsubmit : ∀ (l : List Submission) (s : NonblockingPacketService), s.failed = false →
      ∃ new, new.length = l.length ∧ Called s [] new (l.foldl (Submission.perform lib) s) := by
    intro l
    induction l with
    | nil => exact fun s _ => ⟨[], rfl, by simp, by simp, by simp, rfl, rfl, rfl⟩
    | cons a l ih =>
      intro s hf
      obtain ⟨r, h1⟩ := perform_called a hf
      obtain ⟨new, hlen, h2⟩ := ih _ (h1.failed.trans hf)
      exact ⟨r :: new, by simp [hlen], h1.trans h2⟩
  have h0 : Called s [c] [] (s.emit (.completed c)) :=
    ⟨by simp, by simp [accepted], by simp [completions], rfl, rfl, rfl⟩
  obtain ⟨new, hlen, h1⟩ := hsubmit (b k) (s.emit (.completed c)) hf
  exact ⟨new, hlen, h0.trans h1⟩

theorem errorCurrentWith_called (status : KineticStatus) (hf : s.failed = false) {x : Nat}
    (hx : s.sender.handler = some x) :
    ∃ new, new.length = (b k).length ∧
      Called s [.error x status none] new (errorCurrentWith lib b status k s).2 := by
  simp only [errorCurrentWith, hx]
  exact callWith_called _ hf

/-! ## The queue is drained -/

def Behaviour.submits (b : Behaviour) (k : Nat) : Nat := (b k).length

theorem failNext_called (status : KineticStatus) (hf : s.failed = false) {r : Request}
    {rest : List Request} (hq : s.sender.requestQueue = r :: rest) :
    ∃ new, new.length = b.submits k ∧
      Called { s with sender.requestQueue := rest } [.error r.handler status none] new
        (failNext lib b status k s) := by
  simp only [failNext, hq]
  exact callWith_called _ hf

/-- **The loop ends** if and only if the calls catch up with what they submit. -/
theorem failQueueWith_iff (status : KineticStatus) (hf : s.failed = false) :
    (∃ fuel u, failQueueWith lib b status fuel k s = some u) ↔
      CatchesUp b.submits k s.sender.requestQueue.length := by
  have hcons : ∀ s : NonblockingPacketService, s.sender.requestQueue.length ≠ 0 →
      ∃ r rest, s.sender.requestQueue = r :: rest := fun s hn =>
    List.exists_cons_of_ne_nil fun h => hn (by rw [h]; rfl)
  refine drain_iff (P := fun s => s.failed = false) (fun k s hf hn => ?_) (fun k s hf hn => ?_) hf
  all_goals
    obtain ⟨r, rest, hq⟩ := hcons s hn
    obtain ⟨new, hlen, hc⟩ := failNext_called (b := b) (k := k) status hf hq
  · exact hc.failed.trans hf
  · rw [hc.queue, hq, ← hlen, List.length_append, List.length_cons]
    dsimp only
    omega

/-- Since the write failed in `t`, with `x` the current handler: of it, of the
requests queued then and of those submitted since, a first part has been called
and the rest is queued. -/
structure Failing (t : NonblockingPacketService) (x : Nat) (new : List Request)
    (u : NonblockingPacketService) : Prop where
  failed : u.failed = false
  accepted : accepted u.log = accepted t.log ++ new
  called : ∃ done, completions u.log =
      completions t.log ++ done.map (fun h => Completion.error h writeError none) ∧
    x :: (t.sender.requestQueue ++ new).map (·.handler) =
      done ++ u.sender.requestQueue.map (·.handler)

/-- The current handler is called first. -/
theorem failing_start (hf : t.failed = false) (x : Nat) :
    ∃ new, new.length = b.submits k ∧
      Failing t x new (resetHandler (callWith lib b k (.error x writeError none) t)) ∧
      (resetHandler (callWith lib b k (.error x writeError none) t)).sender.requestQueue =
        t.sender.requestQueue ++ new := by
  obtain ⟨new, hlen, hc⟩ :=
    callWith_called (b := b) (k := k) (.error x writeError none) hf
  refine ⟨new, hlen, ⟨hc.failed.trans hf, hc.accepted, [x], hc.completions, ?_⟩, hc.queue⟩
  rw [show (resetHandler _).sender.requestQueue = _ from hc.queue]
  rfl

/-- Then the first of the queue, in each turn. -/
theorem Failing.next {x : Nat} {new : List Request} (h : Failing t x new s)
    (hn : s.sender.requestQueue.length ≠ 0) :
    ∃ new, Failing t x new (failNext lib b writeError k s) := by
  obtain ⟨r, rest, hq⟩ : ∃ r rest, s.sender.requestQueue = r :: rest :=
    List.exists_cons_of_ne_nil fun h => hn (by rw [h]; rfl)
  obtain ⟨more, -, hc⟩ := failNext_called (b := b) (k := k) writeError h.failed hq
  obtain ⟨done, hdone, hall⟩ := h.called
  refine ⟨new ++ more, hc.failed.trans h.failed, ?_, done ++ [r.handler], ?_, ?_⟩
  · rw [hc.accepted, ← List.append_assoc, ← h.accepted]
  · rw [hc.completions, hdone, List.map_append, List.append_assoc]
    rfl
  · rw [hc.queue, ← List.append_assoc, List.map_append, ← List.cons_append, hall, hq]
    simp

/-- What `Send` should have done once the writer has failed in `t`: everything
queued has been called, the current handler first, with the error. -/
structure AllFailed (t : NonblockingPacketService) (x : Nat) (u : NonblockingPacketService) :
    Prop where
  queue : u.sender.requestQueue = []
  called : ∃ new, accepted u.log = accepted t.log ++ new ∧
    completions u.log = completions t.log ++
      (x :: (t.sender.requestQueue ++ new).map (·.handler)).map
        (fun h => Completion.error h writeError none)

theorem writeFailedWith_iff (hf : t.failed = false) {x : Nat} (hx : t.sender.handler = some x) :
    (∃ fuel u, writeFailedWith lib b fuel k t = some u) ↔
      CatchesUp b.submits k (t.sender.requestQueue.length + 1) := by
  obtain ⟨new, hlen, hfail, hq⟩ := failing_start (b := b) (k := k) hf x
  simp only [writeFailedWith, errorCurrentWith, hx]
  rw [failQueueWith_iff _ hfail.failed, hq, List.length_append, hlen, catchesUp_succ]

theorem writeFailedWith_allFailed (hf : t.failed = false) {x : Nat}
    (hx : t.sender.handler = some x) {fuel : Nat}
    (h : writeFailedWith lib b fuel k t = some u) : AllFailed t x u := by
  obtain ⟨new, -, hfail, -⟩ := failing_start (b := b) (k := k) hf x
  simp only [writeFailedWith, errorCurrentWith, hx] at h
  obtain ⟨⟨new, hu⟩, h0⟩ := drain_ends (P := fun u => ∃ new, Failing t x new u)
    (fun k s ⟨_, hs⟩ hn => hs.next hn) h ⟨new, hfail⟩
  obtain ⟨done, hdone, hall⟩ := hu.called
  have hnil := List.length_eq_zero_iff.1 h0
  rw [hnil, List.map_nil, List.append_nil] at hall
  exact ⟨hnil, new, hu.accepted, by rw [hdone, hall]⟩

/-! ## With finitely many scripts -/

def Submission.action (a : Submission) : Action := .submit a.message a.command a.value

/-- The scripts of the `n` calls from the `k`-th on. -/
def Behaviour.scripts (b : Behaviour) (k n : Nat) : List (List Action) :=
  (List.range n).map fun i => (b (k + i)).map Submission.action

theorem Behaviour.scripts_succ (b : Behaviour) (k n : Nat) :
    b.scripts k (n + 1) = (b k).map Submission.action :: b.scripts (k + 1) n := by
  unfold Behaviour.scripts
  rw [List.range_succ_eq_map, List.map_cons, List.map_map]
  congr 1
  exact List.map_congr_left fun i _ => by
    rw [Function.comp_apply, Nat.succ_eq_add_one, Nat.add_assoc, Nat.add_comm 1 i]

variable (lib) in
theorem perform_next (a : Submission) (hf : s.failed = false) :
    (a.perform lib s).sender.sequenceNumber = s.sender.sequenceNumber + 1 ∧
      (a.perform lib s).failed = false := by
  simp [Submission.perform, NonblockingPacketService.submit, NonblockingSender.enqueue, hf]

variable (lib) in
theorem performs_mono (l : List Submission) (hf : s.failed = false) :
    s.sender.sequenceNumber ≤ (l.foldl (Submission.perform lib) s).sender.sequenceNumber := by
  induction l generalizing s with
  | nil => exact Int.le_refl _
  | cons a l ih =>
    obtain ⟨h1, h2⟩ := perform_next lib a hf
    have := ih h2
    rw [h1] at this
    rw [List.foldl_cons]
    omega

/-- Where the sequence numbers last, a script does what the behaviour says. -/
theorem performs_eq {call : Completion → NonblockingPacketService → NonblockingPacketService}
    (l : List Submission) (scripts : List (List Action)) (hf : s.failed = false)
    (hroom : (l.foldl (Submission.perform lib) s).sender.sequenceNumber < 2 ^ 63) :
    (l.map Submission.action).foldl (fun s a => a.perform lib call s) { s with scripts } =
      { l.foldl (Submission.perform lib) s with scripts } := by
  induction l generalizing s with
  | nil => rfl
  | cons a l ih =>
    obtain ⟨h1, h2⟩ := perform_next lib a hf
    rw [List.foldl_cons] at hroom
    have hdef : NonblockingPacketService.submitDefined { s with scripts } = true := by
      have := performs_mono lib l h2
      simp only [submitDefined, Bool.or_eq_true, decide_eq_true_eq]
      exact .inr (by omega)
    have hone : a.action.perform lib call { s with scripts } = { a.perform lib s with scripts } := by
      simp only [Submission.action, Action.perform, hdef, if_true]
      simp [Submission.perform, NonblockingPacketService.submit, hf, NonblockingSender.enqueue]
    rw [List.map_cons, List.foldl_cons, List.foldl_cons, hone]
    exact ih h2 hroom

theorem callWith_mono (c : Completion) (hf : s.failed = false) :
    s.sender.sequenceNumber ≤ (callWith lib b k c s).sender.sequenceNumber :=
  performs_mono lib (s := s.emit (.completed c)) (b k) hf

theorem failQueueWith_mono (status : KineticStatus) {fuel : Nat} (hf : s.failed = false)
    (h : failQueueWith lib b status fuel k s = some u) :
    s.sender.sequenceNumber ≤ u.sender.sequenceNumber := by
  refine (drain_ends (P := fun u => u.failed = false ∧
    s.sender.sequenceNumber ≤ u.sender.sequenceNumber) (fun k u ⟨hf, hle⟩ hn => ?_) h
    ⟨hf, Int.le_refl _⟩).1.2
  obtain ⟨r, rest, hq⟩ : ∃ r rest, u.sender.requestQueue = r :: rest :=
    List.exists_cons_of_ne_nil fun h => hn (by rw [h]; rfl)
  obtain ⟨new, -, hc⟩ := failNext_called (b := b) (k := k) status hf hq
  refine ⟨hc.failed.trans hf, Int.le_trans hle ?_⟩
  simp only [failNext, hq]
  exact callWith_mono (s := { u with sender.requestQueue := rest }) _ hf

theorem complete_callWith (c : Completion) (n : Nat) (hf : s.failed = false)
    (hroom : (callWith lib b k c s).sender.sequenceNumber < 2 ^ 63) :
    complete lib c { s with scripts := b.scripts k (n + 1) } =
      { callWith lib b k c s with scripts := b.scripts (k + 1) n } := by
  rw [Behaviour.scripts_succ]
  exact performs_eq (s := s.emit (.completed c)) (b k) (b.scripts (k + 1) n) hf hroom

/-- Any fuel that is no less than the work gives the same. -/
theorem failQueue_fuel (status : KineticStatus) (f g : Nat) (hf : s.work ≤ f) (hg : s.work ≤ g) :
    failQueue lib status f s = failQueue lib status g s := by
  have hnil : ∀ n (u : NonblockingPacketService), u.sender.requestQueue = [] →
      failQueue lib status n u = u := by
    intro n u hu
    cases n <;> simp [failQueue, hu]
  induction f generalizing g s with
  | zero =>
    have hq : s.sender.requestQueue = [] := by
      rw [← List.length_eq_zero_iff]
      unfold NonblockingPacketService.work at hf
      omega
    rw [hnil _ _ hq, hnil _ _ hq]
  | succ f ih =>
    cases hq : s.sender.requestQueue with
    | nil => rw [hnil _ _ hq, hnil _ _ hq]
    | cons r rest =>
      have hw := complete_work lib (.error r.handler status none)
        { s with sender.requestQueue := rest }
      have hpop : s.work = { s with sender.requestQueue := rest }.work + 1 := by
        simp only [NonblockingPacketService.work, NonblockingPacketService.pendingActions, hq,
          List.length_cons]
        omega
      obtain ⟨g, rfl⟩ : ∃ m, g = m + 1 := ⟨g - 1, by omega⟩
      simp only [failQueue, hq]
      exact ih g (Nat.le_trans hw (by omega)) (Nat.le_trans hw (by omega))

/-- **The loop that ends** is the loop over finitely many scripts, if there are
enough of them and the sequence numbers last. -/
theorem failQueueWith_eq (status : KineticStatus) {fuel : Nat} (hf : s.failed = false)
    (h : failQueueWith lib b status fuel k s = some u)
    (hroom : u.sender.sequenceNumber < 2 ^ 63) :
    ∃ j, ∀ n g, j ≤ n → j ≤ g →
      failQueue lib status g { s with scripts := b.scripts k n } =
        { u with scripts := b.scripts (k + j) (n - j) } := by
  induction fuel generalizing k s with
  | zero => cases h
  | succ fuel ih =>
    unfold failQueueWith drain at h
    split at h
    · rename_i h0
      obtain rfl := Option.some.inj h
      refine ⟨0, fun n g _ _ => ?_⟩
      have hq := List.length_eq_zero_iff.1 h0
      cases g <;> simp [failQueue, hq]
    · rename_i h0
      obtain ⟨r, rest, hq⟩ : ∃ r rest, s.sender.requestQueue = r :: rest :=
        List.exists_cons_of_ne_nil fun h => h0 (by rw [h]; rfl)
      have hnext : failNext lib b status k s =
          callWith lib b k (.error r.handler status none) { s with sender.requestQueue := rest } := by
        simp only [failNext, hq]
      have hf' : ({ s with sender.requestQueue := rest } : NonblockingPacketService).failed =
          false := hf
      obtain ⟨_, -, hc⟩ : ∃ new, new.length = (b k).length ∧
          Called { s with sender.requestQueue := rest } [.error r.handler status none] new
            (callWith lib b k (.error r.handler status none)
              { s with sender.requestQueue := rest }) := callWith_called _ hf'
      rw [hnext] at h
      obtain ⟨j, hj⟩ := ih (hc.failed.trans hf) h
      have hmono := failQueueWith_mono status (hc.failed.trans hf) h
      refine ⟨j + 1, fun n g hn hg => ?_⟩
      obtain ⟨n, rfl⟩ : ∃ m, n = m + 1 := ⟨n - 1, by omega⟩
      obtain ⟨g, rfl⟩ : ∃ m, g = m + 1 := ⟨g - 1, by omega⟩
      have hone : complete lib (.error r.handler status none)
          { s with sender.requestQueue := rest, scripts := b.scripts k (n + 1) } =
          { callWith lib b k (.error r.handler status none) { s with sender.requestQueue := rest } with
            scripts := b.scripts (k + 1) n } :=
        complete_callWith _ n hf' (by omega)
      simp only [failQueue, hq]
      rw [show complete lib _ _ = _ from hone, hj n g (by omega) (by omega)]
      rw [show k + (j + 1) = k + 1 + j by omega, show n + 1 - (j + 1) = n - j by omega]

/-- **The main model** does the same about a write failure. -/
theorem writeFailedWith_eq {fuel x : Nat} (hf : t.failed = false) (hx : t.sender.handler = some x)
    (h : writeFailedWith lib b fuel k t = some u) (hroom : u.sender.sequenceNumber < 2 ^ 63) :
    ∃ j, ∀ n, j ≤ n → writeFailed lib { t with scripts := b.scripts k n } =
      { u with scripts := b.scripts (k + j) (n - j) } := by
  simp only [writeFailedWith, errorCurrentWith, hx] at h
  obtain ⟨_, -, hc⟩ :=
    callWith_called (b := b) (k := k) (.error x writeError none) hf
  have hf' : (resetHandler (callWith lib b k (.error x writeError none) t)).failed = false :=
    hc.failed.trans hf
  obtain ⟨j, hj⟩ := failQueueWith_eq writeError hf' h hroom
  have hmono := failQueueWith_mono writeError hf' h
  refine ⟨j + 1, fun n hn => ?_⟩
  obtain ⟨n, rfl⟩ : ∃ m, n = m + 1 := ⟨n - 1, by omega⟩
  have hone := complete_callWith (b := b) (k := k) (.error x writeError none) n hf
    (Int.lt_of_le_of_lt hmono hroom)
  have hfail : writeFailed lib { t with scripts := b.scripts k (n + 1) } =
      failQueue lib writeError
        (resetHandler (complete lib (.error x writeError none)
          { t with scripts := b.scripts k (n + 1) })).work
        (resetHandler (complete lib (.error x writeError none)
          { t with scripts := b.scripts k (n + 1) })) := by
    unfold writeFailed errorCurrent
    simp only [hx]
    rfl
  rw [hfail, hone, failQueue_fuel _ _ (j + _) (Nat.le_refl _) (Nat.le_add_left _ j)]
  refine (hj n _ (by omega) (by omega)).trans ?_
  rw [show k + (j + 1) = k + 1 + j by omega, show n + 1 - (j + 1) = n - j by omega]

/-! ## The whole of Send -/

theorem startNext_handler (hp : Paired s) {w : NonblockingPacketWriter}
    (h : startNext s = some (w, t)) :
    (∃ x, t.sender.handler = some x) ∧ t.failed = s.failed := by
  unfold startNext at h
  split at h
  · rename_i w' hw
    cases h
    refine ⟨Option.ne_none_iff_exists'.1 fun hn => ?_, rfl⟩
    rw [hp.2 hn] at hw
    cases hw
  · split at h <;> cases h
    exact ⟨⟨_, rfl⟩, rfl⟩

theorem finishRequestWith_paired {x : Nat} (hf : s.failed = false)
    (hx : s.sender.handler = some x) :
    Paired (finishRequestWith lib b k s).2 ∧ (finishRequestWith lib b k s).2.failed = false := by
  unfold finishRequestWith
  dsimp only
  split
  · rename_i hn
    rw [hx] at hn; cases hn
  rename_i y hy
  split
  · exact ⟨by simp [Paired, resetHandler], hf⟩
  · rename_i receiver _
    obtain ⟨new, -, hc⟩ := errorCurrentWith_called (b := b) (k := k)
      (s := { NonblockingPacketService.emit { s with sender.currentWriter := none } (.written y) with
        receiver })
      ⟨.clientInternalError, "Could not enqueue handler", 0⟩ hf hy
    refine ⟨?_, hc.failed.trans hf⟩
    have hw := hc.currentWriter
    simp only [Paired, resetHandler]
    exact ⟨fun _ => trivial, fun _ => hw⟩

namespace Fails

/-- When the writer fails, its request's handler is the current one. -/
theorem current (h : Fails lib b k s k' t) (hp : Paired s) (hf : s.failed = false) :
    (∃ x, t.sender.handler = some x) ∧ t.failed = false := by
  induction h with
  | now hn _ =>
    obtain ⟨hx, hs⟩ := startNext_handler hp hn
    exact ⟨hx, hs.trans hf⟩
  | @later s s₁ t w w' socket k k' hn hw _ ih =>
    obtain ⟨⟨x, hx⟩, hs⟩ := startNext_handler hp hn
    obtain ⟨h1, h2⟩ := finishRequestWith_paired (b := b) (k := k)
      (s := { s₁ with socket, sender.currentWriter := some w' }) (hs.trans hf) hx
    exact ih h1 h2

/-- From then on, `Send` is what is done about the failure. -/
theorem sends_iff (h : Fails lib b k s k' t)
    (out : NonblockingPacketServiceStatus × NonblockingPacketService) :
    (∃ fuel, sendWith lib b fuel k s = some out) ↔
      ∃ fuel u, writeFailedWith lib b fuel k' t = some u ∧ out = (.error, u) := by
  induction h with
  | now hn hw =>
    constructor
    · rintro ⟨_ | fuel, h⟩
      · cases h
      simp only [sendWith, hn, hw] at h
      obtain ⟨u, hu, ho⟩ := Option.map_eq_some_iff.1 h
      exact ⟨fuel, u, hu, ho.symm⟩
    · rintro ⟨fuel, u, hu, rfl⟩
      exact ⟨fuel + 1, by simp only [sendWith, hn, hw, hu, Option.map_some]⟩
  | later hn hw _ ih =>
    rw [← ih]
    constructor
    · rintro ⟨_ | fuel, h⟩
      · cases h
      simp only [sendWith, hn, hw] at h
      exact ⟨fuel, h⟩
    · rintro ⟨fuel, h⟩
      exact ⟨fuel + 1, by simp only [sendWith, hn, hw]; exact h⟩

/-- `Send` returns if and only if the calls catch up. -/
theorem returns_iff (h : Fails lib b 0 s k t) (hp : Paired s) (hf : s.failed = false) :
    (∃ out, Sends lib b s out) ↔ CatchesUp b.submits k (t.sender.requestQueue.length + 1) := by
  obtain ⟨⟨x, hx⟩, hf'⟩ := h.current hp hf
  rw [← writeFailedWith_iff hf' hx]
  constructor
  · rintro ⟨out, hs⟩
    obtain ⟨fuel, u, hu, -⟩ := (h.sends_iff out).1 hs
    exact ⟨fuel, u, hu⟩
  · rintro ⟨fuel, u, hu⟩
    exact ⟨(.error, u), (h.sends_iff _).2 ⟨fuel, u, hu, rfl⟩⟩

theorem allFailed (h : Fails lib b 0 s k t) (hp : Paired s) (hf : s.failed = false)
    {out : NonblockingPacketServiceStatus × NonblockingPacketService} (hs : Sends lib b s out) :
    out.1 = .error ∧ ∃ x, t.sender.handler = some x ∧ AllFailed t x out.2 := by
  obtain ⟨⟨x, hx⟩, hf'⟩ := h.current hp hf
  obtain ⟨fuel, u, hu, rfl⟩ := (h.sends_iff out).1 hs
  exact ⟨rfl, x, hx, writeFailedWith_allFailed hf' hx hu⟩

end Fails

/-- **A write failure is handled** as it should be if and only if, from it on,
the calls catch up with what they submit. Then the handler of the request being
written is called once, and so is that of every request queued at that moment or
submitted since; `Send` returns `kError` and `Run` returns false. -/
theorem write_failure_iff (h : (service lib).Reachable s) (hf : s.failed = false) {io : Io}
    (hfail : Fails lib b 0 (s.supply io) k t) :
    (∃ u x, t.sender.handler = some x ∧ AllFailed t x u ∧ Sends lib b (s.supply io) (.error, u) ∧
      ∀ fds, Runs lib b fds (s.supply io) (false, fds, u.cleanUp)) ↔
    CatchesUp b.submits k (t.sender.requestQueue.length + 1) := by
  have hp : Paired (s.supply io) := (supply_steady io (steady h)).2.paired hf
  rw [← hfail.returns_iff hp hf]
  constructor
  · rintro ⟨u, -, -, -, hs, -⟩
    exact ⟨_, hs⟩
  · rintro ⟨⟨st, u⟩, hs⟩
    obtain ⟨rfl, x, hx, hall⟩ := hfail.allFailed hp hf hs
    refine ⟨u, x, hx, hall, hs, fun fds => ?_⟩
    have hf' : (s.supply io).failed = false := hf
    rw [Runs, hf', if_neg (by simp)]
    exact ⟨(.error, u), hs, rfl⟩

/-- One request is queued, and its writer fails. -/
def toFail : NonblockingPacketService :=
  (play Codec.plain (create 5 1 [] 0) [.submit [] {} {} []]).supply { writes := [.error] }

/-- The first write fails, with nothing left in the queue. -/
theorem toFail_fails (b : Behaviour) :
    ∃ t, Fails Codec.plain b 0 toFail 0 t ∧ t.sender.requestQueue.length = 0 := by
  have h : (match startNext toFail with
      | some (w, s) => decide ((w.write Codec.plain s.socket).1 = .failed ∧
          s.sender.requestQueue.length = 0)
      | none => false) = true := by decide +kernel
  split at h
  · rename_i w s hs
    obtain ⟨hw, hq⟩ := of_decide_eq_true h
    exact ⟨_, .now hs (Prod.ext hw rfl), hq⟩
  · cases h

theorem toFail_reachable :
    (service Codec.plain).Reachable (play Codec.plain (create 5 1 [] 0) [.submit [] {} {} []]) :=
  reachable_session _ (by decide +kernel)

/-- Every callback submits one request. -/
def retrying : Behaviour := fun _ => [⟨{}, {}, []⟩]

/-- A callback that always retries its request: `Send` never returns, and so
`Run` does not. -/
theorem retry_forever :
    (service Codec.plain).Reachable (play Codec.plain (create 5 1 [] 0) [.submit [] {} {} []]) ∧
    (∃ t, Fails Codec.plain retrying 0 toFail 0 t) ∧
    (¬ ∃ out, Sends Codec.plain retrying toFail out) ∧
    ∀ fds, ¬ ∃ out, Runs Codec.plain retrying fds toFail out := by
  obtain ⟨t, hfail, -⟩ := toFail_fails retrying
  have hp : Paired toFail := (supply_steady _ (steady toFail_reachable)).2.paired rfl
  have hno : ¬ ∃ out, Sends Codec.plain retrying toFail out := by
    rw [hfail.returns_iff hp rfl]
    exact not_catchesUp (fun _ => Nat.le_refl 1) (Nat.succ_pos _)
  refine ⟨toFail_reachable, ⟨t, hfail⟩, hno, fun fds => ?_⟩
  rintro ⟨out, hr⟩
  rw [Runs, show toFail.failed = false from rfl, if_neg (by simp)] at hr
  obtain ⟨sent, hs, -⟩ := hr
  exact hno ⟨sent, hs⟩

/-- The first call submits two requests, the second one more. -/
def tiring : Behaviour
  | 0 => [⟨{}, {}, []⟩, ⟨{}, {}, [1]⟩]
  | 1 => [⟨{}, {}, [2]⟩]
  | _ => []

theorem write_failure_iff_tiring :
    ∃ t u x, Fails Codec.plain tiring 0 toFail 0 t ∧ AllFailed t x u ∧
      Sends Codec.plain tiring toFail (.error, u) := by
  obtain ⟨t, hfail, hq⟩ := toFail_fails tiring
  obtain ⟨u, x, -, hall, hs, -⟩ := (write_failure_iff toFail_reachable rfl hfail).2
    ⟨4, by rw [hq]; decide⟩
  exact ⟨t, u, x, hfail, hall, hs⟩

end Kinetic.L2
