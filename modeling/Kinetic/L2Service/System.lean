import Kinetic.Core.LTS
import Kinetic.L2Service.Moves

/-!
# Runs of the service

The service between the caller's operations: `Submit`, `Remove` and `Run` in any
order, with any transport, any bytes from the device and any callbacks. In every
reachable state the invariant of the moves holds and nothing is half done
(`steady`); destruction empties the queue and the receiver (`destroy_moves`).

An operation is made where it is defined (`Op.Defined`): `Submit` increments a
sequence number that is an `int64_t`, and `Run` enters its descriptor into sets that
hold those below `FD_SETSIZE`.
-/
open Kinetic.Core

namespace Kinetic.L2

open L1 NonblockingPacketService

/-- What the environment does in one `Run`: the answers of the transport, the
bytes that arrive, and what the callbacks do. -/
structure Io where
  fstats : List Bool := []
  writes : List IoResult := []
  arrives : Bytes := []
  reads : List IoResult := []
  scripts : List (List Action) := []

def NonblockingPacketService.supply (io : Io) (s : NonblockingPacketService) :
    NonblockingPacketService :=
  { s with
    socket := { s.socket with
      fstats := io.fstats
      writes := io.writes
      reads := io.reads
      incoming := s.socket.incoming ++ io.arrives }
    scripts := io.scripts }

/-- One operation of the caller. A `Submit` on a failed service calls the
handler, so it too comes with scripts. -/
inductive Op where
  | submit (scripts : List (List Action)) (message : Message) (command : Command) (value : Bytes)
  | remove (key : Nat)
  | run (io : Io) (fds : FdSets)

def Op.apply (lib : Lib) (s : NonblockingPacketService) : Op → NonblockingPacketService
  | .submit scripts m c v =>
    (NonblockingPacketService.submit lib (complete lib) m c v { s with scripts }).2
  | .remove key => (s.remove key).2
  | .run io fds => ((s.supply io).run lib fds).2.2

/-- The operation is defined (`submitDefined`, `runDefined`). -/
def Op.Defined (lib : Lib) (s : NonblockingPacketService) : Op → Prop
  | .submit _ _ _ _ => s.submitDefined = true
  | .remove _ => True
  | .run io _ => (s.supply io).runDefined lib = true

/-- A service just constructed, on a receiver that has completed its
handshake. -/
structure Fresh (s : NonblockingPacketService) : Prop where
  sequenceNumber : s.sender.sequenceNumber = 0
  currentWriter : s.sender.currentWriter = none
  senderHandler : s.sender.handler = none
  requestQueue : s.sender.requestQueue = []
  nonblockingResponse : s.receiver.nonblockingResponse = none
  receiverHandler : s.receiver.handler = none
  map : s.receiver.map = ∅
  back : s.receiver.handlerToMessageSeqMap = ∅
  failed : s.failed = false
  nextKey : s.nextKey = 0
  handlers : s.handlers = 0
  log : s.log = []
  sent : s.socket.sent = []

/-- The three constructors, the receiver's without its handshake
(src/main/nonblocking_packet_sender.cc:28-41,
src/main/nonblocking_packet_service.cc:28-33). -/
def NonblockingPacketService.create (fd : Nat) (userId : Int) (hmacKey : Bytes)
    (connectionId : Int) : NonblockingPacketService where
  socket := .opened fd
  sender := ⟨userId, hmacKey, 0, 0, none, none, [], 0⟩
  receiver := ⟨hmacKey, none, connectionId, none, {}, {}, none, ∅, ∅⟩
  failed := false
  nextKey := 0
  scripts := []
  handlers := 0
  log := []

theorem create_fresh (fd : Nat) (userId : Int) (hmacKey : Bytes) (connectionId : Int) :
    Fresh (create fd userId hmacKey connectionId) :=
  ⟨rfl, rfl, rfl, rfl, rfl, rfl, rfl, rfl, rfl, rfl, rfl, rfl, rfl⟩

def service (lib : Lib) : LTS NonblockingPacketService Op where
  init := Fresh
  step s op t := op.Defined lib s ∧ t = op.apply lib s

/-! ## Sessions -/

def play (lib : Lib) (s : NonblockingPacketService) (ops : List Op) : NonblockingPacketService :=
  ops.foldl (Op.apply lib) s

def Legal (lib : Lib) (s : NonblockingPacketService) : List Op → Prop
  | [] => True
  | op :: ops => op.Defined lib s ∧ Legal lib (op.apply lib s) ops

instance (lib : Lib) (s : NonblockingPacketService) (op : Op) : Decidable (op.Defined lib s) :=
  match op with
  | .submit _ _ _ _ => inferInstanceAs (Decidable (s.submitDefined = true))
  | .remove _ => .isTrue trivial
  | .run io _ => inferInstanceAs (Decidable ((s.supply io).runDefined lib = true))

instance decidableLegal (lib : Lib) (ops : List Op) :
    (s : NonblockingPacketService) → Decidable (Legal lib s ops) :=
  match ops with
  | [] => fun _ => .isTrue trivial
  | op :: ops => fun s =>
    have := decidableLegal lib ops (op.apply lib s)
    inferInstanceAs (Decidable (op.Defined lib s ∧ Legal lib (op.apply lib s) ops))

theorem reachable_play {lib : Lib} {s : NonblockingPacketService} (ops : List Op)
    (h : (service lib).Reachable s) (hl : Legal lib s ops) :
    (service lib).Reachable (play lib s ops) := by
  induction ops generalizing s with
  | nil => exact h
  | cons op ops ih => exact ih (h.step ⟨hl.1, rfl⟩) hl.2

theorem reachable_session {lib : Lib} {fd : Nat} {userId : Int} {hmacKey : Bytes}
    {connectionId : Int} (ops : List Op) (hl : Legal lib (create fd userId hmacKey connectionId) ops) :
    (service lib).Reachable (play lib (create fd userId hmacKey connectionId) ops) :=
  reachable_play ops ⟨_, [], create_fresh .., .nil _⟩ hl

/-! ## The invariant -/

variable {lib : Lib} {s t : NonblockingPacketService}

/-- What holds between two operations. -/
structure Steady (lib : Lib) (s : NonblockingPacketService) : Prop where
  inv : Inv s
  quiet : Quiet s
  paired : s.failed = false → Paired s
  reading : s.failed = false → Reading lib s

theorem Fresh.inv (h : Fresh s) : Inv s := by
  have hheld : held s = [] := by
    simp [held, h.requestQueue, h.senderHandler, h.map]
  refine ⟨by rw [h.sequenceNumber, h.handlers]; decide, Int.le_of_eq h.sequenceNumber.symm,
    by rw [h.sequenceNumber]; decide,
    fun _ => by rw [h.sequenceNumber, h.handlers, h.nextKey]; exact ⟨rfl, rfl⟩,
    by rw [h.log]; simp [issued], by rw [h.requestQueue]; simp, by rw [h.requestQueue]; simp,
    by rw [h.senderHandler]; simp, by rw [h.map]; simp, by rw [h.back]; simp, by rw [h.map]; simp, ?_⟩
  rw [hheld, h.log]; exact .empty

theorem Fresh.steady (h : Fresh s) : Steady lib s := by
  refine ⟨h.inv, ⟨h.receiverHandler, by rw [h.map]; simp, by rw [h.senderHandler]; simp⟩, fun _ => ?_,
    fun _ r hr => ?_⟩
  · simp [Paired, h.currentWriter, h.senderHandler]
  · rw [h.nonblockingResponse] at hr; cases hr

/-! ## Operations keep it -/

theorem Moves.steady (hm : Moves lib s t) (h : Steady lib s) : Steady lib t := by
  have hs := hm.settles h.inv h.quiet
  refine ⟨hs.inv, hs.quiet, fun hf => ?_, fun hf r hr => ?_⟩
  · rw [Paired, hm.frame.currentWriter, hm.frame.handler]
    exact h.paired (by rw [← hm.frame.failed]; exact hf)
  · rw [hm.frame.receiver] at hr
    exact pending_congr (h.reading (by rw [← hm.frame.failed]; exact hf) r hr) rfl

theorem supply_steady (io : Io) (h : Steady lib s) :
    Steps lib s (s.supply io) ∧ Steady lib (s.supply io) := by
  have hstep : Step lib s (s.supply io) := .environment (s := s) _ io.scripts rfl
  refine ⟨.single hstep, h.inv.step hstep, ⟨h.quiet.receiver, h.quiet.awaiting, h.quiet.current⟩,
    h.paired, fun hf r hr => pending_congr (h.reading hf r hr) rfl⟩

theorem scripts_steady (scripts : List (List Action)) (h : Steady lib s) :
    Steps lib s { s with scripts } ∧ Steady lib { s with scripts } := by
  have hstep : Step lib s { s with scripts } := .environment (s := s) s.socket scripts rfl
  refine ⟨.single hstep, h.inv.step hstep, ⟨h.quiet.receiver, h.quiet.awaiting, h.quiet.current⟩,
    h.paired, h.reading⟩

theorem cleanUp_settles (h : Settles lib s t) : Settles lib s t.cleanUp :=
  ⟨h.steps.tail .cleanUp, h.inv.step (.cleanUp : Step lib t t.cleanUp),
    h.quiet.receiver, h.quiet.awaiting, h.quiet.current⟩

/-- **Run** makes moves only. Its three ways out: a failed `Send`, a failed
`Receive`, or neither. -/
theorem run_cases (hf : s.failed = false) (fds : FdSets) :
    ((NonblockingSender.send lib s).1 = .error ∧
      s.run lib fds = (false, fds, (NonblockingSender.send lib s).2.cleanUp)) ∨
    ((NonblockingSender.send lib s).1 ≠ .error ∧
      (NonblockingReceiver.receive lib (NonblockingSender.send lib s).2).1 = .error ∧
      s.run lib fds =
        (false, fds, (NonblockingReceiver.receive lib (NonblockingSender.send lib s).2).2.cleanUp)) ∨
    ((NonblockingSender.send lib s).1 ≠ .error ∧
      (NonblockingReceiver.receive lib (NonblockingSender.send lib s).2).1 ≠ .error ∧
      s.run lib fds = (true,
        interest (NonblockingReceiver.receive lib (NonblockingSender.send lib s).2).2.socket.fd
          (NonblockingSender.send lib s).1
          (NonblockingReceiver.receive lib (NonblockingSender.send lib s).2).1,
        (NonblockingReceiver.receive lib (NonblockingSender.send lib s).2).2)) := by
  unfold NonblockingPacketService.run
  simp only [hf, Bool.false_eq_true, if_false]
  cases hs : NonblockingSender.send lib s with
  | mk st s₁ =>
  dsimp only
  cases hr : NonblockingReceiver.receive lib s₁ with
  | mk rt s₂ =>
  cases st <;> cases rt <;> simp [hr]

theorem sendReceive_moves (h : Steady lib s) (hf : s.failed = false) :
    let u := (NonblockingSender.send lib s).2
    Settles lib s u ∧ SendFrame s u ∧ SendEnds (NonblockingSender.send lib s).1 u ∧
      Reading lib u ∧
      Settles lib u (NonblockingReceiver.receive lib u).2 ∧
      ReceiveFrame u (NonblockingReceiver.receive lib u).2 ∧
      ReceiveEnds lib (NonblockingReceiver.receive lib u).1 (NonblockingReceiver.receive lib u).2 := by
  obtain ⟨a, b, c⟩ := send_moves h.inv h.quiet (h.paired hf) hf
  have hrd : Reading lib (NonblockingSender.send lib s).2 := by
    intro r hr
    rw [b.receiver] at hr
    exact pending_congr (h.reading hf r hr) rfl
  obtain ⟨a', b', c'⟩ := receive_moves a.inv a.quiet hrd
  exact ⟨a, b, c, hrd, a', b', c'⟩

theorem run_steady (h : Steady lib s) (fds : FdSets) :
    Steps lib s (s.run lib fds).2.2 ∧ Steady lib (s.run lib fds).2.2 := by
  cases hf : s.failed with
  | true =>
    have : s.run lib fds = (false, fds, s) := by
      simp [NonblockingPacketService.run, hf]
    rw [this]; exact ⟨.refl, h⟩
  | false =>
    obtain ⟨a, b, c, -, a', b', c'⟩ := sendReceive_moves h hf
    rcases run_cases hf fds with ⟨-, he⟩ | ⟨-, -, he⟩ | ⟨h1, h2, he⟩
    · rw [he]
      have := cleanUp_settles a
      exact ⟨this.steps, this.inv, this.quiet, fun hf => (by cases hf), fun hf => (by cases hf)⟩
    · rw [he]
      have := cleanUp_settles (a'.after a.steps)
      exact ⟨this.steps, this.inv, this.quiet, fun hf => (by cases hf), fun hf => (by cases hf)⟩
    · rw [he]
      have := a'.after a.steps
      refine ⟨this.steps, this.inv, this.quiet, fun _ => ?_, fun _ => c'.reading h2⟩
      have hp := c.paired h1
      rw [Paired, b'.sender]
      exact hp

theorem apply_steady (op : Op) (h : Steady lib s) (hd : op.Defined lib s) :
    Steps lib s (op.apply lib s) ∧ Steady lib (op.apply lib s) := by
  cases op with
  | submit scripts m c v =>
    obtain ⟨h1, h2⟩ := scripts_steady scripts h
    have hm := submit_moves (fun c s hc => complete_moves lib c hc) h2.inv m c v hd
    exact ⟨h1.trans hm.steps, hm.steady h2⟩
  | remove key =>
    have hm := remove_moves lib h.inv key
    exact ⟨hm.steps, hm.steady h⟩
  | run io fds =>
    obtain ⟨h1, h2⟩ := supply_steady io h
    obtain ⟨h3, h4⟩ := run_steady h2 fds
    exact ⟨h1.trans h3, h4⟩

/-- **In every reachable state nothing is half done.** -/
theorem steady (h : (service lib).Reachable s) : Steady lib s :=
  LTS.Inductive.reachable (M := service lib) (P := Steady lib)
    ⟨fun _ h0 => h0.steady, fun _ _ _ hs hst => hst.2 ▸ (apply_steady _ hs hst.1).2⟩ s h

theorem Steps.carry {P : NonblockingPacketService → Prop}
    (hstep : ∀ s t, Inv s → P s → Step lib s t → P t) (hst : Steps lib s t) (hi : Inv s)
    (hp : P s) : P t := by
  have : Inv t ∧ P t := by
    induction hst with
    | refl => exact ⟨hi, hp⟩
    | tail _ hs ih => exact ⟨ih.1.step hs, hstep _ _ ih.1 ih.2 hs⟩
  exact this.2

/-- An invariant of the moves is an invariant of the reachable states. -/
theorem invariant_of_moves {P : NonblockingPacketService → Prop}
    (hinit : ∀ s, Fresh s → P s) (hstep : ∀ s t, Inv s → P s → Step lib s t → P t)
    (h : (service lib).Reachable s) : P s := by
  refine (LTS.Inductive.reachable (M := service lib) (P := fun s => Steady lib s ∧ P s)
    ⟨fun s h0 => ⟨h0.steady, hinit s h0⟩, ?_⟩ s h).2
  rintro s op t ⟨hs, hp⟩ ⟨hd, rfl⟩
  obtain ⟨h1, h2⟩ := apply_steady op hs hd
  exact ⟨h2, Steps.carry hstep h1 hs.inv hp⟩

/-- The service between two turns of a loop of `Send` or `Receive`, or between
two operations. -/
def AtRest (lib : Lib) (t : NonblockingPacketService) : Prop :=
  ∃ s, (service lib).Reachable s ∧ Settles lib s t

theorem atRest (h : (service lib).Reachable s) : AtRest lib s :=
  ⟨s, h, .refl (steady h).inv (steady h).quiet⟩

/-! ## Destruction -/

/-- **Destruction** empties the queue and the receiver, and leaves the sender's
current handler where it is. -/
theorem destroy_moves (h : Inv s) (hq : Quiet s) :
    Settles lib s (s.destroy lib) ∧ (s.destroy lib).sender.requestQueue = [] ∧
      (s.destroy lib).receiver.map = ∅ ∧
      (s.destroy lib).sender.handler = s.sender.handler := by
  have h1 : Steps lib s s.cleanUp := .single .cleanUp
  have h2 : Step lib s.cleanUp { s.cleanUp with scripts := [] } :=
    .environment (s := s.cleanUp) s.socket [] rfl
  have hi2 := (h.steps h1).step h2
  have hq2 : Quiet { s.cleanUp with scripts := [] } := ⟨hq.receiver, hq.awaiting, hq.current⟩
  obtain ⟨a, b, c⟩ := failQueue_moves ⟨.clientShutdown, "Sender shutdown", 0⟩ _ hi2 hq2
    (.inl rfl) (Nat.le_refl _)
  unfold NonblockingPacketService.destroy
  dsimp only
  generalize NonblockingSender.failQueue lib _ _ { s.cleanUp with scripts := [] } = u at a b c ⊢
  have h3 : Step lib u { u with receiver.nonblockingResponse := none } :=
    .bookkeeping none u.receiver.handler
  have hq3 : Quiet { u with receiver.nonblockingResponse := none } :=
    ⟨a.quiet.receiver, a.quiet.awaiting, a.quiet.current⟩
  obtain ⟨a', b', c', -⟩ := callAll_moves ⟨.clientShutdown, "Receiver shutdown", 0⟩
    (a.inv.step h3) hq3
  refine ⟨a'.after (((h1.tail h2).trans (a.steps.tail h3)).tail (.failAll _)), ?_, c', ?_⟩
  · rw [List.eq_nil_iff_forall_not_mem]
    intro r hr
    rcases b'.queue r hr with hr | ⟨hf, -⟩
    · have hr' : r ∈ u.sender.requestQueue := hr
      rw [c] at hr'; cases hr'
    · have hf' : u.failed = false := hf
      rw [b.failed] at hf'; cases hf'
  · rw [b'.handler]
    exact b.handler

end Kinetic.L2
