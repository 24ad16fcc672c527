import Kinetic.L2Service.Responses
import Kinetic.L3Client.Blocking

/-!
# The status of a blocking operation

`RunOperation` takes the status from the callback only when it leaves its loop as
done. A `Run` that reports failure ends the operation with "Connection failed",
although it may have delivered the operation's response: `Receive` goes on reading
as long as any other request is pending, and fails on what comes next. That is
the one case in which status and callback disagree (`agrees_iff`).
-/
open Kinetic.Core

namespace Kinetic.L3

open L1 L2 NonblockingPacketService

variable {lib : Lib} {s t u : NonblockingPacketService} {h : Nat}

/-! ## Responses read -/

/-- The packet just read answers handler `h`, which is waiting for it, with
`SUCCESS`. -/
def answersWithSuccess (lib : Lib) (h : Nat) (s : NonblockingPacketService) : Bool :=
  (s.receiver.message.hmacAuth.isNone || validateHmac lib s.receiver.message s.receiver.hmacKey) &&
  match lib.parseCommand s.receiver.message.getCommandBytes with
  | (false, _) => false
  | (true, command) =>
    let s := NonblockingReceiver.noteCommand command s
    match s.receiver.command.getHeader.ackSequence with
    | none => false
    | some ack =>
      match s.receiver.map.find ack with
      | none => false
      | some (x, _) => x == h && s.receiver.command.getStatusCode == .success

/-- Among the packets that `Receive` reads is one that answers handler `h` with
`SUCCESS`. -/
def readsSuccess (lib : Lib) (h : Nat) : Nat → NonblockingPacketService → Bool
  | 0, _ => false
  | fuel + 1, s =>
    match NonblockingReceiver.openResponse s with
    | none => false
    | some (r, s) =>
      match NonblockingReceiver.readResponse lib r s with
      | (.done, s) => answersWithSuccess lib h s ||
        match NonblockingReceiver.processResponse lib s with
        | (none, s) => readsSuccess lib h fuel s
        | _ => false
      | _ => false

/-- In a `Run` on `s`, the success response for handler `h` is read. -/
def SuccessRead (lib : Lib) (h : Nat) (s : NonblockingPacketService) : Prop :=
  s.failed = false ∧ (NonblockingSender.send lib s).1 ≠ .error ∧
  readsSuccess lib h ((NonblockingSender.send lib s).2.socket.reads.length + 1)
    (NonblockingSender.send lib s).2 = true

instance : Decidable (SuccessRead lib h s) := inferInstanceAs (Decidable (_ ∧ _))

/-- A `Run` reports failure after it has read the response to the operation. -/
def BrokenAfterSuccess (lib : Lib) (h : Nat) (s : NonblockingPacketService) : Prop :=
  (s.run lib ⟨[], [], 0⟩).1 = false ∧ SuccessRead lib h s

instance : Decidable (BrokenAfterSuccess lib h s) := inferInstanceAs (Decidable (_ ∧ _))

/-! ## Success is called for a success response -/

/-- `Success` has been called on the callback of handler `h`. -/
def Succeeded (h : Nat) (log : List Event) : Prop := ∃ c v, Completion.handle h c v ∈ completions log

theorem Succeeded.append {l : List Event} (hs : Succeeded h l) (new : List Event) :
    Succeeded h (l ++ new) := by
  obtain ⟨c, v, hm⟩ := hs
  exact ⟨c, v, by rw [completions_append]; exact List.mem_append_left _ hm⟩

theorem succeeded_append {l new : List Event} (hn : ∀ e ∈ new, e.Calm ∨ ∃ x, e = .written x) :
    Succeeded h (l ++ new) ↔ Succeeded h l := by
  refine ⟨fun ⟨c, v, hm⟩ => ?_, fun hs => hs.append new⟩
  rw [completions_append, List.mem_append] at hm
  rcases hm with hm | hm
  · exact ⟨c, v, hm⟩
  obtain ⟨e, he, hc⟩ := List.mem_filterMap.1 hm
  split at hc
  · rename_i c'
    cases hc
    rcases hn _ he with hcalm | ⟨x, hx⟩
    · cases hcalm
    · cases hx
  · cases hc

theorem succeeded_completed {l : List Event} {c : Completion} :
    Succeeded h (l ++ [.completed c]) ↔ Succeeded h l ∨ ∃ r v, c = .handle h r v := by
  simp only [Succeeded, completions_append, List.mem_append, exists_or]
  simp [completions, eq_comm]

theorem Succeeded.settled {l : List Event} (hs : Succeeded h l) : h ∈ settled l := by
  obtain ⟨c, v, hm⟩ := hs
  exact List.mem_map.2 ⟨_, hm, rfl⟩

theorem succeeded_frame (hf : Frame s t) : Succeeded h t.log ↔ Succeeded h s.log := by
  obtain ⟨new, hl, hc⟩ := hf.log
  rw [hl]
  exact succeeded_append fun e he => .inl (hc e he)

theorem succeeded_callAll (status : KineticStatus) (hi : Inv s) (hq : Quiet s) :
    Succeeded h (NonblockingReceiver.callAllErrorHandlers lib status s).log ↔
      Succeeded h s.log := by
  obtain ⟨-, hf, -⟩ := callAll_moves status hi hq
  rw [succeeded_frame hf, emit_log]
  simp [Succeeded, completions]

variable (lib) in
/-- **Processing a packet** calls `Success` exactly for a success response. -/
theorem process_succeeded (hi : Inv s) (hq : Quiet s) :
    Succeeded h (NonblockingReceiver.processResponse lib s).2.log ↔
      Succeeded h s.log ∨ answersWithSuccess lib h s = true := by
  have hok : (s.receiver.message.hmacAuth.isSome →
        validateHmac lib s.receiver.message s.receiver.hmacKey = true) →
      (s.receiver.message.hmacAuth.isNone ||
        validateHmac lib s.receiver.message s.receiver.hmacKey) = true := by
    intro hv
    cases hs : s.receiver.message.hmacAuth with
    | none => rfl
    | some a => simp [hv (by rw [hs]; rfl)]
  have hp := processing lib s
  generalize NonblockingReceiver.processResponse lib s = out at hp ⊢
  unfold answersWithSuccess
  cases hp with
  | mismatch hs hbad =>
    have hn : s.receiver.message.hmacAuth.isNone = false := by
      rw [← Option.not_isSome, hs]; rfl
    rw [succeeded_callAll _ hi hq, hn, hbad]
    simp
  | @unparsed command hv hbad =>
    refine (succeeded_callAll _ (hi.stored command s.receiver.connectionId)
      (hq.stored command s.receiver.connectionId)).trans ?_
    rw [hbad]
    simp
  | @unacknowledged command hread hack =>
    rw [succeeded_callAll _ (hi.noted command) (hq.noted command), hok hread.1, hread.2]
    dsimp only
    rw [hack]
    simp [NonblockingReceiver.noteCommand]
  | @unmatched command ack hread hack hm =>
    rw [hok hread.1, hread.2]
    dsimp only
    rw [hack]
    dsimp only
    rw [hm]
    simp [NonblockingReceiver.noteCommand]
  | @matched command ack x key hread hack hm =>
    rw [hok hread.1, hread.2]
    dsimp only
    rw [hack]
    dsimp only
    rw [hm]
    obtain ⟨-, hf, -⟩ := dispatch_moves (hi.noted command) (hq.noted command) hm
    obtain ⟨new, hl, hc⟩ := hf.log
    have hl' : (NonblockingReceiver.dispatch lib ack x key
        (NonblockingReceiver.noteCommand command s)).log =
        (answered ack x key (NonblockingReceiver.noteCommand command s)).log ++ new := hl
    obtain ⟨v, hv⟩ := answered_eq ack x key (NonblockingReceiver.noteCommand command s)
    rw [hl', succeeded_append fun e he => .inl (hc e he), hv, emit_log, succeeded_completed]
    refine or_congr Iff.rfl ?_
    unfold NonblockingReceiver.answer
    dsimp only
    split
    · rename_i hs
      simp [hs]
    · rename_i hs
      simp [hs]

/-! ## Run -/

theorem receiveLoop_succeeded (fuel : Nat) (hi : Inv s) (hq : Quiet s) (hrd : Reading lib s)
    (hfuel : s.socket.reads.length < fuel) :
    Succeeded h (NonblockingReceiver.receiveLoop lib fuel s).2.log ↔
      Succeeded h s.log ∨ readsSuccess lib h fuel s = true := by
  induction fuel generalizing s with
  | zero => omega
  | succ fuel ih =>
    rcases receive_turn hi hq hrd with
      ⟨he, hm, hr⟩ | ⟨st, r, s₁, t, he, hop, hrs, hit, hqt, hfr, -, hdone⟩
    · have hnone : NonblockingReceiver.openResponse s = none := by
        simp [NonblockingReceiver.openResponse, hm, hr]
      rw [he fuel]
      simp [readsSuccess, hnone]
    have hlog := readResponse_log lib r s₁
    rw [hrs, hop.log] at hlog
    rw [he fuel, readsSuccess, hop.opens]
    simp only [hrs]
    cases st with
    | inProgress =>
      dsimp only
      rw [hlog.2 (by simp)]
      simp
    | failed =>
      dsimp only
      rw [succeeded_callAll _ hit hqt, hlog.2 (by simp)]
      simp
    | done =>
      obtain ⟨hset, -, hsock, hrdr, -, -⟩ := process_moves hop.settles.inv
        hop.settles.quiet hrs
      obtain ⟨hnone, hlt⟩ := hdone rfl
      have hp := process_succeeded lib (h := h) hit hqt
      have ht : Succeeded h t.log ↔ Succeeded h s.log := by
        rw [hlog.1 rfl]
        simp [Succeeded, completions]
      rw [ht] at hp
      dsimp only
      cases hpr : NonblockingReceiver.processResponse lib t with
      | mk st' u =>
      rw [hpr] at hset hsock hrdr hp
      dsimp only at hset hsock hrdr hp ⊢
      cases st' with
      | some st => simp [hp]
      | none =>
        dsimp only
        rw [ih hset.inv hset.quiet (fun r' hr' => by rw [hrdr, hnone] at hr'; cases hr')
          (by rw [hsock]; omega), hp, Bool.or_eq_true, or_assoc]

theorem run_succeeded (hs : Steady lib s) (fds : FdSets) :
    Succeeded h (s.run lib fds).2.2.log ↔ Succeeded h s.log ∨ SuccessRead lib h s := by
  cases hf : s.failed with
  | true => simp [NonblockingPacketService.run, SuccessRead, hf]
  | false =>
    obtain ⟨-, b, -, hrd, -, -, -⟩ := sendReceive_moves hs hf
    obtain ⟨a, -, -⟩ := send_moves hs.inv hs.quiet (hs.paired hf) hf
    obtain ⟨new, hl, hc⟩ := b.log
    have hsend : Succeeded h (NonblockingSender.send lib s).2.log ↔ Succeeded h s.log := by
      rw [hl]; exact succeeded_append hc
    have hrecv := receiveLoop_succeeded (h := h) _ a.inv a.quiet hrd
      (Nat.lt_succ_self _)
    rw [hsend] at hrecv
    rcases run_cases hf fds with ⟨h1, he⟩ | ⟨h1, -, he⟩ | ⟨h1, -, he⟩
    · rw [he]
      simp only [SuccessRead, h1]
      simpa [cleanUp] using hsend
    · rw [he]
      simp only [SuccessRead, hf, ne_eq, h1, not_false_eq_true, true_and]
      exact hrecv
    · rw [he]
      simp only [SuccessRead, hf, ne_eq, h1, not_false_eq_true, true_and]
      exact hrecv

/-! ## The loop of RunOperation -/

/-- Every `Run` of these succeeded. -/
def AllRan (lib : Lib) (us : List NonblockingPacketService) : Prop :=
  ∀ u ∈ us, (u.run lib ⟨[], [], 0⟩).1 = true

/-- The sets that `Run` is given do not matter. -/
theorem run_fds (fds fds' : FdSets) (s : NonblockingPacketService) :
    (s.run lib fds).1 = (s.run lib fds').1 ∧ (s.run lib fds).2.2 = (s.run lib fds').2.2 := by
  unfold NonblockingPacketService.run
  split
  · exact ⟨rfl, rfl⟩
  split
  · exact ⟨rfl, rfl⟩
  split <;> exact ⟨rfl, rfl⟩

/-- How an operation's waiting ends, given the states in which it calls `Run`:
every `Run` but the last one succeeds, and so does that one, unless it is the
reason to end. -/
structure WaitEnds (lib : Lib) (h : Nat) (us : List NonblockingPacketService)
    (exit : Option Exit) (t : NonblockingPacketService) : Prop where
  ran : exit ≠ some .connectionFailed → AllRan lib us
  done : exit = some .done → (callbackState h t.log).done = true
  waiting : ∀ e, exit = some e → e ≠ .done → e ≠ .connectionFailed →
    (callbackState h t.log).done = false
  failed : exit = some .connectionFailed → ∃ before u, us = before ++ [u] ∧ AllRan lib before ∧
    (u.run lib ⟨[], [], 0⟩).1 = false ∧ t = (u.run lib ⟨[], [], 0⟩).2.2

theorem WaitEnds.cons {us : List NonblockingPacketService} {exit : Option Exit}
    (hw : WaitEnds lib h us exit t) (hu : (u.run lib ⟨[], [], 0⟩).1 = true) :
    WaitEnds lib h (u :: us) exit t := by
  refine ⟨fun he v hv => ?_, hw.done, hw.waiting, fun he => ?_⟩
  · rcases List.mem_cons.1 hv with rfl | hv
    · exact hu
    · exact hw.ran he v hv
  · obtain ⟨before, v, rfl, hb, hv, ht⟩ := hw.failed he
    refine ⟨u :: before, v, rfl, fun w hw' => ?_, hv, ht⟩
    rcases List.mem_cons.1 hw' with rfl | hw'
    · exact hu
    · exact hb w hw'

theorem WaitEnds.last (hu : (u.run lib ⟨[], [], 0⟩).1 = false) :
    WaitEnds lib h [u] (some .connectionFailed) (u.run lib ⟨[], [], 0⟩).2.2 :=
  ⟨fun he => absurd rfl he, by simp, fun e he _ hne => absurd (Option.some.inj he).symm hne,
    fun _ => ⟨[], u, rfl, by simp [AllRan], hu, rfl⟩⟩

/-- An operation that ends without calling `Run` again. -/
theorem WaitEnds.still {exit : Option Exit} (h1 : exit ≠ some .connectionFailed)
    (h2 : exit = some .done → (callbackState h t.log).done = true)
    (h3 : ∀ e, exit = some e → e ≠ .done → (callbackState h t.log).done = false) :
    WaitEnds lib h [] exit t :=
  ⟨fun _ => by simp [AllRan], h2, fun e he hne _ => h3 e he hne, fun he => absurd he h1⟩

theorem waitLoop_ends (turns : List Turn) (fds : FdSets) (s : NonblockingPacketService) :
    WaitEnds lib h (loopRuns lib h turns fds s) (waitLoop lib h turns fds s).1
      (waitLoop lib h turns fds s).2 := by
  induction turns generalizing fds s with
  | nil =>
    unfold waitLoop loopRuns
    split
    · rename_i hd; exact .still (by simp) (fun _ => hd) (by simp)
    · exact .still (by simp) (by simp) (by simp)
  | cons turn turns ih =>
    cases hd : (callbackState h s.log).done with
    | true =>
      simp only [waitLoop, loopRuns, hd, if_true]
      exact .still (by simp) (fun _ => hd) (by simp)
    | false =>
      obtain ⟨h1, h2⟩ := run_fds fds ⟨[], [], 0⟩ (s.supply turn.io)
      cases hr : (s.supply turn.io).run lib fds with
      | mk ok rest =>
      obtain ⟨fds', t⟩ := rest
      rw [hr] at h1 h2
      dsimp only at h1 h2
      cases hsel : turn.select with
      | error message =>
        simp only [waitLoop, loopRuns, hd, hsel, Bool.false_eq_true, if_false]
        exact .still (by simp) (by simp) (fun _ _ _ => hd)
      | timeout =>
        simp only [waitLoop, loopRuns, hd, hsel, Bool.false_eq_true, if_false]
        exact .still (by simp) (by simp) (fun _ _ _ => hd)
      | ready | interrupted =>
        simp only [waitLoop, loopRuns, hd, hsel, hr, Bool.false_eq_true, if_false]
        cases ok with
        | false =>
          dsimp only
          rw [h2]
          exact .last h1.symm
        | true => exact (ih fds' t).cons h1.symm

variable (lib) in
theorem wait_ends (op : Operation) (s : NonblockingPacketService) :
    WaitEnds lib s.handlers (op.runs lib s)
      (wait lib s.handlers op.first op.turns op.fds (op.submit lib s)).1
      (wait lib s.handlers op.first op.turns op.fds (op.submit lib s)).2 := by
  obtain ⟨h1, h2⟩ := run_fds op.fds ⟨[], [], 0⟩ ((op.submit lib s).supply op.first)
  unfold wait Operation.runs
  dsimp only
  cases hr : ((op.submit lib s).supply op.first).run lib op.fds with
  | mk ok rest =>
  obtain ⟨fds', t⟩ := rest
  rw [hr] at h1 h2
  dsimp only at h1 h2 ⊢
  cases ok with
  | false =>
    dsimp only
    rw [h2]
    exact .last h1.symm
  | true => exact (waitLoop_ends op.turns fds' t).cons h1.symm

/-- The states in which the loop calls `Run` are states of the service in which
the callback has not been called. -/
theorem loopRuns_waiting (turns : List Turn) (fds : FdSets) (hs : Steady lib s) :
    ∀ u ∈ loopRuns lib h turns fds s, Steady lib u ∧ ¬ Succeeded h u.log := by
  induction turns generalizing fds s with
  | nil => simp [loopRuns]
  | cons turn turns ih =>
    have hsup := (supply_steady turn.io hs).2
    have hrun := (run_steady hsup fds).2
    unfold loopRuns
    split
    · simp
    rename_i hd
    have hun : ¬ Succeeded h (s.supply turn.io).log := fun hsu =>
      hd ((done_iff hs.inv).2 hsu.settled)
    split
    · simp
    · simp
    all_goals
      intro u hu
      rcases List.mem_cons.1 hu with rfl | hu
      · exact ⟨hsup, hun⟩
      · split at hu
        · simp at hu
        · rename_i he
          rw [he] at hrun
          exact ih _ hrun u hu

theorem submit_waiting (hs : Steady lib s) (op : Operation) (hd : op.Defined lib s) :
    Steady lib (op.submit lib s) ∧ ¬ Succeeded s.handlers (op.submit lib s).log := by
  obtain ⟨ops, hrun⟩ := submit_run op hd
  obtain ⟨-, hs'⟩ := run_steps hrun hs
  refine ⟨hs', ?_⟩
  have hold : s.handlers ∉ settled s.log := fun hm =>
    Nat.lt_irrefl _ (hs.inv.issued_lt _ (hs.inv.ledger.settled_issued hm))
  rintro ⟨c, v, hm⟩
  have hmem : Completion.handle s.handlers c v ∈ callsOf s.handlers (op.submit lib s).log :=
    mem_callsOf.2 ⟨hm, rfl⟩
  obtain ⟨⟨m, c', v'⟩, hreq⟩ := Option.isSome_iff_exists.1 hd.1
  have heq : op.submit lib s = (Op.submit [] m c' v').apply lib s := by
    simp only [Operation.submit, hreq]
  rw [heq] at hm hmem hs'
  cases hf : s.failed with
  | true =>
    obtain ⟨-, new, hl⟩ := submit_failed hs hf [] m c' v'
    have herr : Completion.error s.handlers alreadyShutDown none ∈
        callsOf s.handlers ((Op.submit [] m c' v').apply lib s).log := by
      rw [hl]
      exact mem_callsOf.2 ⟨by simp [completions], rfl⟩
    rcases callsOf_cases hs'.inv s.handlers with hn | ⟨x, hx⟩
    · rw [hn] at herr; cases herr
    · rw [hx, List.mem_singleton] at herr hmem
      rw [← herr] at hmem
      cases hmem
  | false =>
    obtain ⟨r, he, -⟩ := enqueue_spec lib m c' v' s.handlers s.nextKey
      ({ s with scripts := [] } : NonblockingPacketService).count
    have hl : ((Op.submit [] m c' v').apply lib s).log = s.log ++ [.submitted r] := by
      simp only [Op.apply, NonblockingPacketService.submit, hf, Bool.false_eq_true, if_false]
      exact congrArg NonblockingPacketService.log he
    rw [hl] at hm
    exact hold (List.mem_map.2 ⟨_, by simpa [completions] using hm, rfl⟩)

theorem runs_waiting (hs : Steady lib s) (op : Operation) (hd : op.Defined lib s) :
    ∀ u ∈ op.runs lib s, Steady lib u ∧ ¬ Succeeded s.handlers u.log := by
  obtain ⟨hs', hun⟩ := submit_waiting hs op hd
  have hsup := (supply_steady op.first hs').2
  have hrun := (run_steady hsup op.fds).2
  intro u hu
  rcases List.mem_cons.1 hu with rfl | hu
  · exact ⟨hsup, hun⟩
  · split at hu
    · simp at hu
    · rename_i he
      rw [he] at hrun
      exact loopRuns_waiting _ _ hrun u hu

/-! ## Status and callback -/

/-- Without a success the out parameters stay as they were. -/
theorem outputs_unsucceeded (callback : Callback) (out : Outputs) {l : List Event}
    (hn : ¬ Succeeded h l) : outputs callback out h l = out := by
  have herr : ∀ c ∈ callsOf h l, ∃ x st r, c = .error x st r := by
    intro c hc
    obtain ⟨hm, hh⟩ := mem_callsOf.1 hc
    cases c with
    | handle x r v =>
      obtain rfl : x = h := hh
      exact absurd ⟨r, v, hm⟩ hn
    | error x st r => exact ⟨x, st, r, rfl⟩
  unfold outputs
  generalize callsOf h l = cs at herr
  induction cs with
  | nil => rfl
  | cons c cs ih =>
    obtain ⟨x, st, r, rfl⟩ := herr c List.mem_cons_self
    exact ih fun c hc => herr c (List.mem_cons_of_mem _ hc)

/-- The status taken from a callback that is done says whether it succeeded. -/
theorem done_status (hi : Inv s) (hso : Sound s) (hd : (callbackState h s.log).done = true) :
    (Exit.leave h 0 s .done).1.code = .ok ↔ Succeeded h s.log := by
  unfold Exit.leave
  rcases callsOf_cases hi h with hc | ⟨c, hc⟩
  · rw [callbackState, hc] at hd
    cases hd
  obtain ⟨hm, hh⟩ : c ∈ completions s.log ∧ c.handler = h :=
    mem_callsOf.1 (by rw [hc]; exact List.mem_singleton_self c)
  simp only [callbackState, hc, List.foldl_cons, List.foldl_nil]
  cases c with
  | handle x r v =>
    obtain rfl : x = h := hh
    exact ⟨fun _ => ⟨r, v, hm⟩, fun _ => rfl⟩
  | error x st r =>
    have hne := (hso _ hm).code_ne_ok
    refine ⟨fun hok => absurd hok hne, fun ⟨r', v', hm'⟩ => ?_⟩
    have : Completion.handle h r' v' ∈ callsOf h s.log := mem_callsOf.2 ⟨hm', rfl⟩
    rw [hc, List.mem_singleton] at this
    cases this

theorem remove_succeeded (hi : Inv s) (key : Nat) :
    Succeeded h (s.remove key).2.log ↔ Succeeded h s.log :=
  succeeded_frame (remove_moves Codec.plain hi key).frame.toFrame

/-- The status that an operation returned agrees with what happened: it is `OK`
exactly when `Success` was invoked, and if it is not, the out parameters are as
they were. -/
structure Agrees (lib : Lib) (op : Operation) (s : NonblockingPacketService)
    (status : KineticStatus) : Prop where
  ok : status.code = .ok ↔ Succeeded s.handlers (op.perform lib s).2.log
  unchanged : status.code ≠ .ok → ∀ out,
    outputs op.call.callback out s.handlers (op.perform lib s).2.log = out

/-- **Status and callback agree** exactly when no `Run` of the operation reports
failure after it has read the operation's success response. -/
theorem agrees_iff (h : (service lib).Reachable s) (op : Operation) (hd : op.Defined lib s)
    {status : KineticStatus} (hr : (op.perform lib s).1 = some status) :
    Agrees lib op s status ↔ ∀ u ∈ op.runs lib s, ¬ BrokenAfterSuccess lib s.handlers u := by
  have hs := steady h
  have hends := wait_ends lib op s
  have hwaiting := runs_waiting hs op hd
  obtain ⟨ops₁, h₁⟩ := submit_run op hd
  obtain ⟨ops₂, h₂⟩ := wait_run hd.2.2
  have hreach := h.run (h₁.append h₂)
  -- only the first part can fail: where `Success` was not invoked, nothing is written
  have hagrees : Agrees lib op s status ↔
      (status.code = .ok ↔ Succeeded s.handlers (op.perform lib s).2.log) :=
    ⟨fun ha => ha.ok, fun hok => ⟨hok, fun hne out => outputs_unsucceeded _ _ fun hsu =>
      hne (hok.2 hsu)⟩⟩
  rw [hagrees]
  unfold Operation.perform runOperation at hr ⊢
  cases he : wait lib s.handlers op.first op.turns op.fds (op.submit lib s) with
  | mk exit w =>
  rw [he] at hr hends hreach
  dsimp only at hr hends hreach ⊢
  have hw := steady hreach
  have hran : exit ≠ some .connectionFailed →
      ∀ u ∈ op.runs lib s, ¬ BrokenAfterSuccess lib s.handlers u := by
    intro hne u hu hb
    have := hends.ran hne u hu
    rw [hb.1] at this
    cases this
  have hgave : ∀ e, exit = some e → e ≠ .done → e ≠ .connectionFailed →
      ¬ Succeeded s.handlers (w.remove s.nextKey).2.log := by
    intro e hx h1 h2 hsu
    have := hends.waiting e hx h1 h2
    rw [(done_iff hw.inv).2 ((remove_succeeded hw.inv _).1 hsu).settled] at this
    cases this
  match exit with
  | none => cases hr
  | some .done =>
    cases hr
    exact ⟨fun _ => hran (by simp), fun _ => done_status hw.inv (sound hreach) (hends.done rfl)⟩
  | some (.selectFailed message) =>
    cases hr
    refine ⟨fun _ => hran (by simp), fun _ => ?_⟩
    simpa [Exit.leave] using hgave _ rfl (by simp) (by simp)
  | some .timedOut =>
    cases hr
    refine ⟨fun _ => hran (by simp), fun _ => ?_⟩
    simpa [Exit.leave] using hgave _ rfl (by simp) (by simp)
  | some .connectionFailed =>
    cases hr
    obtain ⟨before, u, hus, hbefore, hfail, rfl⟩ := hends.failed rfl
    obtain ⟨hu, hun⟩ := hwaiting u (by rw [hus]; simp)
    have hsucc : Succeeded s.handlers
        ((u.run lib ⟨[], [], 0⟩).2.2.remove s.nextKey).2.log ↔ SuccessRead lib s.handlers u := by
      rw [remove_succeeded hw.inv, run_succeeded hu]
      simp [hun]
    simp only [Exit.leave, reduceCtorEq, false_iff]
    rw [hsucc, hus]
    constructor
    · intro hn v hv hb
      rcases List.mem_append.1 hv with hv | hv
      · have := hbefore v hv
        rw [hb.1] at this
        cases this
      · rw [List.mem_singleton.1 hv] at hb
        exact hn hb.2
    · exact fun hall hread => hall u (by simp) ⟨hfail, hread⟩

/-- A request is pending on the nonblocking connection. -/
def onePending : NonblockingPacketService :=
  play Codec.plain (create 5 1 [] 0) [.submit [] {} {} []]

/-- Both requests are written, the response to this one is read, and then the
connection is reset. -/
def reset : Operation where
  connection := ⟨⟨0⟩⟩
  call := .getS [107]
  first := {
    writes := List.replicate 12 (.count 100)
    arrives := stream [reply none 1 .success [7]]
    reads := List.replicate 5 (.count 100) ++ [.error] }
  turns := []
  fds := ⟨[], [], 0⟩

theorem agrees_iff_reset :
    ¬ Agrees Codec.plain reset onePending ⟨.clientIoError, "Connection failed", 0⟩ := by
  have hs : (service Codec.plain).Reachable onePending := reachable_session _ (by decide +kernel)
  rw [agrees_iff hs reset (by decide +kernel) (by decide +kernel)]
  decide +kernel

/-- The operation reports that the connection has failed, but has read its
record. -/
theorem reset_succeeded :
    (reset.perform Codec.plain onePending).1 = some ⟨.clientIoError, "Connection failed", 0⟩ ∧
    outputs reset.call.callback {} onePending.handlers
      (reset.perform Codec.plain onePending).2.log =
        { record := some ⟨some [7], some [], some [], .invalidAlgorithm⟩ } ∧
    ¬ ∀ (lib : Lib) (s : NonblockingPacketService) (op : Operation) (status : KineticStatus),
      (service lib).Reachable s → op.Defined lib s → (op.perform lib s).1 = some status →
      Agrees lib op s status := by
  have hout : outputs reset.call.callback {} onePending.handlers
      (reset.perform Codec.plain onePending).2.log =
        { record := some ⟨some [7], some [], some [], .invalidAlgorithm⟩ } := by decide +kernel
  refine ⟨by decide +kernel, hout, fun hall => ?_⟩
  have ha := hall Codec.plain onePending reset ⟨.clientIoError, "Connection failed", 0⟩
    (reachable_session _ (by decide +kernel)) (by decide +kernel) (by decide +kernel)
  rw [ha.unchanged (by decide) {}] at hout
  cases hout

end Kinetic.L3
