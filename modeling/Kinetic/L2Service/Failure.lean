import Kinetic.L2Service.Interest

/-!
# A failed connection

When `Send` or `Receive` reports an error, `Run` calls `CleanUp`, which only sets
`failed_`. From then on the service is shut (`shutDown`): `Run` does nothing and
`Submit` fails its handler at once. But `Send` has drained the sender alone, and
`Receive` the receiver alone; what the other of the two still holds stays there
until the destruction (`failure_completes_iff`).
-/
open Kinetic.Core

namespace Kinetic.L2

open L1 NonblockingPacketService

variable {lib : Lib} {s t v w : NonblockingPacketService}

/-- From here on, `Run` does nothing at all, and `Submit` performs no I/O and
has its handler called once, with `CLIENT_SHUTDOWN`, however the run goes on. -/
def ShutDown (lib : Lib) (t : NonblockingPacketService) : Prop :=
  ∀ ops v, (service lib).Run t ops v →
    (∀ io fds, (v.supply io).run lib fds = (false, fds, v.supply io)) ∧
    ∀ scripts m c x, ((Op.submit scripts m c x).apply lib v).socket = v.socket ∧
      ∀ ops' w, (service lib).Run ((Op.submit scripts m c x).apply lib v) ops' w →
        (completions w.log).filter (·.handler == v.handlers) =
          [.error v.handlers alreadyShutDown none]

/-! ## The service stays shut -/

theorem apply_failed (h : Steady lib s) (hf : s.failed = true) (op : Op) :
    (op.apply lib s).failed = true := by
  cases op with
  | submit scripts m c x =>
    obtain ⟨-, h2⟩ := scripts_steady scripts h
    have hm := submit_moves (fun c s hc => complete_moves lib c hc) h2.inv m c x
      (by simp [submitDefined, hf])
    exact hm.frame.failed.trans hf
  | remove key => exact (remove_moves lib h.inv key).frame.failed.trans hf
  | run io fds =>
    have hf' : (s.supply io).failed = true := hf
    simp only [Op.apply, NonblockingPacketService.run, hf', if_true]

theorem run_steps {ops : List Op} (hr : (service lib).Run s ops t) (h : Steady lib s) :
    Steps lib s t ∧ Steady lib t := by
  induction hr with
  | nil => exact ⟨.refl, h⟩
  | cons hs _ ih =>
    obtain ⟨hd, rfl⟩ := hs
    obtain ⟨h1, h2⟩ := apply_steady _ h hd
    obtain ⟨h3, h4⟩ := ih h2
    exact ⟨h1.trans h3, h4⟩

theorem run_failed {ops : List Op} (hr : (service lib).Run s ops t) (h : Steady lib s)
    (hf : s.failed = true) : t.failed = true := by
  induction hr with
  | nil => exact hf
  | cons hs _ ih =>
    obtain ⟨hd, rfl⟩ := hs
    exact ih (apply_steady _ h hd).2 (apply_failed h hf _)

theorem steps_log (hs : Steps lib s t) (h : Inv s) : ∃ new, t.log = s.log ++ new := by
  induction hs with
  | refl => exact ⟨[], by simp⟩
  | tail hst hlast ih =>
    obtain ⟨n, hn⟩ := ih
    obtain ⟨n', hn', -⟩ := hlast.extends_cases (h.steps hst)
    exact ⟨n ++ n', by rw [hn', hn, List.append_assoc]⟩

theorem submit_failed (h : Steady lib v) (hf : v.failed = true) (scripts : List (List Action))
    (m : Message) (c : Command) (x : Bytes) :
    ((Op.submit scripts m c x).apply lib v).socket = v.socket ∧
      ∃ new, ((Op.submit scripts m c x).apply lib v).log = v.log ++
        .refused v.handlers v.nextKey :: .completed (.error v.handlers alreadyShutDown none) ::
          new := by
  obtain ⟨-, h2⟩ := scripts_steady scripts h
  have hr := refuse_moves lib (s := { v with scripts }) hf
  have hm := complete_moves lib (.error v.handlers alreadyShutDown none)
    (s := NonblockingPacketService.emit (count { v with scripts }) (.refused v.handlers v.nextKey))
    (h2.inv.steps hr.steps)
  have he : (Op.submit scripts m c x).apply lib v =
      complete lib (.error v.handlers alreadyShutDown none)
        (NonblockingPacketService.emit (count { v with scripts })
          (.refused v.handlers v.nextKey)) := by
    simp only [Op.apply, NonblockingPacketService.submit, hf, if_true]
    rfl
  rw [he]
  refine ⟨hm.frame.socket, ?_⟩
  obtain ⟨new, hn, -⟩ := hm.frame.log
  refine ⟨new, hn.trans ?_⟩
  simp [count]

/-- **A failed service is shut.** -/
theorem shutDown (h : Steady lib t) (hf : t.failed = true) : ShutDown lib t := by
  intro ops v hrun
  obtain ⟨-, hv⟩ := run_steps hrun h
  have hfv := run_failed hrun h hf
  refine ⟨fun io fds => ?_, fun scripts m c x => ?_⟩
  · have hfv' : (v.supply io).failed = true := hfv
    simp only [NonblockingPacketService.run, hfv', if_true]
  obtain ⟨hsock, new, hlog⟩ := submit_failed hv hfv scripts m c x
  refine ⟨hsock, fun ops' w hrun' => ?_⟩
  have hd : (Op.submit scripts m c x).Defined lib v := by simp [Op.Defined, submitDefined, hfv]
  obtain ⟨hst, hw⟩ := run_steps hrun' (apply_steady _ hv hd).2
  obtain ⟨new', hlog'⟩ := steps_log hst (apply_steady _ hv hd).2.inv
  obtain ⟨rest, hlogw⟩ : ∃ rest, w.log = v.log ++ [.refused v.handlers v.nextKey] ++
      [.completed (.error v.handlers alreadyShutDown none)] ++ rest :=
    ⟨new ++ new', by rw [hlog', hlog]; simp⟩
  have hfresh : v.handlers ∉ settled v.log := fun hs =>
    Nat.lt_irrefl _ (hv.inv.issued_lt _ (hv.inv.ledger.settled_issued hs))
  have honce := hw.inv.ledger.settled_once v.handlers
  have hold : (completions v.log).filter (·.handler == v.handlers) = [] := by
    rw [List.filter_eq_nil_iff]
    intro c hc he
    exact hfresh (List.mem_map.2 ⟨c, hc, beq_iff_eq.1 he⟩)
  have hnew : (completions rest).filter (·.handler == v.handlers) = [] := by
    rw [List.filter_eq_nil_iff]
    intro c hc he
    have h1 : v.handlers ∈ settled rest := List.mem_map.2 ⟨c, hc, beq_iff_eq.1 he⟩
    rw [hlogw, settled_append, settled_completed, List.count_append, List.count_append] at honce
    have h2 := List.count_pos_iff.2 h1
    simp only [Completion.handler, List.count_singleton_self] at honce
    omega
  rw [hlogw]
  simp only [completions_append, List.filter_append, hold, hnew]
  simp [completions, Completion.handler]

/-! ## What is left behind -/

/-- What is left uncompleted between two loops is whatever is still held. -/
theorem Settles.allCompleted_iff (hs : Settles lib s t) : AllCompleted t ↔
    t.sender.requestQueue = [] ∧ t.sender.handler = none ∧ t.receiver.map = ∅ := by
  rw [L2.allCompleted_iff hs.inv]
  constructor
  · intro ha
    refine ⟨List.eq_nil_iff_forall_not_mem.2 fun r hr => ?_, Option.eq_none_iff_forall_ne_some.2
      fun x hx => ?_, Dict.eq_empty_iff.2 fun seq => Option.eq_none_iff_forall_ne_some.2
      fun e he => ?_⟩
    · refine hs.inv.waiting r hr (ha _ ?_)
      exact List.mem_append_left _ (List.mem_map.2 ⟨r, hr, rfl⟩)
    · exact hs.quiet.current x hx (ha x (by simp [held, hx]))
    · exact hs.quiet.awaiting_unsettled hs.inv he (ha _ (Inv.mem_held_of_map he))
  · rintro ⟨h1, h2, h3⟩ x hx
    simp [held, h1, h2, h3] at hx

/-- When `Run` calls `CleanUp` on `s`, the half that did not fail holds nobody:
no handler waits for a response if `Send` failed; if `Receive` failed, `Send` had
finished all its packets and no callback has submitted a request since that stays. -/
def NobodyLeft (lib : Lib) (s : NonblockingPacketService) : Prop :=
  ((NonblockingSender.send lib s).1 = .error ∧
    (NonblockingSender.send lib s).2.receiver.map = ∅) ∨
  ((NonblockingSender.send lib s).1 = .idle ∧
    ¬ Submitted (NonblockingSender.send lib s).2
      (NonblockingReceiver.receive lib (NonblockingSender.send lib s).2).2)

instance : Decidable (NobodyLeft lib s) := inferInstanceAs (Decidable (_ ∨ _))

/-- **A failing `Run` completes everything** exactly when the half that did not
fail holds nobody; the shutdown itself is always complete. -/
theorem failure_completes_iff (h : (service lib).Reachable s) (io : Io) (fds : FdSets)
    (hf : s.failed = false) (hr : ((s.supply io).run lib fds).1 = false) :
    (AllCompleted ((s.supply io).run lib fds).2.2 ∧ ShutDown lib ((s.supply io).run lib fds).2.2) ↔
      NobodyLeft lib (s.supply io) := by
  obtain ⟨hsup, hst⟩ := supply_steady io (steady h)
  have hf' : (s.supply io).failed = false := hf
  obtain ⟨a, b, c, -, a', b', c'⟩ := sendReceive_moves hst hf'
  have hrec := Steps.carry (fun _ _ hi hp hs => Records.step hi hp hs)
    ((hsup.trans a.steps).trans a'.steps) (steady h).inv (records h)
  have hshut : ShutDown lib ((s.supply io).run lib fds).2.2 := by
    refine shutDown (run_steady hst fds).2 ?_
    rcases run_cases hf' fds with ⟨-, he⟩ | ⟨-, -, he⟩ | ⟨-, -, he⟩
    · rw [he]; rfl
    · rw [he]; rfl
    · rw [he] at hr; cases hr
  rw [and_iff_left hshut, NobodyLeft]
  rcases run_cases hf' fds with ⟨h1, he⟩ | ⟨h1, h2, he⟩ | ⟨-, -, he⟩
  · rw [he, (cleanUp_settles a).allCompleted_iff, h1]
    obtain ⟨hh, hq⟩ := c.error h1
    constructor
    · exact fun ⟨_, _, hm⟩ => .inl ⟨rfl, hm⟩
    · rintro (⟨-, hm⟩ | ⟨hi, -⟩)
      · exact ⟨hq, hh, hm⟩
      · cases hi
  · rw [he, (cleanUp_settles a').allCompleted_iff]
    have hm := c'.error h2
    have hh : (NonblockingReceiver.receive lib
        (NonblockingSender.send lib (s.supply io)).2).2.sender.handler =
        (NonblockingSender.send lib (s.supply io)).2.sender.handler := by rw [b'.sender]
    have hqueue := fun hi => receive_queue_iff a a' b' hrec (c.idle hi).2.2 (c.idle hi).2.1
      (b.failed.trans hf')
    constructor
    · rintro ⟨hq, hn, -⟩
      cases hst1 : (NonblockingSender.send lib (s.supply io)).1 with
      | idle => exact .inr ⟨rfl, (hqueue hst1).1 hq⟩
      | ioWait => exact absurd (hh.symm.trans hn) (c.ioWait hst1).2
      | error => exact absurd hst1 h1
    · rintro (⟨he, -⟩ | ⟨hi, hq⟩)
      · exact absurd he h1
      · exact ⟨(hqueue hi).2 hq, hh.trans (c.idle hi).2.1, hm⟩
  · rw [he] at hr; cases hr

/-- The first request is sent, the second finds the connection broken. -/
def brokenAfterOne : List Op :=
  [.submit [] {} {} [], .run { writes := [.count 1, .count 4, .count 4, .count 8] } ⟨[], [], 0⟩,
    .submit [] {} {} []]

theorem failure_completes_iff_brokenAfterOne :
    let s := play Codec.plain (create 5 1 [] 0) brokenAfterOne
    ¬ (AllCompleted ((s.supply { writes := [.error] }).run Codec.plain ⟨[], [], 0⟩).2.2 ∧
      ShutDown Codec.plain
        ((s.supply { writes := [.error] }).run Codec.plain ⟨[], [], 0⟩).2.2) := by
  intro s
  rw [failure_completes_iff (reachable_session _ (by decide +kernel)) _ _ (by decide +kernel)
    (by decide +kernel)]
  decide +kernel

/-- The request that waits for its response when a write fails is left behind. -/
theorem failure_leaves_awaiting :
    ¬ ∀ (lib : Lib) (s : NonblockingPacketService) (io : Io) (fds : FdSets),
      (service lib).Reachable s → s.failed = false → ((s.supply io).run lib fds).1 = false →
      AllCompleted ((s.supply io).run lib fds).2.2 ∧
        ShutDown lib ((s.supply io).run lib fds).2.2 := by
  intro hall
  obtain ⟨h, -⟩ := hall Codec.plain (play Codec.plain (create 5 1 [] 0) brokenAfterOne)
    { writes := [.error] } ⟨[], [], 0⟩ (reachable_session _ (by decide +kernel))
    (by decide +kernel) (by decide +kernel)
  have h0 := h 0 (by decide +kernel) (by decide +kernel)
  revert h0
  decide +kernel

end Kinetic.L2
