import Kinetic.L2Service.Responses
import Kinetic.L3Client.Blocking

/-!
# After a blocking operation has returned

An operation that gives up calls `RemoveHandler`, which finds its handler in the
sender's queue or with the receiver (`remove_reaches`). It does not find the one
whose request the sender is in the middle of writing: that handler stays with the
sender, the connection is still good after a timeout, and a later operation goes
on with the packet and calls it (`untouched_iff`).
-/
open Kinetic.Core

namespace Kinetic.L3

open L1 L2 NonblockingPacketService

variable {lib : Lib} {s t u v : NonblockingPacketService} {h : Nat}

/-- No later operation and no destruction calls the callback of handler `h`. -/
def Untouched (lib : Lib) (h : Nat) (t : NonblockingPacketService) : Prop :=
  ∀ ops, SessionDefined lib t ops →
    callsOf h (session lib t ops).log = callsOf h t.log ∧
    callsOf h ((session lib t ops).destroy lib).log = callsOf h t.log

/-- The sender is in the middle of the packet of handler `h`, and a further
operation can go on with it. -/
def MidPacket (h : Nat) (t : NonblockingPacketService) : Prop :=
  t.sender.handler = some h ∧ t.failed = false ∧ t.sender.sequenceNumber < 2 ^ 63 - 1

instance : Decidable (MidPacket h t) := inferInstanceAs (Decidable (_ ∧ _))

/-! ## What RemoveHandler reaches -/

/-- **Remove** finds a handler wherever it is, except with the sender. -/
theorem remove_reaches (hi : Inv s) (hq : Quiet s) {x : Nat} (hx : x ∈ issued s.log) :
    x ∈ settled (s.remove x).2.log ∨ x ∈ withdrawn (s.remove x).2.log ∨
      (s.remove x).2.sender.handler = some x := by
  obtain ⟨new, hl, -⟩ := (remove_moves Codec.plain hi x).frame.log
  by_cases hheld : x ∈ held s
  · simp only [held, List.mem_append, List.mem_map, Option.mem_toList] at hheld
    have hqueue : ∀ r ∈ s.sender.requestQueue, r.handler = x →
        s.sender.requestQueue.find? (·.handlerKey == x) ≠ none := by
      intro r hr hx hf
      have := List.find?_eq_none.1 hf r hr
      rw [(hi.queue r hr).key, hx] at this
      simp at this
    have hmap : ∀ key, (x, key) ∈ Dict.values s.receiver.map →
        s.receiver.handlerToMessageSeqMap.find x ≠ none := by
      intro key hy hn
      obtain ⟨seq, hseq⟩ := Dict.mem_values_iff.1 hy
      obtain ⟨-, rfl, -⟩ := hi.map seq x key hseq
      rw [hq.awaiting seq key key hseq] at hn
      cases hn
    have hrem := removal x s
    generalize s.remove x = out at hrem ⊢
    cases hrem with
    | @queued r hf =>
      have hr : r.handler = x := by
        rw [← (hi.queue r (List.mem_of_find?_eq_some hf)).key]
        simpa using List.find?_some hf
      exact .inr (.inl (by simp [withdrawn, hr]))
    | unknown hf hb =>
      rcases hheld with ⟨r, hr, hx⟩ | hx | ⟨⟨y, key⟩, hy, rfl⟩
      · exact absurd hf (hqueue r hr hx)
      · exact .inr (.inr hx)
      · exact absurd hb (hmap key hy)
    | @awaiting seq y _ _ hm =>
      obtain ⟨-, rfl, -⟩ := hi.map seq y x hm
      exact .inr (.inl (by simp [withdrawn]))
    | broken hb hn =>
      obtain ⟨y, hm⟩ := hi.back x _ hb
      exact absurd hm (hn y)
  · rw [hl, settled_append, withdrawn_append]
    rcases hi.ledger.accounted hx hheld with hs | hw
    · exact .inl (List.mem_append_left _ hs)
    · exact .inr (.inl (List.mem_append_left _ hw))

/-- **A returned operation** has had its callback called, or has taken its
handler back, or has left it with the sender. -/
theorem perform_returned (hs : Steady lib s) (op : Operation) (hd : op.Defined lib s)
    (hr : (op.perform lib s).1.isSome) :
    s.handlers ∈ settled (op.perform lib s).2.log ∨
      s.handlers ∈ withdrawn (op.perform lib s).2.log ∨
      (op.perform lib s).2.sender.handler = some s.handlers := by
  obtain ⟨ops₁, h₁⟩ := submit_run op hd
  obtain ⟨-, hs₁⟩ := run_steps h₁ hs
  obtain ⟨hiss, hkey⟩ := submit_issued hs op hd
  obtain ⟨ops₂, h₂⟩ := wait_run hd.2.2
  obtain ⟨hst₂, hs₂⟩ := run_steps h₂ hs₁
  obtain ⟨new, hl⟩ := steps_log hst₂ hs₁.inv
  unfold Operation.perform runOperation at hr ⊢
  cases he : wait lib s.handlers op.first op.turns op.fds (op.submit lib s) with
  | mk exit w =>
  rw [he] at hr hs₂ hl
  dsimp only at hr hs₂ hl ⊢
  -- the exits that call RemoveHandler
  have hleave : s.handlers ∈ settled (w.remove s.nextKey).2.log ∨
      s.handlers ∈ withdrawn (w.remove s.nextKey).2.log ∨
      (w.remove s.nextKey).2.sender.handler = some s.handlers := by
    rcases hkey with hset | hkey
    · obtain ⟨new', hn, -⟩ := (remove_moves lib hs₂.inv s.nextKey).frame.log
      rw [hn, settled_append, hl, settled_append]
      exact .inl (List.mem_append_left _ (List.mem_append_left _ hset))
    · rw [hkey]
      refine remove_reaches hs₂.inv hs₂.quiet ?_
      rw [hl, issued_append]
      exact List.mem_append_left _ hiss
  match exit with
  | none => cases hr
  | some .done => exact .inl ((done_iff hs₂.inv).1 (wait_done he))
  | some .connectionFailed => exact hleave
  | some (.selectFailed message) => exact hleave
  | some .timedOut => exact hleave

/-! ## Afterwards -/

theorem untouched_settled (hv : Inv v) {new : List Event} (hl : v.log = t.log ++ new)
    (hh : h ∈ settled t.log) : callsOf h v.log = callsOf h t.log := by
  have h1 := callsOf_length h t.log
  have h2 := callsOf_length h v.log
  have h3 := hv.ledger.settled_once h
  have h4 := List.count_pos_iff.2 hh
  rw [hl, callsOf_append, List.length_append] at h2
  rw [hl, callsOf_append, List.eq_nil_of_length_eq_zero (l := callsOf h new) (by
    rw [← hl] at h2; omega), List.append_nil]

theorem untouched_withdrawn (hv : Inv v) {new : List Event} (hl : v.log = t.log ++ new)
    (hh : h ∈ withdrawn t.log) : callsOf h v.log = callsOf h t.log := by
  have hw : h ∈ withdrawn v.log := by
    rw [hl, withdrawn_append]
    exact List.mem_append_left _ hh
  have hn : callsOf h v.log = [] := callsOf_eq_nil.2 fun hs => hv.ledger.not_both hs hw
  have hn' := hn
  rw [hl, callsOf_append] at hn'
  rw [hn, (List.append_eq_nil_iff.1 hn').1]

theorem untouched_current (hq : Quiet v) {new : List Event} (hl : v.log = t.log ++ new)
    (hh : v.sender.handler = some h) : callsOf h v.log = callsOf h t.log := by
  have hn : callsOf h v.log = [] := callsOf_eq_nil.2 (hq.current h hh)
  have hn' := hn
  rw [hl, callsOf_append] at hn'
  rw [hn, (List.append_eq_nil_iff.1 hn').1]

theorem run_keeps {ops : List Op} (hr : (service lib).Run t ops v) (ht : Steady lib t)
    (hf : t.failed = true) : v.sender.handler = t.sender.handler := by
  induction hr with
  | nil => rfl
  | @cons s u w op ops hs _ ih =>
    obtain ⟨hd, rfl⟩ := hs
    refine (ih (apply_steady _ ht hd).2 (apply_failed ht hf _)).trans ?_
    cases op with
    | submit scripts m c x =>
      obtain ⟨-, h2⟩ := scripts_steady scripts ht
      exact (submit_moves (fun c s hc => complete_moves lib c hc) h2.inv m c x
        (by simp [submitDefined, hf])).frame.handler
    | remove key => exact (remove_moves lib ht.inv key).frame.handler
    | run io fds =>
      have hf' : (s.supply io).failed = true := hf
      simp only [Op.apply, NonblockingPacketService.run, hf', if_true]
      rfl

/-- Where the sender's handler stays put, it is not called. -/
theorem session_keeps (ht : Steady lib t) (hh : t.sender.handler = some h)
    (hm : ¬ MidPacket h t) (ops : List Operation) (hd : SessionDefined lib t ops) :
    (session lib t ops).sender.handler = some h := by
  cases hf : t.failed with
  | true =>
    obtain ⟨ops', hr⟩ := session_run ops hd
    rw [run_keeps hr ht hf, hh]
  | false =>
    cases ops with
    | nil => exact hh
    | cons op ops =>
      have hlt := hd.1.2.1
      simp only [submitDefined, hf, Bool.false_or, decide_eq_true_eq] at hlt
      exact absurd ⟨hh, hf, hlt⟩ hm

theorem untouched (hs : Steady lib s) (op : Operation) (hd : op.Defined lib s)
    (hr : (op.perform lib s).1.isSome) (hm : ¬ MidPacket s.handlers (op.perform lib s).2) :
    Untouched lib s.handlers (op.perform lib s).2 := by
  have hret := perform_returned hs op hd hr
  obtain ⟨ops₁, h₁⟩ := perform_run op hd
  obtain ⟨-, ht⟩ := run_steps h₁ hs
  generalize (op.perform lib s).2 = t at hret hm ht ⊢
  intro ops hops
  obtain ⟨ops', hr⟩ := session_run ops hops
  obtain ⟨hsv, hv⟩ := run_steps hr ht
  obtain ⟨hset, -, -, hcur⟩ := destroy_moves hv.inv hv.quiet
  obtain ⟨new, hl⟩ := steps_log hsv ht.inv
  obtain ⟨new', hl'⟩ := steps_log (hsv.trans hset.steps) ht.inv
  rcases hret with hh | hh | hh
  · exact ⟨untouched_settled hv.inv hl hh, untouched_settled hset.inv hl' hh⟩
  · exact ⟨untouched_withdrawn hv.inv hl hh, untouched_withdrawn hset.inv hl' hh⟩
  · have hk := session_keeps ht hh hm ops hops
    exact ⟨untouched_current hv.quiet hl hk, untouched_current hset.quiet hl' (hcur.trans hk)⟩

/-! ## The packet that is left -/

/-- A further operation that finds the connection broken. -/
def breaking : Operation where
  connection := ⟨⟨0⟩⟩
  call := .noOp
  first := { fstats := [false] }
  turns := []
  fds := ⟨[], [], 0⟩

/-- A `Run` that finds the connection broken calls the handler whose packet is
being written. -/
theorem run_broken (hu : Steady lib u) (hh : u.sender.handler = some h) (hf : u.failed = false)
    (fds : FdSets) :
    ((u.supply breaking.first).run lib fds).1 = false ∧
      h ∈ settled ((u.supply breaking.first).run lib fds).2.2.log := by
  obtain ⟨-, h2⟩ := supply_steady breaking.first hu
  have hw : (u.supply breaking.first).sender.currentWriter ≠ none := by
    intro hn
    have := (h2.paired hf).1 hn
    rw [show (u.supply breaking.first).sender.handler = some h from hh] at this
    cases this
  obtain ⟨w, hcw⟩ := Option.ne_none_iff_exists'.1 hw
  obtain ⟨v, hsend, hi, hq, hv, hcv⟩ : ∃ v,
      NonblockingSender.send lib (u.supply breaking.first) =
        (.error, NonblockingSender.writeFailed lib v) ∧ Inv v ∧ Quiet v ∧
      v.sender.handler = some h ∧ v.sender.currentWriter ≠ none := by
    refine ⟨{ u.supply breaking.first with
      socket := { (u.supply breaking.first).socket with fstats := [] }
      sender.currentWriter := some w }, ?_, ?_, ?_, hh, Option.some_ne_none w⟩
    · simp only [NonblockingSender.send, NonblockingSender.sendLoop, NonblockingSender.startNext,
        hcw]
      rfl
    · exact h2.inv.frame rfl rfl rfl rfl rfl rfl rfl id rfl rfl rfl rfl rfl
    · exact ⟨h2.quiet.receiver, h2.quiet.awaiting, h2.quiet.current⟩
  have hsettles : h ∈ settled (NonblockingSender.send lib (u.supply breaking.first)).2.log := by
    rw [hsend]
    exact (writeFailed_moves hi hq hv hcv).2.2.2.2.2
  have hf' : (u.supply breaking.first).failed = false := hf
  rcases run_cases hf' fds with ⟨-, he⟩ | ⟨hne, -⟩ | ⟨hne, -⟩
  · rw [he]
    exact ⟨rfl, hsettles⟩
  · rw [hsend] at hne; exact absurd rfl hne
  · rw [hsend] at hne; exact absurd rfl hne

/-- **A later operation** calls the callback of the one that left its packet. -/
theorem breaking_settles (ht : Steady lib t) (hm : MidPacket h t) :
    breaking.Defined lib t ∧ h ∈ settled (breaking.perform lib t).2.log := by
  obtain ⟨hh, hf, hlt⟩ := hm
  have hsd : t.submitDefined = true := by
    simp only [submitDefined, hf, Bool.false_or, decide_eq_true_eq]
    exact hlt
  obtain ⟨-, h2⟩ := scripts_steady [] ht
  have hsub := submit_moves (s := { t with scripts := [] })
    (fun c s hc => complete_moves lib c hc) h2.inv
    hmacMessage ((⟨0⟩ : NonblockingKineticConnection).newCommand .noop) [] hsd
  have hu : Steady lib (breaking.submit lib t) := hsub.steady h2
  obtain ⟨hfail, hset⟩ := run_broken hu (hsub.frame.handler.trans hh)
    (hsub.frame.failed.trans hf) breaking.fds
  have hd : breaking.Defined lib t := by
    refine ⟨rfl, hsd, fun u hmem => ?_⟩
    rw [runs_failed hfail, List.mem_singleton] at hmem
    rw [hmem]
    exact runDefined_failed hfail
  refine ⟨hd, ?_⟩
  obtain ⟨-, h3⟩ := supply_steady breaking.first hu
  have hrun := (run_steady h3 breaking.fds).2
  obtain ⟨new, hl, -⟩ := (remove_moves lib hrun.inv t.nextKey).frame.log
  unfold Operation.perform runOperation
  rw [wait_failed _ hfail]
  show h ∈ settled (remove t.nextKey _).2.log
  rw [hl, settled_append]
  exact List.mem_append_left _ hset

/-- **A returned operation touches its outputs no more** exactly when the sender
is not in the middle of its packet as it returns, on a connection that goes on. -/
theorem untouched_iff (h : (service lib).Reachable s) (op : Operation) (hd : op.Defined lib s)
    (hr : (op.perform lib s).1.isSome) :
    Untouched lib s.handlers (op.perform lib s).2 ↔
      ¬ MidPacket s.handlers (op.perform lib s).2 := by
  refine ⟨fun hun hm => ?_, untouched (steady h) op hd hr⟩
  obtain ⟨ops, hrun⟩ := perform_run op hd
  obtain ⟨-, ht⟩ := run_steps hrun (steady h)
  obtain ⟨hbd, hset⟩ := breaking_settles ht hm
  obtain ⟨h1, -⟩ := hun [breaking] ⟨hbd, fun _ => trivial⟩
  have h2 : session lib (op.perform lib s).2 [breaking] =
      (breaking.perform lib (op.perform lib s).2).2 := by
    unfold session
    split
    all_goals rename_i he; rw [he]
    rfl
  rw [h2, callsOf_eq_nil.2 (ht.quiet.current _ hm.1)] at h1
  exact callsOf_eq_nil.1 h1 hset

/-- The request is written but for a part, then the network times out. -/
def timedOut : Operation where
  connection := ⟨⟨0⟩⟩
  call := .getS [107]
  first := { writes := [.count 1] }
  turns := [⟨.timeout, {}⟩]
  fds := ⟨[], [], 0⟩

theorem untouched_iff_timedOut :
    let s := create 5 1 [] 0
    (timedOut.perform Codec.plain s).1 = some ⟨.clientIoError, "Network timeout", 0⟩ ∧
    ¬ Untouched Codec.plain s.handlers (timedOut.perform Codec.plain s).2 := by
  intro s
  have hs : (service Codec.plain).Reachable s := reachable_session [] trivial
  refine ⟨by decide +kernel, ?_⟩
  rw [untouched_iff hs timedOut (by decide +kernel) (by decide +kernel), not_not]
  decide +kernel

/-- The next operation writes the rest, and the response to the first one comes. -/
def finishing : Operation where
  connection := ⟨⟨0⟩⟩
  call := .noOp
  first := {
    writes := List.replicate 12 (.count 100)
    arrives := stream [reply none 0 .success [7]]
    reads := List.replicate 8 (.count 100) }
  turns := [⟨.timeout, {}⟩]
  fds := ⟨[], [], 0⟩

/-- The operation that timed out is called back in the next one, and its record
is written to after it has returned. -/
theorem timedOut_touched :
    let s := create 5 1 [] 0
    let t := (timedOut.perform Codec.plain s).2
    let u := session Codec.plain t [finishing]
    outputs timedOut.call.callback {} s.handlers t.log = {} ∧
    outputs timedOut.call.callback {} s.handlers u.log =
      { record := some ⟨some [7], some [], some [], .invalidAlgorithm⟩ } ∧
    ¬ ∀ (lib : Lib) (s : NonblockingPacketService) (op : Operation), (service lib).Reachable s →
      op.Defined lib s → (op.perform lib s).1.isSome →
      Untouched lib s.handlers (op.perform lib s).2 := by
  intro s t u
  refine ⟨by decide +kernel, by decide +kernel, fun hall => ?_⟩
  have hun := hall Codec.plain s timedOut (reachable_session [] trivial) (by decide +kernel)
    (by decide +kernel)
  obtain ⟨h1, -⟩ := hun [finishing] ⟨by decide +kernel, fun _ => trivial⟩
  have h2 := congrArg List.length h1
  revert h2
  decide +kernel

end Kinetic.L3
