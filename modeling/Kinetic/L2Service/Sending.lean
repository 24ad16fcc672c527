import Kinetic.L1Wire.Progress
import Kinetic.L2Service.System

/-!
# How Send gets on

Between two operations the packet under way still has bytes to write
(`midway`), and a `Run` on a writable descriptor that finds something to send gets
a byte of it out, or fails (`run_progress`). What has been sent stays sent.
-/
open Kinetic.Core

namespace Kinetic.L2

open L1 NonblockingPacketService

variable {lib : Lib} {s t : NonblockingPacketService}

/-! ## What has been sent stays sent -/

theorem Step.sent_prefix (h : Step lib s t) : s.socket.sent <+: t.socket.sent := by
  cases h with
  | environment _ _ hs => exact (congrArg _ hs).mpr (List.prefix_refl _)
  | @write w w' st k _ _ hwr =>
    obtain ⟨out, hg, -⟩ := w.write_spec lib s.socket
    rw [hwr] at hg
    exact ⟨out, hg.sent.symm⟩
  | @read s' r st hrd _ =>
    have := (readResponse_frame lib r s).sent
    rw [hrd] at this
    exact this ▸ List.prefix_refl _
  | @deliver s' r command ack x key hrd _ _ _ _ =>
    have := (readResponse_frame lib r s).sent
    rw [hrd] at this
    obtain ⟨v, hv⟩ := answered_eq ack x key (NonblockingReceiver.noteCommand command s')
    rw [hv]
    exact this ▸ List.prefix_refl _
  | @drop s' r _ _ hrd _ _ _ =>
    have := (readResponse_frame lib r s).sent
    rw [hrd] at this
    exact this ▸ List.prefix_refl _
  | @reject s' r _ _ _ hrd =>
    have := (readResponse_frame lib r s).sent
    rw [hrd] at this
    exact this ▸ List.prefix_refl _
  | _ => exact List.prefix_refl _

theorem Steps.sent_prefix (h : Steps lib s t) : s.socket.sent <+: t.socket.sent := by
  induction h with
  | refl => exact List.prefix_refl _
  | tail _ hst ih => exact ih.trans hst.sent_prefix

/-! ## One call of Send -/

theorem startNext_rest {w : NonblockingPacketWriter} (hs : NonblockingSender.startNext s = some (w, t))
    (hmid : ∀ w, s.sender.currentWriter = some w → w.writer.rest ≠ []) :
    w.writer.rest ≠ [] ∧ t.socket = s.socket := by
  unfold NonblockingSender.startNext at hs
  split at hs
  · rename_i w' hw
    obtain ⟨rfl, rfl⟩ := Prod.mk.inj (Option.some.inj hs)
    exact ⟨hmid _ hw, rfl⟩
  · split at hs
    · cases hs
    · obtain ⟨rfl, rfl⟩ := Prod.mk.inj (Option.some.inj hs)
      refine ⟨?_, rfl⟩
      rw [NonblockingPacketWriter.create, NonblockingStringWriter.rest_fresh]
      exact List.cons_ne_nil _ _

/-- **One turn of `Send`**, by what the write does. -/
theorem sendLoop_turn (h : Inv s) (hq : Quiet s) (hp : Paired s) (hf : s.failed = false) {fuel : Nat}
    (hfuel : s.packets < fuel + 1) {w : NonblockingPacketWriter} {s₁ : NonblockingPacketService}
    (hs : NonblockingSender.startNext s = some (w, s₁)) {st : NonblockingStringStatus}
    {w' : NonblockingPacketWriter} {k : Socket} (hwr : w.write lib s₁.socket = (st, w', k)) :
    let t := { s₁ with socket := k, sender.currentWriter := some w' }
    (st = .inProgress → NonblockingSender.sendLoop lib (fuel + 1) s = (.ioWait, t)) ∧
    (st = .failed → (NonblockingSender.sendLoop lib (fuel + 1) s).1 = .error) ∧
    (st = .done → ∃ u, NonblockingSender.sendLoop lib (fuel + 1) s =
      NonblockingSender.sendLoop lib fuel u ∧ u.socket = k ∧ (∃ x, u.log = s.log ++ [.written x]) ∧
      Steps lib s u ∧ Steps lib t u ∧ Inv u ∧ Quiet u ∧ Paired u ∧ u.failed = false ∧
      u.packets < fuel) := by
  dsimp only
  rcases startNext_moves lib h hq hp hf with ⟨he, -⟩ | ⟨w₀, x, s₂, he, hw, hx, hset, hfr, hlog, hpk⟩
  · rw [hs] at he; cases he
  rw [hs] at he
  obtain ⟨rfl, rfl⟩ := Prod.mk.inj (Option.some.inj he)
  have hloop : ∀ out, NonblockingSender.sendLoop lib (fuel + 1) s = out ↔ (match st with
      | .inProgress => (.ioWait, { s₁ with socket := k, sender.currentWriter := some w' })
      | .failed => (.error, NonblockingSender.writeFailed lib
          { s₁ with socket := k, sender.currentWriter := some w' })
      | .done => NonblockingSender.sendLoop lib fuel (NonblockingSender.finishRequest lib
          { s₁ with socket := k, sender.currentWriter := some w' })) = out := by
    intro out
    simp only [NonblockingSender.sendLoop, hs, hwr]
    cases st <;> rfl
  refine ⟨?_, ?_, ?_⟩
  · rintro rfl
    exact (hloop _).2 rfl
  · rintro rfl
    rw [(hloop _).2 rfl]
  · rintro rfl
    obtain ⟨out, -, -, hfull⟩ := w.write_spec lib s₁.socket
    rw [hwr] at hfull
    have hf₁ : s₁.failed = false := hfr.failed.trans hf
    have hstep : Step lib s₁ { s₁ with socket := k, sender.currentWriter := some w' } :=
      .write hf₁ hw hwr
    have hq₁ : Quiet { s₁ with socket := k, sender.currentWriter := some w' } :=
      ⟨hset.quiet.receiver, hset.quiet.awaiting, hset.quiet.current⟩
    obtain ⟨hfin, a⟩ := finishRequest_moves (hset.inv.step hstep) hq₁ hf₁ rfl (hfull rfl) (x := x) hx
    refine ⟨_, (hloop _).2 rfl, by rw [hfin], ⟨x, by rw [hfin, ← hlog]⟩,
      (hset.steps.tail hstep).trans a.steps, a.steps, a.inv, a.quiet, ?_, ?_, ?_⟩
    · rw [hfin]; simp [Paired]
    · rw [hfin]; exact hf₁
    · have : s₁.packets = (NonblockingSender.finishRequest lib
          { s₁ with socket := k, sender.currentWriter := some w' }).packets + 1 := by
        rw [hfin]
        simp [packets, work, pendingActions, hw]
      omega

theorem sendLoop_waits (fuel : Nat) (h : Inv s) (hq : Quiet s) (hp : Paired s) (hf : s.failed = false)
    (hfuel : s.packets < fuel) (hwait : (NonblockingSender.sendLoop lib fuel s).1 = .ioWait) :
    ∀ w, (NonblockingSender.sendLoop lib fuel s).2.sender.currentWriter = some w →
      w.writer.rest ≠ [] := by
  induction fuel generalizing s with
  | zero => omega
  | succ fuel ih =>
    cases hs : NonblockingSender.startNext s with
    | none => simp [NonblockingSender.sendLoop, hs] at hwait
    | some p =>
      obtain ⟨w₀, s₁⟩ := p
      cases hwr : w₀.write lib s₁.socket with
      | mk st wk =>
      obtain ⟨w', k⟩ := wk
      obtain ⟨h1, h2, h3⟩ := sendLoop_turn h hq hp hf hfuel hs hwr
      cases st with
      | inProgress =>
        rw [h1 rfl]
        intro w hw
        obtain rfl := Option.some.inj hw
        have := NonblockingPacketWriter.write_pending lib (w := w₀) (k := s₁.socket) (by rw [hwr])
        rwa [hwr] at this
      | failed => rw [h2 rfl] at hwait; cases hwait
      | done =>
        obtain ⟨u, he, -, -, -, -, hi, hq', hp', hf', hlt⟩ := h3 rfl
        rw [he] at hwait ⊢
        exact ih hi hq' hp' hf' hlt hwait

/-- **Send on a writable descriptor** gets a byte out, if it has one, or fails. -/
theorem send_progress (lib : Lib) (h : Inv s) (hq : Quiet s) (hp : Paired s) (hf : s.failed = false)
    (hmid : ∀ w, s.sender.currentWriter = some w → w.writer.rest ≠ [])
    (hk : Socket.Writable s.socket.writes)
    (hwork : s.sender.currentWriter ≠ none ∨ s.sender.requestQueue ≠ []) :
    (NonblockingSender.send lib s).1 = .error ∨
      s.socket.sent.length < (NonblockingSender.send lib s).2.socket.sent.length := by
  unfold NonblockingSender.send
  cases hs : NonblockingSender.startNext s with
  | none =>
    unfold NonblockingSender.startNext at hs
    split at hs
    · cases hs
    · rename_i hw
      split at hs
      · rename_i hr
        exact absurd hr (hwork.resolve_left fun hne => hne hw)
      · cases hs
  | some p =>
    obtain ⟨w₀, s₁⟩ := p
    obtain ⟨hrest, hsock⟩ := startNext_rest hs hmid
    cases hwr : w₀.write lib s₁.socket with
    | mk st wk =>
    obtain ⟨w', k⟩ := wk
    obtain ⟨h1, h2, h3⟩ := sendLoop_turn h hq hp hf (Nat.lt_of_lt_of_le (packets_lt s) (Nat.le_refl _))
      hs hwr
    have hprog := NonblockingPacketWriter.write_progress lib (w := w₀) (k := s₁.socket)
      (by rw [hsock]; exact hk) hrest
    rw [hwr, hsock] at hprog
    dsimp only at hprog
    cases st with
    | inProgress =>
      rw [h1 rfl]
      exact .inr (hprog.resolve_left (by simp))
    | failed => exact .inl (h2 rfl)
    | done =>
      obtain ⟨u, he, -, -, -, hst, hi, hq', hp', hf', hlt⟩ := h3 rfl
      rw [he]
      have hle := (Steps.sent_prefix
        (hst.trans (sendLoop_moves _ hi hq' hp' hf' hlt).1.steps)).length_le
      exact .inr (Nat.lt_of_lt_of_le (hprog.resolve_left (by simp)) hle)

/-! ## Runs -/

/-- The packet under way has bytes to write. -/
def Midway (s : NonblockingPacketService) : Prop :=
  s.failed = false → ∀ w, s.sender.currentWriter = some w → w.writer.rest ≠ []

theorem run_midway (hst : Steady lib s) (fds : FdSets) (h : Midway s) :
    Midway (s.run lib fds).2.2 := by
  cases hf : s.failed with
  | true => simpa [NonblockingPacketService.run, hf] using h
  | false =>
    obtain ⟨a, b, c, -, a', b', -⟩ := sendReceive_moves hst hf
    rcases run_cases hf fds with ⟨-, he⟩ | ⟨-, -, he⟩ | ⟨h1, -, he⟩
    · rw [he]; intro hf'; cases hf'
    · rw [he]; intro hf'; cases hf'
    · rw [he]
      intro _ w hw
      rw [b'.sender] at hw
      have hwait : (NonblockingSender.send lib s).1 = .ioWait := by
        cases hs : (NonblockingSender.send lib s).1 with
        | ioWait => rfl
        | error => exact absurd hs h1
        | idle =>
          have := (c.idle hs).1
          rw [this] at hw; cases hw
      exact sendLoop_waits _ hst.inv hst.quiet (hst.paired hf) hf (packets_lt s) hwait w hw

theorem Moves.midway (hm : Moves lib s t) (h : Midway s) : Midway t := by
  intro hf w hw
  rw [hm.frame.failed] at hf
  rw [hm.frame.currentWriter] at hw
  exact h hf w hw

theorem apply_midway (op : Op) (hst : Steady lib s) (hd : op.Defined lib s) (h : Midway s) :
    Midway (op.apply lib s) := by
  cases op with
  | submit scripts m c v =>
    have h2 := (scripts_steady scripts hst).2
    exact (submit_moves (fun c s hc => complete_moves lib c hc) h2.inv m c v hd).midway h
  | remove key => exact (remove_moves lib hst.inv key).midway h
  | run io fds => exact run_midway (supply_steady io hst).2 fds h

theorem midway (h : (service lib).Reachable s) : Midway s := by
  refine (LTS.Inductive.reachable (M := service lib) (P := fun s => Steady lib s ∧ Midway s)
    ⟨fun s h0 => ⟨h0.steady, fun _ w hw => ?_⟩, ?_⟩ s h).2
  · rw [h0.currentWriter] at hw; cases hw
  · rintro s op t ⟨hs, hp⟩ ⟨hd, rfl⟩
    exact ⟨(apply_steady op hs hd).2, apply_midway op hs hd hp⟩

/-- **Run on a writable descriptor** gets a byte out, if there is one, or fails. -/
theorem run_progress (h : (service lib).Reachable s) (hf : s.failed = false) {io : Io} (fds : FdSets)
    (hk : Socket.Writable io.writes)
    (hwork : s.sender.currentWriter ≠ none ∨ s.sender.requestQueue ≠ []) :
    ((s.supply io).run lib fds).2.2.failed = true ∨
      s.socket.sent.length < ((s.supply io).run lib fds).2.2.socket.sent.length := by
  have hst := (supply_steady io (steady h)).2
  have hprog := send_progress lib hst.inv hst.quiet (hst.paired hf) hf
    (fun w hw => midway h hf w hw) hk hwork
  obtain ⟨-, -, -, -, a', b', -⟩ := sendReceive_moves hst hf
  rcases run_cases (s := s.supply io) hf fds with ⟨-, he⟩ | ⟨-, -, he⟩ | ⟨h1, -, he⟩
  · rw [he]; exact .inl rfl
  · rw [he]; exact .inl rfl
  · rw [he]
    refine .inr ?_
    rw [b'.sent]
    exact hprog.resolve_left h1

end Kinetic.L2
