import Kinetic.L2Service.Callbacks
import Kinetic.L2Service.System

/-!
# What handlers are told

A handler is given `Handle` for a response whose status is `SUCCESS`, and
`Error` either with the translated status of some other response or, without a
response, with one of the statuses that the client makes up itself. None of
these is `OK`, and the one for a handler that could not be registered is not
among them: `Enqueue` of the receiver always has room (`sound`).
-/
open Kinetic.Core

namespace Kinetic.L2

open L1 NonblockingPacketService

/-- The statuses without a response. -/
def clientStatuses : List KineticStatus :=
  [alreadyShutDown, ⟨.clientShutdown, "Sender shutdown", 0⟩,
    ⟨.clientShutdown, "Receiver shutdown", 0⟩, ⟨.clientIoError, "I/O write error", 0⟩,
    ⟨.clientIoError, "I/O read error", 0⟩,
    ⟨.clientIoError, "I/O read error parsing proto::Command", 0⟩,
    ⟨.clientResponseHmacVerificationError, "Response HMAC mismatch", 0⟩,
    ⟨.protocolErrorResponseNoAcksequence, "Response had no acksequence", 0⟩]

/-- A call that the client makes. -/
def Completion.Reported : Completion → Prop
  | .handle _ c _ => c.getStatusCode = .success
  | .error _ st none => st ∈ clientStatuses
  | .error _ st (some c) => c.getStatusCode ≠ .success ∧
    st = getKineticStatus (convertFromProtoStatus c.getStatusCode) c.getClusterVersion

def Sound (s : NonblockingPacketService) : Prop := ∀ c ∈ completions s.log, c.Reported

theorem Completion.Reported.code_ne_ok {h : Nat} {st : KineticStatus} {r : Option Command}
    (hr : (Completion.error h st r).Reported) : st.code ≠ .ok := by
  cases r with
  | none =>
    intro hok
    simp only [Completion.Reported, clientStatuses, alreadyShutDown, List.mem_cons,
      List.not_mem_nil, or_false] at hr
    rcases hr with rfl | rfl | rfl | rfl | rfl | rfl | rfl | rfl <;> cases hok
  | some c =>
    obtain ⟨hne, rfl⟩ := hr
    rw [getKineticStatus_code]
    exact fun hok => hne ((convertFromProtoStatus_ok _).1 hok)

variable {lib : Lib} {s t : NonblockingPacketService}

namespace Sound

theorem append (h : Sound s) {l : List Event} (ht : t.log = s.log ++ l)
    (hnew : completions l = []) : Sound t := by
  intro c hc
  rw [ht, completions_append, hnew, List.append_nil] at hc
  exact h c hc

theorem of_log (h : Sound s) (ht : t.log = s.log) : Sound t :=
  h.append (l := []) (by simp [ht]) rfl

theorem emit (h : Sound s) {c : Completion} (hc : c.Reported) : Sound (s.emit (.completed c)) := by
  intro c' h'
  rw [emit_log, completions_append, List.mem_append] at h'
  rcases h' with h' | h'
  · exact h c' h'
  · rwa [List.mem_singleton.1 h']

/-! ## Callbacks -/

theorem remove (h : Sound s) (key : Nat) : Sound (s.remove key).2 := by
  have hrem := removal key s
  generalize s.remove key = out at hrem ⊢
  cases hrem with
  | queued _ => exact h.append rfl rfl
  | unknown _ _ => exact h
  | awaiting _ _ _ => exact h.append rfl rfl
  | broken _ _ => exact h.append rfl rfl

theorem kept : Kept lib Completion.Reported Sound where
  shutDown := fun _ => by simp [Completion.Reported, clientStatuses, alreadyShutDown]
  call := fun _ _ hc h => h.emit hc
  scripts := fun _ _ h => h.of_log rfl
  count := fun _ h => h.of_log rfl
  accept := fun _ _ _ _ _ _ h => h.append rfl rfl
  refuse := fun _ _ _ h => h.append rfl rfl
  remove := fun _ key h => h.remove key

theorem complete {c : Completion} (hc : c.Reported) (h : Sound s) : Sound (L2.complete lib c s) :=
  kept.complete hc h

/-! ## Send -/

theorem failQueue {status : KineticStatus} (hs : status ∈ clientStatuses) (fuel : Nat)
    (h : Sound s) : Sound (NonblockingSender.failQueue lib status fuel s) := by
  induction fuel generalizing s with
  | zero => exact h
  | succ fuel ih =>
    unfold NonblockingSender.failQueue
    split
    · exact h
    · exact ih (Sound.complete hs (h.of_log rfl))

theorem writeFailed (h : Sound s) {x : Nat} (hx : s.sender.handler = some x) :
    Sound (NonblockingSender.writeFailed lib s) := by
  have hst : (⟨.clientIoError, "I/O write error", 0⟩ : KineticStatus) ∈ clientStatuses := by
    simp [clientStatuses]
  unfold NonblockingSender.writeFailed NonblockingSender.errorCurrent
  simp only [hx]
  exact failQueue hst _ (of_log (complete (c := .error x _ none) hst h) rfl)

theorem sendLoop (fuel : Nat) (hi : Inv s) (hq : Quiet s) (hp : Paired s) (hf : s.failed = false)
    (h : Sound s) : Sound (NonblockingSender.sendLoop lib fuel s).2 := by
  induction fuel generalizing s with
  | zero => exact h
  | succ fuel ih =>
    rcases send_turn hi hq hp hf with
      ⟨he, -⟩ | ⟨st, t, he, hs, hfr, hlog, -, -, hh, hdone⟩
    · rw [he fuel]; exact h
    have ht : Sound t := h.of_log hlog
    rw [he fuel]
    cases st with
    | inProgress => exact ht
    | failed =>
      obtain ⟨x, hx⟩ := Option.ne_none_iff_exists'.1 hh
      exact ht.writeFailed hx
    | done =>
      obtain ⟨a, b, ⟨x, hx⟩, c, -⟩ := hdone rfl
      exact ih a.inv a.quiet c (by rw [b.failed, hfr.failed]; exact hf) (ht.append hx rfl)

/-! ## Receive -/

theorem callAll {status : KineticStatus} (hs : status ∈ clientStatuses) (h : Sound s) :
    Sound (NonblockingReceiver.callAllErrorHandlers lib status s) := by
  have hloop : ∀ (seqs : List Int) (u : NonblockingPacketService), Sound u →
      Sound (NonblockingReceiver.callAllLoop lib status seqs u) := by
    intro seqs
    induction seqs with
    | nil => exact fun _ hu => hu
    | cons seq seqs ih =>
      intro u hu
      unfold NonblockingReceiver.callAllLoop
      split
      · exact ih u hu
      · split
        · exact ih _ (complete (c := .error _ _ none) hs (hu.of_log rfl))
        · exact hu.append rfl rfl
  have h1 : Sound (s.emit (.failedAll status)) := h.append rfl rfl
  unfold NonblockingReceiver.callAllErrorHandlers
  dsimp only
  refine of_log (hloop _ _ ?_) rfl
  split
  · exact h1
  · exact of_log (complete (c := .error _ _ none) hs h1) rfl

theorem dispatch (h : Sound s) (seq : Int) (x key : Nat) :
    Sound (NonblockingReceiver.dispatch lib seq x key s) := by
  unfold NonblockingReceiver.dispatch
  dsimp only
  split
  · refine of_log (complete ?_ ?_) rfl
    · unfold NonblockingReceiver.answer
      dsimp only
      split
      · assumption
      · exact ⟨by assumption, rfl⟩
    · unfold NonblockingReceiver.answer
      dsimp only
      split <;> exact h.of_log rfl
  · exact h.append rfl rfl

variable (lib) in
theorem processResponse (h : Sound s) : Sound (NonblockingReceiver.processResponse lib s).2 := by
  have h1 : ∀ c, Sound (NonblockingReceiver.noteCommand c s) := fun c => h.of_log rfl
  have hp := processing lib s
  generalize NonblockingReceiver.processResponse lib s = out at hp ⊢
  cases hp with
  | mismatch _ _ => exact h.callAll (by simp [clientStatuses])
  | unparsed _ _ => exact callAll (by simp [clientStatuses]) (h.of_log rfl)
  | unacknowledged _ _ => exact (h1 _).callAll (by simp [clientStatuses])
  | unmatched _ _ _ => exact h1 _
  | matched _ _ _ => exact (h1 _).dispatch _ _ _

variable (lib) in
theorem readResponse (h : Sound s) (r : NonblockingPacketReader) :
    Sound (NonblockingReceiver.readResponse lib r s).2 := by
  obtain ⟨h1, h2⟩ := readResponse_log lib r s
  by_cases hd : (NonblockingReceiver.readResponse lib r s).1 = .done
  · exact h.append (h1 hd) rfl
  · exact h.of_log (h2 hd)

theorem receiveLoop (fuel : Nat) (h : Sound s) :
    Sound (NonblockingReceiver.receiveLoop lib fuel s).2 := by
  refine receiveLoop_keeps ?_ (fun _ r h => h.readResponse lib r)
    (fun _ h => h.callAll (by simp [clientStatuses])) (fun _ h => h.processResponse lib) fuel h
  intro s r t h ho
  rcases openResponse_cases ho with ⟨-, rfl⟩ | ⟨-, -, -, rfl⟩
  · exact h
  · exact h.of_log rfl

end Sound

/-! ## Runs -/

theorem run_sound (h : Steady lib s) (hs : Sound s) (fds : FdSets) :
    Sound (s.run lib fds).2.2 := by
  cases hf : s.failed with
  | true => simpa [NonblockingPacketService.run, hf] using hs
  | false =>
    have h1 : Sound (NonblockingSender.send lib s).2 :=
      hs.sendLoop _ h.inv h.quiet (h.paired hf) hf
    have h2 : Sound (NonblockingReceiver.receive lib (NonblockingSender.send lib s).2).2 :=
      h1.receiveLoop _
    rcases run_cases hf fds with ⟨-, he⟩ | ⟨-, -, he⟩ | ⟨-, -, he⟩
    · rw [he]; exact h1.of_log rfl
    · rw [he]; exact h2.of_log rfl
    · rw [he]; exact h2

theorem apply_sound (h : Steady lib s) (hs : Sound s) (op : Op) : Sound (op.apply lib s) := by
  cases op with
  | submit scripts m c v =>
    exact Sound.kept.submit (s := { s with scripts }) (fun _ _ hc hs => hs.complete hc)
      (hs.of_log rfl) m c v
  | remove key => exact hs.remove key
  | run io fds => exact run_sound (supply_steady io h).2 (hs.of_log rfl) fds

/-- **What handlers are told**, in every reachable state. -/
theorem sound (h : (service lib).Reachable s) : Sound s :=
  (LTS.Inductive.reachable (M := service lib) (P := fun s => Steady lib s ∧ Sound s)
    ⟨fun s h0 => ⟨h0.steady, fun c hc => by rw [h0.log] at hc; cases hc⟩,
      fun _ _ _ hs hst => hst.2 ▸ ⟨(apply_steady _ hs.1 hst.1).2, apply_sound hs.1 hs.2 _⟩⟩ s h).2

end Kinetic.L2
