import Kinetic.L2Service.System

/-!
# What the log says

A move appends to the log in one of four ways: an accepted submission, a
refused one together with its completion, a removal, or anything else
(`extends_cases`). From that, by one case each: accepted requests are numbered in
the order of their submission and carry their own Command; a queued request was
accepted; a removal names the handler by its key; a refused handler has been
called before anything else is logged; and no `CHECK` ever fails.
-/
open Kinetic.Core

namespace Kinetic.L2

open L1 NonblockingPacketService

/-- An event that neither adds nor removes a handler, and is not an abort. -/
def Event.Plain : Event → Prop
  | .submitted _ | .refused _ _ | .removed _ _ _ | .aborted => False
  | _ => True

/-- How a move appends to the log. -/
inductive Extension (lib : Lib) (s t : NonblockingPacketService) : List Event → Prop
  | plain {new : List Event} : (∀ e ∈ new, e.Plain) →
      t.sender.sequenceNumber = s.sender.sequenceNumber →
      (∀ r ∈ t.sender.requestQueue, r ∈ s.sender.requestQueue) → Extension lib s t new
  | submission {r : Request} : r.handler = s.handlers → Numbered t.sender.sequenceNumber r →
      t.sender.sequenceNumber = s.sender.sequenceNumber + 1 →
      r.message.getCommandBytes = lib.serializeCommand r.command →
      t.sender.requestQueue = s.sender.requestQueue ++ [r] → Extension lib s t [.submitted r]
  | removal {h : Nat} {q : Bool} : t.sender.sequenceNumber = s.sender.sequenceNumber →
      (∀ r ∈ t.sender.requestQueue, r ∈ s.sender.requestQueue) →
      Extension lib s t [.removed h h q]
  | refusal {k : Nat} {c : Completion} : t.sender = s.sender →
      Extension lib s t [.refused c.handler k, .completed c]

variable {lib : Lib} {s t : NonblockingPacketService}

theorem enqueue_commandBytes (m : Message) (c : Command) (v : Bytes) (h key : Nat)
    (s : NonblockingPacketService) :
    ∀ r, (NonblockingSender.enqueue lib m c v h key s).log = s.log ++ [.submitted r] →
      r.message.getCommandBytes = lib.serializeCommand r.command := by
  intro r hr
  unfold NonblockingSender.enqueue at hr
  simp only [List.append_cancel_left_eq, List.cons.injEq, Event.submitted.injEq, and_true] at hr
  subst hr
  dsimp only
  split <;> rfl

/-- **How a move appends to the log.** -/
theorem Step.extends_cases (hi : Inv s) (hst : Step lib s t) :
    ∃ new, t.log = s.log ++ new ∧ Extension lib s t new := by
  have same : ∀ {t' : NonblockingPacketService} {l : List Event}, t'.log = s.log ++ l →
      (∀ e ∈ l, e.Plain) → t'.sender = s.sender →
      ∃ new, t'.log = s.log ++ new ∧ Extension lib s t' new := by
    intro t' new hl hp hs
    exact ⟨new, hl, .plain hp (by rw [hs]) (by rw [hs]; simp)⟩
  have hread : ∀ {r st s'}, NonblockingReceiver.readResponse lib r s = (st, s') →
      s'.sender = s.sender ∧ ∃ new, s'.log = s.log ++ new ∧ ∀ e ∈ new, e.Plain := by
    intro r st s' hr
    have hf := readResponse_frame lib r s
    obtain ⟨h1, h2⟩ := readResponse_log lib r s
    rw [hr] at hf h1 h2
    dsimp only at hf h1 h2
    refine ⟨hf.sender, ?_⟩
    by_cases hd : st = .done
    · exact ⟨_, h1 hd, by simp [Event.Plain]⟩
    · exact ⟨[], by rw [h2 hd]; simp, by simp⟩
  cases hst with
  | environment socket scripts _ => exact same (l := []) (by simp) (by simp) rfl
  | accept m c v hf hd =>
    obtain ⟨r, he, hr, hk, -, hseq, -⟩ := enqueue_spec lib m c v s.handlers s.nextKey s.count
    have hl := hi.live hf
    have hb := enqueue_commandBytes m c v s.handlers s.nextKey s.count r (by rw [he])
    rw [he]
    refine ⟨[.submitted r], rfl, .submission hr ⟨?_, ?_, ?_⟩ rfl hb rfl⟩
    · rw [hk, hr]; exact hl.1
    · rw [hseq, hr]; exact hl.2
    · rw [hr]; exact Int.lt_of_le_of_lt (Int.le_of_eq hl.2.symm) (Int.lt_succ _)
  | refuse hf =>
    refine ⟨[.refused s.handlers s.nextKey, .completed (.error s.handlers alreadyShutDown none)], ?_,
      .refusal (c := .error s.handlers alreadyShutDown none) rfl⟩
    simp [NonblockingPacketService.count]
  | removeQueued hr =>
    rename_i key r
    have hmem := List.mem_of_find?_eq_some hr
    have hkey : key = r.handler := by
      have := List.find?_some hr
      rw [← (hi.queue r hmem).key]
      exact (beq_iff_eq.1 this).symm
    refine ⟨[.removed r.handler key true], rfl, ?_⟩
    rw [hkey]
    exact .removal rfl fun r' h' => List.mem_of_mem_eraseP h'
  | removeAwaiting hb hm =>
    rename_i key seq h
    have hkey := (hi.map _ _ _ hm).2.1
    refine ⟨[.removed h key false], rfl, ?_⟩
    rw [hkey]
    exact .removal rfl fun r' h' => h'
  | start _ _ _ hq =>
    refine ⟨[], by simp, .plain (by simp) rfl fun r' h' => ?_⟩
    rw [hq]; exact List.mem_cons_of_mem _ h'
  | write _ _ _ => exact ⟨[], by simp, .plain (by simp) rfl fun _ h => h⟩
  | finish _ _ _ _ _ => exact ⟨_, rfl, .plain (by simp [Event.Plain]) rfl fun _ h => h⟩
  | writeFail status _ _ => exact ⟨_, rfl, .plain (by simp [Event.Plain]) rfl fun _ h => h⟩
  | letGo _ =>
    exact ⟨[], by simp [NonblockingSender.resetHandler], .plain (by simp) rfl fun _ h => h⟩
  | failQueued status _ hq =>
    refine ⟨_, rfl, .plain (by simp [Event.Plain]) rfl fun r' h' => ?_⟩
    rw [hq]; exact List.mem_cons_of_mem _ h'
  | bookkeeping r h => exact same (l := []) (by simp) (by simp) rfl
  | read hr _ =>
    obtain ⟨hs, new, hl, hp⟩ := hread hr
    exact same hl hp hs
  | @deliver s' r command ack h key hr _ _ _ _ =>
    obtain ⟨hs, new, hl, hp⟩ := hread hr
    obtain ⟨v, hv⟩ := answered_eq ack h key (NonblockingReceiver.noteCommand command s')
    rw [hv]
    generalize (NonblockingReceiver.answer h (NonblockingReceiver.noteCommand command s')).1 = c
    refine same (l := new ++ [.completed c]) ?_ ?_ hs
    · rw [emit_log, ← List.append_assoc, ← hl]; rfl
    · intro e he
      rcases List.mem_append.1 he with he | he
      · exact hp e he
      · rw [List.mem_singleton.1 he]; trivial
  | drop hr _ _ _ =>
    obtain ⟨hs, new, hl, hp⟩ := hread hr
    exact same hl hp hs
  | reject command connectionId status hr =>
    obtain ⟨hs, new, hl, hp⟩ := hread hr
    refine same (l := new ++ [.failedAll status]) ?_ ?_ hs
    · rw [emit_log, ← List.append_assoc, ← hl]
    · intro e he
      rcases List.mem_append.1 he with he | he
      · exact hp e he
      · rw [List.mem_singleton.1 he]; trivial
  | failAll status => exact same rfl (by simp [Event.Plain]) rfl
  | failOne status _ _ _ => exact same rfl (by simp [Event.Plain]) rfl
  | clear _ => exact same (l := []) (by simp) (by simp) rfl
  | cleanUp => exact same (l := []) (by simp [NonblockingPacketService.cleanUp]) (by simp) rfl

/-- What the log says, beyond the ledger. -/
structure Records (lib : Lib) (s : NonblockingPacketService) : Prop where
  numbered : ∀ r ∈ accepted s.log, Numbered s.sender.sequenceNumber r
  carries : ∀ r ∈ accepted s.log, r.message.getCommandBytes = lib.serializeCommand r.command
  sorted : (accepted s.log).Pairwise (fun r r' => r.handler < r'.handler)
  queued : ∀ r ∈ s.sender.requestQueue, r ∈ accepted s.log
  removed : ∀ h k q, Event.removed h k q ∈ s.log → k = h
  refused : ∀ h k, Event.refused h k ∈ s.log → h ∈ settled s.log
  before : ∀ pre h k q post, s.log = pre ++ .removed h k q :: post →
    ∀ h' k', Event.refused h' k' ∈ pre → h' ∈ settled pre
  intact : Event.aborted ∉ s.log

theorem accepted_plain {new : List Event} (h : ∀ e ∈ new, e.Plain) : accepted new = [] := by
  rw [accepted, List.filterMap_eq_nil_iff]
  intro e he
  have := h e he
  cases e <;> first | rfl | exact absurd this id

theorem accepted_issued {l : List Event} {r : Request} (h : r ∈ accepted l) : r.handler ∈ issued l := by
  obtain ⟨e, he, hr⟩ := List.mem_filterMap.1 h
  refine List.mem_filterMap.2 ⟨e, he, ?_⟩
  cases e <;> simp at hr
  rw [hr]

theorem split_append {l new pre post : List Event} {e : Event}
    (h : l ++ new = pre ++ e :: post) :
    (∃ mid, l = pre ++ e :: mid) ∨ ∃ mid, pre = l ++ mid ∧ new = mid ++ e :: post := by
  rcases List.append_eq_append_iff.1 h with ⟨mid, h1, h2⟩ | ⟨mid, h1, h2⟩
  · exact .inr ⟨mid, h1, h2⟩
  · cases mid with
    | nil =>
      rw [List.append_nil] at h1
      exact .inr ⟨[], by rw [h1, List.append_nil], by simpa using h2.symm⟩
    | cons x mid =>
      rw [List.cons_append, List.cons.injEq] at h2
      exact .inl ⟨mid, by rw [h1, h2.1]⟩

theorem Records.step (hi : Inv s) (h : Records lib s) (hst : Step lib s t) : Records lib t := by
  obtain ⟨new, hl, he⟩ := hst.extends_cases hi
  have hmono : ∀ {x}, x ∈ settled s.log → x ∈ settled t.log := fun hx => by
    rw [hl, settled_append]; exact List.mem_append_left _ hx
  cases he with
  | plain hp hn hq =>
    have hacc : accepted t.log = accepted s.log := by
      rw [hl, accepted_append, accepted_plain hp, List.append_nil]
    refine ⟨by rw [hacc, hn]; exact h.numbered, by rw [hacc]; exact h.carries,
      by rw [hacc]; exact h.sorted, by rw [hacc]; exact fun r hr => h.queued r (hq r hr),
      fun x k q hm => ?_, fun x k hm => ?_, fun pre x k q post hsp x' k' hm => ?_, fun hab => ?_⟩
    · rw [hl] at hm
      rcases List.mem_append.1 hm with hm | hm
      · exact h.removed x k q hm
      · exact absurd (hp _ hm) id
    · rw [hl] at hm
      rcases List.mem_append.1 hm with hm | hm
      · exact hmono (h.refused x k hm)
      · exact absurd (hp _ hm) id
    · rw [hl] at hsp
      rcases split_append hsp with ⟨mid, hs⟩ | ⟨mid, -, hs⟩
      · exact h.before pre x k q mid hs x' k' hm
      · exact absurd (hp (.removed x k q) (by rw [hs]; simp)) id
    · rw [hl, List.mem_append] at hab
      exact hab.elim h.intact (hp _)
  | @submission r hr hnum hn hb hq =>
    have hacc : accepted t.log = accepted s.log ++ [r] := by
      rw [hl, accepted_append]; rfl
    refine ⟨fun x hx => ?_, fun x hx => ?_, ?_, fun x hx => ?_, fun x k q hm => ?_,
      fun x k hm => ?_, fun pre x k q post hsp x' k' hm => ?_, fun hab => ?_⟩
    · rw [hacc, List.mem_append, List.mem_singleton] at hx
      rcases hx with hx | rfl
      · obtain ⟨h1, h2, h3⟩ := h.numbered x hx
        exact ⟨h1, h2, by omega⟩
      · exact hnum
    · rw [hacc, List.mem_append, List.mem_singleton] at hx
      rcases hx with hx | rfl
      · exact h.carries x hx
      · exact hb
    · rw [hacc, List.pairwise_append]
      refine ⟨h.sorted, by simp, fun x hx y hy => ?_⟩
      rw [List.mem_singleton.1 hy, hr]
      exact hi.issued_lt _ (accepted_issued hx)
    · rw [hq, List.mem_append, List.mem_singleton] at hx
      rw [hacc, List.mem_append, List.mem_singleton]
      exact hx.imp_left (h.queued x)
    · rw [hl] at hm
      simp only [List.mem_append, List.mem_singleton, reduceCtorEq, or_false] at hm
      exact h.removed x k q hm
    · rw [hl] at hm
      simp only [List.mem_append, List.mem_singleton, reduceCtorEq, or_false] at hm
      exact hmono (h.refused x k hm)
    · rw [hl] at hsp
      rcases split_append hsp with ⟨mid, hs⟩ | ⟨mid, -, hs⟩
      · exact h.before pre x k q mid hs x' k' hm
      · have : Event.removed x k q ∈ [Event.submitted r] := by rw [hs]; simp
        simp at this
    · rw [hl] at hab
      simp [h.intact] at hab
  | @removal y b hn hq =>
    have hacc : accepted t.log = accepted s.log := by
      rw [hl, accepted_append]; simp [accepted]
    refine ⟨by rw [hacc, hn]; exact h.numbered, by rw [hacc]; exact h.carries,
      by rw [hacc]; exact h.sorted, by rw [hacc]; exact fun r hr => h.queued r (hq r hr),
      fun x k q hm => ?_, fun x k hm => ?_, fun pre x k q post hsp x' k' hm => ?_, fun hab => ?_⟩
    · rw [hl, List.mem_append, List.mem_singleton] at hm
      rcases hm with hm | hm
      · exact h.removed x k q hm
      · cases hm; rfl
    · rw [hl] at hm
      simp only [List.mem_append, List.mem_singleton, reduceCtorEq, or_false] at hm
      exact hmono (h.refused x k hm)
    · rw [hl] at hsp
      rcases split_append hsp with ⟨mid, hs⟩ | ⟨mid, hpre, hs⟩
      · exact h.before pre x k q mid hs x' k' hm
      · cases mid with
        | nil =>
          rw [hpre, List.append_nil] at hm ⊢
          exact h.refused x' k' hm
        | cons e mid => cases mid <;> cases hs
    · rw [hl] at hab
      simp [h.intact] at hab
  | @refusal key c hsnd =>
    have hacc : accepted t.log = accepted s.log := by
      rw [hl, accepted_append]; simp [accepted]
    refine ⟨by rw [hacc, hsnd]; exact h.numbered, by rw [hacc]; exact h.carries,
      by rw [hacc]; exact h.sorted, by rw [hacc, hsnd]; exact h.queued,
      fun x k q hm => ?_, fun x k hm => ?_, fun pre x k q post hsp x' k' hm => ?_, fun hab => ?_⟩
    · rw [hl] at hm
      simp only [List.mem_append, List.mem_cons, List.not_mem_nil, reduceCtorEq, or_false] at hm
      exact h.removed x k q hm
    · rw [hl] at hm
      simp only [List.mem_append, List.mem_cons, List.not_mem_nil, or_false, reduceCtorEq,
        Event.refused.injEq] at hm
      rcases hm with hm | ⟨rfl, -⟩
      · exact hmono (h.refused x k hm)
      · rw [hl]; simp [settled, completions]
    · rw [hl] at hsp
      rcases split_append hsp with ⟨mid, hs⟩ | ⟨mid, -, hs⟩
      · exact h.before pre x k q mid hs x' k' hm
      · have : Event.removed x k q ∈ [Event.refused c.handler key, .completed c] := by
          rw [hs]; simp
        simp at this
    · rw [hl] at hab
      simp [h.intact] at hab

theorem Fresh.records (h : Fresh s) : Records lib s := by
  refine ⟨?_, ?_, ?_, ?_, ?_, ?_, ?_, ?_⟩
  all_goals simp [h.log, h.requestQueue, accepted]

theorem records (h : (service lib).Reachable s) : Records lib s :=
  invariant_of_moves (fun _ h0 => h0.records) (fun _ _ hi hp hst => Records.step hi hp hst) h

end Kinetic.L2
