import Kinetic.L2Service.Custody
import Kinetic.L2Service.Turns

/-!
# What a callback can do

A callback submits and removes, and so may the handlers that its own calls
complete. Its effect on the service is a run of moves (`callback_moves`) that
leaves alone whatever the interrupted loop keeps in hand (`Reentry`): the
sender's current packet, the packet being read, the entries of the receiver's
map other than the removed ones.
-/
open Kinetic.Core

namespace Kinetic.L2

open L1

/-- An event that carries no response from the device. -/
def Event.Calm : Event → Prop
  | .submitted _ | .refused _ _ | .removed _ _ _ => True
  | .completed c => c.response = none
  | _ => False

/-- `t` is `s` after calls of handlers, none of them with a response, and what
these do: the current packet and the packet being read are untouched, and the
maps have lost entries only. -/
structure Frame (s t : NonblockingPacketService) : Prop where
  socket : t.socket = s.socket
  sender : t.sender = { s.sender with
    requestQueue := t.sender.requestQueue, sequenceNumber := t.sender.sequenceNumber }
  receiver : t.receiver = { s.receiver with
    map := t.receiver.map, handlerToMessageSeqMap := t.receiver.handlerToMessageSeqMap }
  failed : t.failed = s.failed
  handlers : s.handlers ≤ t.handlers
  queue : ∀ r ∈ t.sender.requestQueue, r ∈ s.sender.requestQueue ∨
    s.failed = false ∧ s.handlers ≤ r.handler
  map : ∀ seq e, t.receiver.map.find seq = some e → s.receiver.map.find seq = some e
  back : ∀ key seq, t.receiver.handlerToMessageSeqMap.find key = some seq →
    s.receiver.handlerToMessageSeqMap.find key = some seq
  log : ∃ new, t.log = s.log ++ new ∧ ∀ e ∈ new, e.Calm

/-- `t` is `s` after calls of `Submit` and `Remove`: entries are removed from
both maps at once, and only new handlers are called. -/
structure Reentry (s t : NonblockingPacketService) : Prop extends Frame s t where
  live : ∀ seq h key, t.receiver.map.find seq = some (h, key) →
    s.receiver.handlerToMessageSeqMap.find key = some seq →
    t.receiver.handlerToMessageSeqMap.find key = some seq
  fresh : ∀ h, h ∈ settled t.log → h ∈ settled s.log ∨ s.failed = true ∧ s.handlers ≤ h

variable {s t u : NonblockingPacketService}

namespace Frame

theorem refl (s : NonblockingPacketService) : Frame s s :=
  ⟨rfl, rfl, rfl, rfl, Nat.le_refl _, fun _ h => .inl h, fun _ _ h => h, fun _ _ h => h,
    [], by simp, by simp⟩

theorem trans (h : Frame s t) (h' : Frame t u) : Frame s u := by
  refine ⟨h'.socket.trans h.socket, ?_, ?_, h'.failed.trans h.failed,
    Nat.le_trans h.handlers h'.handlers, fun r hr => ?_,
    fun q e he => h.map q e (h'.map q e he), fun k q hk => h.back k q (h'.back k q hk), ?_⟩
  · rw [h'.sender, h.sender]
  · rw [h'.receiver, h.receiver]
  · rcases h'.queue r hr with hr | ⟨hf, hr⟩
    · exact h.queue r hr
    · exact .inr ⟨by rw [← h.failed]; exact hf, Nat.le_trans h.handlers hr⟩
  · obtain ⟨n, hn, hc⟩ := h.log
    obtain ⟨n', hn', hc'⟩ := h'.log
    refine ⟨n ++ n', by rw [hn', hn, List.append_assoc], fun e he => ?_⟩
    rcases List.mem_append.1 he with he | he
    · exact hc e he
    · exact hc' e he

theorem handler (h : Frame s t) : t.sender.handler = s.sender.handler := by rw [h.sender]

theorem currentWriter (h : Frame s t) : t.sender.currentWriter = s.sender.currentWriter := by
  rw [h.sender]

theorem settled_mono (h : Frame s t) {x : Nat} (hx : x ∈ settled s.log) : x ∈ settled t.log := by
  obtain ⟨n, hn, -⟩ := h.log
  rw [hn, settled_append]; exact List.mem_append_left _ hx

end Frame

namespace Reentry

theorem refl (s : NonblockingPacketService) : Reentry s s :=
  ⟨Frame.refl s, fun _ _ _ _ h => h, fun _ h => .inl h⟩

theorem trans (h : Reentry s t) (h' : Reentry t u) : Reentry s u := by
  refine ⟨h.toFrame.trans h'.toFrame,
    fun q x k hm hk => h'.live q x k hm (h.live q x k (h'.map _ _ hm) hk), fun x hx => ?_⟩
  rcases h'.fresh x hx with hx | ⟨hf, hx⟩
  · exact h.fresh x hx
  · exact .inr ⟨by rw [← h.failed]; exact hf, Nat.le_trans h.handlers hx⟩

end Reentry

/-- `t` is reached from `s` by moves that a callback can make. -/
structure Moves (lib : Lib) (s t : NonblockingPacketService) : Prop where
  steps : Steps lib s t
  frame : Reentry s t

theorem Moves.refl (lib : Lib) (s : NonblockingPacketService) : Moves lib s s :=
  ⟨.refl, Reentry.refl s⟩

theorem Moves.trans {lib : Lib} (h : Moves lib s t)
    (h' : Moves lib t u) : Moves lib s u :=
  ⟨Relation.ReflTransGen.trans h.steps h'.steps, h.frame.trans h'.frame⟩

/-- `call` makes only such moves, once the call itself is logged. -/
def Reenters (lib : Lib)
    (call : Completion → NonblockingPacketService → NonblockingPacketService) : Prop :=
  ∀ c s, Inv (s.emit (.completed c)) → Moves lib (s.emit (.completed c)) (call c s)

variable {lib : Lib} {call : Completion → NonblockingPacketService → NonblockingPacketService}

theorem accept_moves (m : Message) (c : Command) (v : Bytes) (hf : s.failed = false)
    (hd : s.submitDefined = true) :
    Moves lib s (NonblockingSender.enqueue lib m c v s.handlers s.nextKey s.count) := by
  refine ⟨.single (.accept m c v hf hd), ?_⟩
  obtain ⟨r, he, hr, -⟩ := enqueue_spec lib m c v s.handlers s.nextKey s.count
  rw [he]
  refine ⟨⟨rfl, rfl, rfl, rfl, Nat.le_succ _, fun x hx => ?_, fun _ _ h => h, fun _ _ h => h,
    [.submitted r], rfl, by simp [Event.Calm]⟩, fun _ _ _ _ h => h, fun x hx => .inl ?_⟩
  · rcases List.mem_append.1 hx with hx | hx
    · exact .inl hx
    · rw [List.mem_singleton.1 hx, hr]; exact .inr ⟨hf, Nat.le_refl _⟩
  simpa [NonblockingPacketService.count, settled, completions] using hx

variable (lib) in
theorem refuse_moves (hf : s.failed = true) :
    Moves lib s ((s.count.emit (.refused s.handlers s.nextKey)).emit
      (.completed (.error s.handlers alreadyShutDown none))) := by
  refine ⟨.single (.refuse hf), ⟨rfl, rfl, rfl, rfl, Nat.le_succ _, fun _ h => .inl h,
    fun _ _ h => h, fun _ _ h => h, [.refused s.handlers s.nextKey, _], by
      simp [NonblockingPacketService.count]; rfl, by simp [Event.Calm, Completion.response]⟩,
    fun _ _ _ _ h => h, fun x hx => ?_⟩
  simp only [NonblockingPacketService.emit_log, settled_append, List.mem_append] at hx
  rcases hx with (hx | hx) | hx
  · exact .inl hx
  · simp [settled, completions] at hx
  · simp only [settled, completions, List.filterMap_cons, List.filterMap_nil, List.map_cons,
      List.map_nil, List.mem_singleton, Completion.handler] at hx
    exact .inr ⟨hf, Nat.le_of_eq hx.symm⟩

theorem submit_moves (hcall : Reenters lib call) (h : Inv s) (m : Message) (c : Command)
    (v : Bytes) (hd : s.submitDefined = true) : Moves lib s (s.submit lib call m c v).2 := by
  unfold NonblockingPacketService.submit
  dsimp only
  split
  · rename_i hf
    have hr := refuse_moves lib hf
    exact hr.trans (hcall (.error s.handlers alreadyShutDown none)
      (s.count.emit (.refused s.handlers s.nextKey)) (h.steps hr.steps))
  · rename_i hf
    exact accept_moves m c v (by simpa using hf) hd

theorem removeQueued_moves {key : Nat} {r : Request}
    (hr : s.sender.requestQueue.find? (·.handlerKey == key) = some r) :
    Moves lib s { s with
      sender.requestQueue := s.sender.requestQueue.eraseP (·.handlerKey == key)
      log := s.log ++ [.removed r.handler key true] } := by
  refine ⟨.single (.removeQueued hr), ⟨rfl, rfl, rfl, rfl, Nat.le_refl _,
    fun _ h => .inl (List.mem_of_mem_eraseP h), fun _ _ h => h, fun _ _ h => h,
    [.removed r.handler key true], rfl, by simp [Event.Calm]⟩,
    fun _ _ _ _ h => h, fun x hx => .inl ?_⟩
  simpa [settled, completions] using hx

theorem removeAwaiting_moves (h : Inv s) {key : Nat} {seq : Int} {x : Nat}
    (hb : s.receiver.handlerToMessageSeqMap.find key = some seq)
    (hm : s.receiver.map.find seq = some (x, key)) :
    Moves lib s { s with
      receiver.handlerToMessageSeqMap := s.receiver.handlerToMessageSeqMap.erase key
      receiver.map := s.receiver.map.erase seq
      log := s.log ++ [.removed x key false] } := by
  refine ⟨.single (.removeAwaiting hb hm), ⟨rfl, rfl, rfl, rfl, Nat.le_refl _,
    fun _ h => .inl h, fun q e hq => ?_,
    fun k q hk => ?_, [.removed x key false], rfl, by simp [Event.Calm]⟩,
    fun q y k hq hk => ?_, fun y hy => .inl ?_⟩
  all_goals dsimp only at *
  · rw [Dict.find_erase] at hq
    split at hq
    · cases hq
    · exact hq
  · rw [Dict.find_erase] at hk
    split at hk
    · cases hk
    · exact hk
  · rw [Dict.find_erase] at hq
    rw [Dict.find_erase]
    split at hq
    · cases hq
    · rename_i hne
      have h1 := (h.back_entry hb).1
      have h2 := (h.back_entry hk).1
      rw [if_neg (by omega)]
      exact hk
  · simpa [settled, completions] using hy

variable (lib) in
theorem remove_moves (h : Inv s) (key : Nat) : Moves lib s (s.remove key).2 := by
  have hrem := removal key s
  generalize s.remove key = out at hrem ⊢
  cases hrem with
  | queued hr => exact removeQueued_moves hr
  | unknown _ _ => exact Moves.refl lib s
  | awaiting _ hb hm => exact removeAwaiting_moves h hb hm
  | broken hb hn =>
    obtain ⟨x, hm⟩ := h.back key _ hb
    exact absurd hm (hn x)

theorem perform_moves (hcall : Reenters lib call) (h : Inv s) (a : Action) :
    Moves lib s (a.perform lib call s) := by
  cases a with
  | submit m c v =>
    simp only [Action.perform]
    split
    · rename_i hd; exact submit_moves hcall h m c v hd
    · exact Moves.refl lib s
  | remove key => exact remove_moves lib h key

theorem script_moves (hcall : Reenters lib call) (script : List Action) (h : Inv s) :
    Moves lib s (script.foldl (fun s a => a.perform lib call s) s) := by
  induction script generalizing s with
  | nil => exact Moves.refl lib s
  | cons a as ih =>
    have h1 := perform_moves hcall h a
    exact h1.trans (ih (h.steps h1.steps))

/-- **A callback makes moves only**, whatever the scripts say. -/
theorem callback_moves (fuel : Nat) : Reenters lib (callback lib fuel) := by
  induction fuel with
  | zero => intro c s _; exact Moves.refl lib _
  | succ fuel ih =>
    intro c s h
    unfold callback
    split
    · exact Moves.refl lib _
    · rename_i script rest _
      have h1 : Moves lib (s.emit (.completed c))
          { s with scripts := rest, log := s.log ++ [.completed c] } :=
        ⟨.single (.environment (s := s.emit (.completed c)) s.socket rest rfl),
          ⟨rfl, rfl, rfl, rfl, Nat.le_refl _, fun _ h => .inl h, fun _ _ h => h, fun _ _ h => h,
            [], by simp [NonblockingPacketService.emit], by simp⟩,
          fun _ _ _ _ h => h, fun _ h => .inl h⟩
      exact h1.trans (script_moves ih script (h.steps h1.steps))

variable (lib) in
theorem complete_moves (c : Completion) (h : Inv (s.emit (.completed c))) :
    Moves lib (s.emit (.completed c)) (complete lib c s) := callback_moves _ c s h

/-! ## The work left to the callbacks -/

theorem remove_work (key : Nat) (s : NonblockingPacketService) :
    (s.remove key).2.work ≤ s.work := by
  have hrem := removal key s
  generalize s.remove key = out at hrem ⊢
  cases hrem with
  | queued _ =>
    have := (List.eraseP_sublist (l := s.sender.requestQueue)
      (p := (·.handlerKey == key))).length_le
    simp only [NonblockingPacketService.work, NonblockingPacketService.pendingActions]; omega
  | unknown _ _ => exact Nat.le_refl _
  | awaiting _ _ _ => exact Nat.le_refl _
  | broken _ _ => exact Nat.le_refl _

variable (lib) in
theorem perform_work (hcall : ∀ c s, (call c s).work ≤ s.work) (a : Action)
    (s : NonblockingPacketService) : (a.perform lib call s).work ≤ s.work + 1 := by
  cases a with
  | submit m c v =>
    simp only [Action.perform, NonblockingPacketService.submit]
    split
    · split
      · refine Nat.le_trans (hcall _ _) (Nat.le_succ_of_le (Nat.le_refl _))
      · obtain ⟨r, he, -⟩ := enqueue_spec lib m c v s.handlers s.nextKey s.count
        show (NonblockingSender.enqueue lib m c v s.handlers s.nextKey s.count).work ≤ _
        rw [he]
        simp only [NonblockingPacketService.work, NonblockingPacketService.pendingActions,
          NonblockingPacketService.count, List.length_append, List.length_singleton]
        omega
    · exact Nat.le_succ _
  | remove key => exact Nat.le_succ_of_le (remove_work key s)

theorem callback_work (fuel : Nat) (c : Completion) (s : NonblockingPacketService) :
    (callback lib fuel c s).work ≤ s.work := by
  induction fuel generalizing c s with
  | zero => exact Nat.le_refl _
  | succ fuel ih =>
    unfold callback
    split
    · exact Nat.le_refl _
    · rename_i script rest hs
      have hfold : ∀ (as : List Action) (u : NonblockingPacketService),
          (as.foldl (fun s a => a.perform lib (callback lib fuel) s) u).work ≤
            u.work + as.length := by
        intro as
        induction as with
        | nil => intro u; exact Nat.le_refl _
        | cons a as iha =>
          intro u
          have h1 := iha (a.perform lib (callback lib fuel) u)
          have h2 := perform_work lib ih a u
          simp only [List.foldl_cons, List.length_cons]; omega
      refine Nat.le_trans (hfold script _) ?_
      simp only [NonblockingPacketService.work, NonblockingPacketService.pendingActions, hs,
        List.map_cons, List.sum_cons]
      omega

variable (lib) in
theorem complete_work (c : Completion) (s : NonblockingPacketService) :
    (complete lib c s).work ≤ s.work := callback_work _ c s

/-! ## Nested calls -/

theorem remove_scripts (key : Nat) (s : NonblockingPacketService) :
    (s.remove key).2.scripts = s.scripts := by
  have hrem := removal key s
  generalize s.remove key = out at hrem ⊢
  cases hrem <;> rfl

theorem perform_scripts (hcall : ∀ c s, (call c s).scripts.length ≤ s.scripts.length) (a : Action)
    (s : NonblockingPacketService) :
    (a.perform lib call s).scripts.length ≤ s.scripts.length := by
  cases a with
  | submit m c v =>
    simp only [Action.perform, NonblockingPacketService.submit]
    split
    · split
      · exact hcall _ _
      · exact Nat.le_refl _
    · exact Nat.le_refl _
  | remove key => exact Nat.le_of_eq (congrArg List.length (remove_scripts key s))

theorem callback_scripts (fuel : Nat) (c : Completion) (s : NonblockingPacketService) :
    (callback lib fuel c s).scripts.length ≤ s.scripts.length := by
  induction fuel generalizing c s with
  | zero => exact Nat.le_refl _
  | succ fuel ih =>
    unfold callback
    split
    · exact Nat.le_refl _
    · rename_i script rest hs
      have hfold : ∀ (as : List Action) (u : NonblockingPacketService),
          (as.foldl (fun s a => a.perform lib (callback lib fuel) s) u).scripts.length ≤
            u.scripts.length := by
        intro as
        induction as with
        | nil => intro u; exact Nat.le_refl _
        | cons a as iha =>
          intro u
          exact Nat.le_trans (iha _) (perform_scripts ih a u)
      refine Nat.le_trans (hfold script _) ?_
      rw [hs]
      exact Nat.le_succ _

/-- One level of calls for each script is all a callback can use. -/
theorem callback_fuel (f g : Nat) (c : Completion) (s : NonblockingPacketService)
    (hf : s.scripts.length ≤ f) (hg : s.scripts.length ≤ g) :
    callback lib f c s = callback lib g c s := by
  induction f generalizing g c s with
  | zero =>
    have h0 : s.scripts = [] := List.length_eq_zero_iff.1 (by omega)
    cases g with
    | zero => rfl
    | succ g => simp [callback, h0]
  | succ f ih =>
    cases g with
    | zero =>
      have h0 : s.scripts = [] := List.length_eq_zero_iff.1 (by omega)
      simp [callback, h0]
    | succ g =>
      unfold callback
      split
      · rfl
      rename_i script rest hs
      rw [hs, List.length_cons] at hf hg
      -- the actions of the script see at most the scripts that are left
      have hfold : ∀ (as : List Action) (u : NonblockingPacketService),
          u.scripts.length ≤ rest.length →
          as.foldl (fun s a => a.perform lib (callback lib f) s) u =
            as.foldl (fun s a => a.perform lib (callback lib g) s) u := by
        intro as
        induction as with
        | nil => intro u _; rfl
        | cons a as iha =>
          intro u hu
          have hp : a.perform lib (callback lib f) u = a.perform lib (callback lib g) u := by
            cases a with
            | remove key => rfl
            | submit m c v =>
              simp only [Action.perform, NonblockingPacketService.submit]
              split
              · split
                · exact ih g _ _ (by simpa using by omega) (by simpa using by omega)
                · rfl
              · rfl
          rw [List.foldl_cons, List.foldl_cons, ← hp]
          exact iha _ (Nat.le_trans (perform_scripts (callback_scripts f) a u) hu)
      exact hfold script _ (Nat.le_refl _)

end Kinetic.L2
