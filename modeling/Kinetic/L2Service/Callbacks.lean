import Kinetic.L2Service.Turns

/-!
# What callbacks keep

A callback notes its call and then submits and removes, and a refused submission
calls the next handler. `Kept` is the rule for all of it: what the pieces keep, a
handler's whole call keeps (`Kept.complete`), and so does every state in which
the callback has done only part of what it will do (`Kept.during`).
-/
open Kinetic.Core

namespace Kinetic.L2

open L1 NonblockingPacketService

/-- The pieces of a callback keep `P`, where `C` holds of the calls made. -/
structure Kept (lib : Lib) (C : Completion → Prop) (P : NonblockingPacketService → Prop) :
    Prop where
  shutDown : ∀ h, C (.error h alreadyShutDown none)
  call : ∀ s c, C c → P s → P (s.emit (.completed c))
  scripts : ∀ s scripts, P s → P { s with scripts }
  count : ∀ s, P s → P s.count
  accept : ∀ s m c v h key, P s → P (NonblockingSender.enqueue lib m c v h key s)
  refuse : ∀ s h key, P s → P (s.emit (.refused h key))
  remove : ∀ s key, P s → P (s.remove key).2

/-- The call of `c`, up to the first `n` things that the handler does. -/
def during (lib : Lib) (c : Completion) (n : Nat) (s : NonblockingPacketService) :
    NonblockingPacketService :=
  match s.scripts with
  | [] => s.emit (.completed c)
  | script :: rest =>
    (script.take n).foldl (fun s a => a.perform lib (callback lib rest.length) s)
      { s with scripts := rest, log := s.log ++ [.completed c] }

/-- After all of them the call is over. -/
theorem during_all (lib : Lib) (c : Completion) (s : NonblockingPacketService) :
    during lib c (s.scripts.headD []).length s = complete lib c s := by
  unfold during complete
  cases h : s.scripts with
  | nil => rfl
  | cons script rest =>
    simp only [List.headD_cons, List.take_length, List.length_cons, callback, h]

namespace Kept

variable {lib : Lib} {C : Completion → Prop} {P : NonblockingPacketService → Prop}
  {s : NonblockingPacketService} {c : Completion}
  {call : Completion → NonblockingPacketService → NonblockingPacketService}

theorem submit (k : Kept lib C P) (hcall : ∀ c s, C c → P s → P (call c s)) (h : P s) (m : Message)
    (c : Command) (v : Bytes) : P (s.submit lib call m c v).2 := by
  have h1 := k.count s h
  unfold NonblockingPacketService.submit
  dsimp only
  split
  · exact hcall _ _ (k.shutDown _) (k.refuse _ _ _ h1)
  · exact k.accept _ m c v _ _ h1

theorem perform (k : Kept lib C P) (hcall : ∀ c s, C c → P s → P (call c s)) (h : P s) (a : Action) :
    P (a.perform lib call s) := by
  cases a with
  | remove key => exact k.remove s key h
  | submit m c v =>
    unfold Action.perform
    dsimp only
    split
    · exact k.submit hcall h m c v
    · exact h

theorem noted (k : Kept lib C P) (hc : C c) (h : P s) (rest : List (List Action)) :
    P { s with scripts := rest, log := s.log ++ [.completed c] } :=
  k.scripts _ rest (k.call s c hc h)

theorem callback (k : Kept lib C P) (fuel : Nat) (hc : C c) (h : P s) :
    P (callback lib fuel c s) := by
  induction fuel generalizing c s with
  | zero => exact k.call s c hc h
  | succ fuel ih =>
    unfold L2.callback
    split
    · exact k.call s c hc h
    · exact List.foldlRecOn _ _ (k.noted hc h _) fun u hu a _ => k.perform (fun _ _ => ih) hu a

theorem complete (k : Kept lib C P) (hc : C c) (h : P s) : P (complete lib c s) :=
  k.callback _ hc h

theorem during (k : Kept lib C P) (hc : C c) (n : Nat) (h : P s) : P (during lib c n s) := by
  unfold L2.during
  split
  · exact k.call s c hc h
  · exact List.foldlRecOn _ _ (k.noted hc h _) fun u hu a _ =>
      k.perform (fun _ _ hc h => k.callback _ hc h) hu a

end Kept

/-- `P` is about neither the calls made nor the receiver, but for its reader. -/
structure Aside (lib : Lib) (P : NonblockingPacketService → Prop) : Prop where
  kept : Kept lib (fun _ => True) P
  failedAll : ∀ s error, P s → P (s.emit (.failedAll error))
  aborted : ∀ s, P s → P (s.emit .aborted)
  receiver : ∀ s r, r.nonblockingResponse = s.receiver.nonblockingResponse → P s →
    P { s with receiver := r }

namespace Aside

variable {lib : Lib} {P : NonblockingPacketService → Prop} {s : NonblockingPacketService}

theorem complete (a : Aside lib P) (h : P s) (c : Completion) : P (L2.complete lib c s) :=
  a.kept.complete trivial h

theorem callAllLoop (a : Aside lib P) (error : KineticStatus) (seqs : List Int) (h : P s) :
    P (NonblockingReceiver.callAllLoop lib error seqs s) := by
  induction seqs generalizing s with
  | nil => exact h
  | cons seq seqs ih =>
    unfold NonblockingReceiver.callAllLoop
    split
    · exact ih h
    · split
      · exact ih (a.complete (a.receiver s { s.receiver with
          handlerToMessageSeqMap := s.receiver.handlerToMessageSeqMap.erase _ } rfl h) _)
      · exact a.aborted s h

theorem callAll (a : Aside lib P) (h : P s) (error : KineticStatus) :
    P (NonblockingReceiver.callAllErrorHandlers lib error s) := by
  have h1 := a.failedAll s error h
  unfold NonblockingReceiver.callAllErrorHandlers
  dsimp only
  refine a.receiver _ { NonblockingPacketService.receiver _ with map := ∅ } rfl (a.callAllLoop error _ ?_)
  split
  · exact h1
  · exact a.receiver _ { NonblockingPacketService.receiver _ with handler := none } rfl (a.complete h1 _)

theorem process (a : Aside lib P) (h : P s) : P (NonblockingReceiver.processResponse lib s).2 := by
  have hn : ∀ c, P (NonblockingReceiver.noteCommand c s) := fun c =>
    a.receiver s (NonblockingReceiver.noteCommand c s).receiver rfl h
  have hp := processing lib s
  generalize NonblockingReceiver.processResponse lib s = out at hp ⊢
  cases hp with
  | mismatch _ _ => exact a.callAll h _
  | @unparsed command _ _ => exact a.callAll (a.receiver s { s.receiver with command } rfl h) _
  | unacknowledged _ _ => exact a.callAll (hn _) _
  | unmatched _ _ _ => exact hn _
  | @matched command ack x key _ _ _ =>
    replace hn := hn command
    generalize NonblockingReceiver.noteCommand command s = p at hn
    have h1 : P { p with receiver := { p.receiver with
        handler := some x
        map := p.receiver.map.erase ack } } := a.receiver p _ rfl hn
    unfold NonblockingReceiver.dispatch
    dsimp only
    split
    · have h2 : ∀ value, P { p with receiver := { p.receiver with
          handler := some x
          map := p.receiver.map.erase ack
          handlerToMessageSeqMap := p.receiver.handlerToMessageSeqMap.erase key
          value } } := fun _ => a.receiver p _ rfl hn
      unfold NonblockingReceiver.answer
      dsimp only
      split
      · exact a.receiver _ { NonblockingPacketService.receiver _ with handler := none } rfl
          (a.complete (h2 none) _)
      · exact a.receiver _ { NonblockingPacketService.receiver _ with handler := none } rfl
          (a.complete (h2 p.receiver.value) _)
    · exact a.aborted _ h1

end Aside
end Kinetic.L2
