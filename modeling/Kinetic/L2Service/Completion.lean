import Kinetic.L1Wire.Codec
import Kinetic.L2Service.Records

/-!
# Who is called, and how often

Over whole runs, destruction included. A handler is called at most once, and
not after `Remove` has returned true for its key (`called_once`): that is the
ledger. Every handler is called by the end of the destruction unless the sender
still has a current one (`destroy_completes_iff`): `~NonblockingSender` drains
the queue and `~NonblockingReceiver` the map, but the handler of a packet that is
partly written is destroyed with the sender and never called, although the
write-failure path of `Send` does call it.
-/
open Kinetic.Core

namespace Kinetic.L2

open L1 NonblockingPacketService

variable {lib : Lib} {s t u : NonblockingPacketService}

/-- Every handler passed to `Submit` and not removed has been called. -/
def AllCompleted (s : NonblockingPacketService) : Prop :=
  ∀ h ∈ issued s.log, h ∉ withdrawn s.log → h ∈ settled s.log

/-- The handlers passed to `Submit`, each with the key it was given. -/
def keyed (log : List Event) : List (Nat × Nat) :=
  log.filterMap fun
    | .submitted r => some (r.handler, r.handlerKey)
    | .refused h k => some (h, k)
    | _ => none

/-! ## Nobody is lost, but for the current handler -/

theorem allCompleted_iff (h : Inv s) : AllCompleted s ↔ ∀ x ∈ held s, x ∈ settled s.log := by
  constructor
  · intro ha x hx
    by_contra hs
    obtain ⟨hi, hw⟩ := h.ledger.live hx hs
    exact hs (ha x hi hw)
  · intro ha x hi hw
    by_cases hx : x ∈ held s
    · exact ha x hx
    · exact (h.ledger.accounted hi hx).resolve_right hw

/-- **Destruction calls every outstanding handler** exactly when no packet is
partly written: the sender has no current handler. -/
theorem destroy_completes_iff (h : (service lib).Reachable s) :
    AllCompleted (s.destroy lib) ↔ s.sender.handler = none := by
  have hst := steady h
  obtain ⟨hset, hq, hm, hh⟩ := destroy_moves hst.inv hst.quiet
  rw [allCompleted_iff hset.inv]
  have hheld : held (s.destroy lib) = s.sender.handler.toList := by
    rw [held, hq, hm, hh]
    simp
  rw [hheld]
  constructor
  · intro ha
    cases hx : s.sender.handler with
    | none => rfl
    | some x =>
      exact absurd (ha x (by rw [hx]; simp)) (hset.quiet.current x (hh.trans hx))
  · intro hn
    rw [hn]
    simp

/-- One request, its packet written as far as the magic byte. -/
def partlyWritten : List Op :=
  [.submit [] {} {} [], .run { writes := [.count 1] } ⟨[], [], 0⟩]

theorem destroy_completes_iff_partlyWritten :
    ¬ AllCompleted ((play Codec.plain (create 5 1 [] 0) partlyWritten).destroy
      Codec.plain) := by
  rw [destroy_completes_iff (reachable_session _ (by decide +kernel))]
  decide +kernel

/-- The request whose packet is partly written at the destruction is lost. -/
theorem destroy_loses_current :
    ¬ ∀ (lib : Lib) (s : NonblockingPacketService), (service lib).Reachable s →
      AllCompleted (s.destroy lib) := by
  intro hall
  have h := hall Codec.plain (play Codec.plain (create 5 1 [] 0) partlyWritten)
    (reachable_session _ (by decide +kernel)) 0 (by decide +kernel) (by decide +kernel)
  revert h
  decide +kernel

/-! ## Nobody is called twice -/

theorem settled_removed (x k : Nat) (q : Bool) (l : List Event) :
    settled (.removed x k q :: l) = settled l := rfl

/-- Removing a key silences every handler that was given it. -/
theorem Records.silenced (hr : Records lib s) (h : Inv s) {pre post : List Event} {x k y : Nat}
    {q : Bool} (hl : s.log = pre ++ .removed x k q :: post) (hy : (y, k) ∈ keyed pre) :
    y ∉ settled post := by
  have hmem : ∀ {e : Event}, e ∈ pre → e ∈ s.log := fun he => by
    rw [hl]; exact List.mem_append_left _ he
  have hpost : y ∈ settled post → y ∈ settled s.log := fun hy => by
    rw [hl, settled_append, settled_removed]
    exact List.mem_append_right _ hy
  obtain ⟨e, he, hk⟩ := List.mem_filterMap.1 hy
  cases e with
  | submitted r =>
    simp only [Option.some.injEq, Prod.mk.injEq] at hk
    obtain ⟨rfl, rfl⟩ := hk
    -- an accepted handler has its own number for a key, so it is the one removed
    have hacc : r ∈ accepted s.log := List.mem_filterMap.2 ⟨_, hmem he, rfl⟩
    have hrem : Event.removed x r.handlerKey q ∈ s.log := by rw [hl]; simp
    have hx := hr.removed _ _ _ hrem
    rw [(hr.numbered r hacc).key] at hx
    intro hs
    refine h.ledger.not_both (hpost hs) (List.mem_filterMap.2 ⟨_, hrem, ?_⟩)
    rw [hx]
  | refused y' k' =>
    simp only [Option.some.injEq, Prod.mk.injEq] at hk
    obtain ⟨rfl, rfl⟩ := hk
    -- a refused handler had its only call before anything else was logged
    have h1 := hr.before pre x k' q post hl y' k' he
    intro hs
    have h2 := h.ledger.settled_once y'
    rw [hl, settled_append, settled_removed, List.count_append] at h2
    have h3 := List.count_pos_iff.2 h1
    have h4 := List.count_pos_iff.2 hs
    omega
  | completed c => cases hk
  | removed _ _ _ => cases hk
  | written _ => cases hk
  | received _ _ => cases hk
  | failedAll _ => cases hk
  | aborted => cases hk

/-- **At most one call, and none after removal**, whatever the callbacks submit
and remove: in the log of any run, destruction included, each handler is called
at most once, and no handler that had been given the key of a successful
`Remove` is called after it. -/
theorem called_once (h : (service lib).Reachable s) :
    (∀ x, (settled (s.destroy lib).log).count x ≤ 1) ∧
    ∀ pre x k q post, (s.destroy lib).log = pre ++ .removed x k q :: post →
      ∀ y, (y, k) ∈ keyed pre → y ∉ settled post := by
  have hst := steady h
  obtain ⟨hset, -⟩ := destroy_moves hst.inv hst.quiet
  have hrec : Records lib (s.destroy lib) :=
    hset.steps.carry (fun _ _ hi hp hs => Records.step hi hp hs) hst.inv (records h)
  exact ⟨hset.inv.ledger.settled_once,
    fun pre x k q post hl y hy => hrec.silenced hset.inv hl hy⟩

/-- Three requests, and a write that fails: the first handler's callback removes
itself and the second, submits a fourth, and removes the third twice. -/
def removedByCallback : List Op :=
  [.submit [] {} {} [], .submit [] {} {} [], .submit [] {} {} [],
    .run { writes := [.error], scripts := [[.remove 0, .remove 1, .submit {} {} [], .remove 2,
      .remove 2]] } ⟨[], [], 0⟩]

theorem called_once_removedByCallback :
    let s := (play Codec.plain (create 5 1 [] 0) removedByCallback).destroy Codec.plain
    settled s.log = [0, 3] ∧ withdrawn s.log = [1, 2] ∧ (∀ x, (settled s.log).count x ≤ 1) ∧
    ∀ pre x k q post, s.log = pre ++ .removed x k q :: post →
      ∀ y, (y, k) ∈ keyed pre → y ∉ settled post :=
  ⟨by decide +kernel, by decide +kernel,
    called_once (reachable_session removedByCallback (by decide +kernel))⟩

end Kinetic.L2
