import Kinetic.L2Service.Completion
import Kinetic.L2Service.Reports

/-!
# Registering a handler never fails

`Submit` hands out keys from a counter, `Enqueue` of the sender sequence numbers
from another, and `Send` moves a request that it has written to the receiver
under both. The receiver's maps have room for it: no key and no sequence comes
twice (`Inv`), and the handshake leaves nothing behind under -1. The writer and
the handler of the sender come and go together as long as the service has not
failed, which is as long as `Run` calls `Send` (`Paired`).
-/
open Kinetic.Core

namespace Kinetic.L2

open L1 NonblockingPacketService

variable {lib : Lib} {s t : NonblockingPacketService}

def keys (log : List Event) : List Nat := (keyed log).map Prod.snd

/-- The loop of `Send`, run on `s`, begins a turn in this state. -/
inductive SendTurns (lib : Lib) (s : NonblockingPacketService) : NonblockingPacketService → Prop
  | first : SendTurns lib s s
  | next {t u : NonblockingPacketService} {w w' : NonblockingPacketWriter} {k : Socket} :
      SendTurns lib s t → NonblockingSender.startNext t = some (w, u) →
      w.write lib u.socket = (.done, w', k) →
      SendTurns lib s (NonblockingSender.finishRequest lib
        { u with socket := k, sender.currentWriter := some w' })

/-- The status of a handler that the receiver has no room for. -/
def couldNotEnqueue : KineticStatus := ⟨.clientInternalError, "Could not enqueue handler", 0⟩

/-! ## Keys -/

theorem submit_key {call : Completion → NonblockingPacketService → NonblockingPacketService}
    (m : Message) (c : Command) (v : Bytes) : (s.submit lib call m c v).1 = s.nextKey := by
  unfold NonblockingPacketService.submit
  dsimp only
  split <;> rfl

theorem keyed_append (l m : List Event) : keyed (l ++ m) = keyed l ++ keyed m :=
  List.filterMap_append

theorem keyed_fst (l : List Event) : (keyed l).map Prod.fst = issued l := by
  induction l with
  | nil => rfl
  | cons e l ih =>
    cases e <;> simp_all [keyed, issued]

/-- The two counters and the keys that have been handed out. -/
structure Counted (s : NonblockingPacketService) : Prop where
  next : s.nextKey = s.handlers % 2 ^ 64
  keys : ∀ p ∈ keyed s.log, p.2 = p.1 % 2 ^ 64

namespace Counted

theorem still (h : Counted s) (hk : t.nextKey = s.nextKey) (hc : t.handlers = s.handlers)
    {l : List Event} (hl : t.log = s.log ++ l) (hn : keyed l = []) : Counted t := by
  refine ⟨by rw [hk, hc]; exact h.next, ?_⟩
  rw [hl, keyed_append, hn, List.append_nil]
  exact h.keys

theorem count (h : Counted s) (hk : t.nextKey = (s.nextKey + 1) % 2 ^ 64)
    (hc : t.handlers = s.handlers + 1) {l : List Event} (hl : t.log = s.log ++ l)
    (hn : keyed l = [(s.handlers, s.nextKey)]) : Counted t := by
  have := h.next
  refine ⟨by rw [hk, hc, this]; omega, ?_⟩
  rw [hl, keyed_append, hn]
  intro p hp
  rcases List.mem_append.1 hp with hp | hp
  · exact h.keys p hp
  · rw [List.mem_singleton.1 hp]
    exact this

theorem read (h : Counted s) {r : NonblockingPacketReader} {st : NonblockingStringStatus}
    {s' : NonblockingPacketService} (hr : NonblockingReceiver.readResponse lib r s = (st, s')) :
    Counted s' := by
  have hf := readResponse_frame lib r s
  obtain ⟨h1, h2⟩ := readResponse_log lib r s
  rw [hr] at hf h1 h2
  by_cases hd : st = .done
  · exact h.still hf.nextKey hf.handlers (h1 hd) rfl
  · exact h.still (l := []) hf.nextKey hf.handlers (by simpa using h2 hd) rfl

theorem step (h : Counted s) (hst : Step lib s t) : Counted t := by
  cases hst with
  | environment => exact ⟨h.next, h.keys⟩
  | accept m c v =>
    obtain ⟨r, he, hr, hk, -⟩ := enqueue_spec lib m c v s.handlers s.nextKey s.count
    rw [he]
    exact h.count (t := { s.count with
        sender.sequenceNumber := _, sender.requestQueue := _, log := s.log ++ [.submitted r] })
      rfl rfl rfl (by rw [← hr, ← hk]; rfl)
  | refuse =>
    exact h.count rfl rfl (l := [.refused s.handlers s.nextKey,
      .completed (.error s.handlers alreadyShutDown none)])
      (by simp [NonblockingPacketService.count]) rfl
  | removeQueued => exact h.still rfl rfl rfl rfl
  | removeAwaiting => exact h.still rfl rfl rfl rfl
  | start => exact ⟨h.next, h.keys⟩
  | write => exact ⟨h.next, h.keys⟩
  | finish => exact h.still rfl rfl rfl rfl
  | writeFail => exact h.still rfl rfl rfl rfl
  | letGo => exact ⟨h.next, h.keys⟩
  | failQueued => exact h.still rfl rfl rfl rfl
  | bookkeeping => exact ⟨h.next, h.keys⟩
  | read hr => exact h.read hr
  | @deliver s' r command ack x key hr =>
    obtain ⟨v, hv⟩ := answered_eq ack x key (NonblockingReceiver.noteCommand command s')
    rw [hv]
    exact (h.read hr).still rfl rfl rfl rfl
  | drop hr => exact (h.read hr).still rfl rfl (l := []) (by simp [NonblockingReceiver.noteCommand]) rfl
  | reject command connectionId status hr =>
    exact (h.read hr).still rfl rfl rfl rfl
  | failAll => exact h.still rfl rfl rfl rfl
  | failOne => exact h.still rfl rfl rfl rfl
  | clear => exact ⟨h.next, h.keys⟩
  | cleanUp => exact ⟨h.next, h.keys⟩

end Counted

theorem counted (h : (service lib).Reachable s) : Counted s :=
  invariant_of_moves (fun s h0 => ⟨by simp [h0.nextKey, h0.handlers], by simp [h0.log, keyed]⟩)
    (fun _ _ _ hp hst => hp.step hst) h

/-- Below 2^64 submissions no key comes twice. -/
theorem keys_nodup (h : (service lib).Reachable s) (hn : s.handlers ≤ 2 ^ 64) :
    (keys s.log).Nodup := by
  have hinv := (steady h).inv
  have hiss : (issued s.log).Nodup := List.nodup_iff_count_le_one.2 hinv.ledger.issued_once
  rw [← keyed_fst] at hiss
  refine List.Nodup.map_on ?_ (hiss.of_map _)
  intro p hp q hq he
  have hlt : ∀ p ∈ keyed s.log, p.1 < s.handlers := fun p hp =>
    hinv.issued_lt _ (by rw [← keyed_fst]; exact List.mem_map_of_mem hp)
  have h1 := (counted h).keys p hp
  have h2 := (counted h).keys q hq
  have h3 := hlt p hp
  have h4 := hlt q hq
  exact Prod.ext (by omega) he

/-! ## Turns of Send -/

theorem SendTurns.rest (h : Inv s) (hq : Quiet s) (hp : Paired s) (hf : s.failed = false)
    (ht : SendTurns lib s t) : Inv t ∧ Quiet t ∧ Paired t ∧ t.failed = false := by
  induction ht with
  | first => exact ⟨h, hq, hp, hf⟩
  | @next t u w w' k _ hs hw ih =>
    obtain ⟨hi, hqt, hpt, hft⟩ := ih
    rcases startNext_moves lib hi hqt hpt hft with
      ⟨he, -⟩ | ⟨w₁, x, u₁, he, hcw, hx, a, b, -, -⟩
    · rw [he] at hs; cases hs
    rw [hs] at he
    cases he
    have hfu : u.failed = false := b.failed.trans hft
    obtain ⟨out, -, -, hfull⟩ := w.write_spec lib u.socket
    rw [hw] at hfull
    have hi2 := a.inv.step (Step.write hfu hcw hw)
    obtain ⟨he, hset⟩ := finishRequest_moves hi2
      ⟨a.quiet.receiver, a.quiet.awaiting, a.quiet.current⟩ hfu rfl (hfull rfl) (x := x) hx
    exact ⟨hset.inv, hset.quiet, by rw [he]; simp [Paired], by rw [he]; exact hfu⟩

/-- No registration has gone wrong so far, and none will in the next `Send`. -/
structure Registers (lib : Lib) (s : NonblockingPacketService) : Prop where
  /-- The keys that `Submit` returned are distinct. -/
  keys : (keys s.log).Nodup
  /-- No handler was failed because it could not be registered. -/
  room : ∀ x r, Completion.error x couldNotEnqueue r ∉ completions s.log
  /-- No `CHECK` failed and no null handler was called. -/
  intact : Event.aborted ∉ s.log
  /-- A turn of `Send` that begins with a writer begins with a handler. -/
  paired : s.failed = false → ∀ io t, SendTurns lib (s.supply io) t →
    t.sender.currentWriter ≠ none → t.sender.handler ≠ none
  /-- The packet that a turn of `Send` works on has a handler, and once it is
  written, `Enqueue` returns true. -/
  enqueued : s.failed = false → ∀ io t, SendTurns lib (s.supply io) t →
    ∀ w u, NonblockingSender.startNext t = some (w, u) → ∃ x, u.sender.handler = some x ∧
      ∀ w' k, w.write lib u.socket = (.done, w', k) →
        (u.receiver.enqueue x u.sender.messageSequence u.sender.handlerKey).1 = true

/-- **Registration never collides** and the sender never uses a missing handler,
as long as fewer than 2^63 requests have been submitted. -/
theorem registration (h : (service lib).Reachable s) (hn : s.handlers < 2 ^ 63) :
    Registers lib s := by
  have hturns : s.failed = false → ∀ io t, SendTurns lib (s.supply io) t →
      Inv t ∧ Quiet t ∧ Paired t ∧ t.failed = false := by
    intro hf io t ht
    have hst := (supply_steady io (steady h)).2
    exact ht.rest hst.inv hst.quiet (hst.paired hf) hf
  refine ⟨keys_nodup h (by omega), fun x r hm => ?_, (records h).intact, fun hf io t ht => ?_,
    fun hf io t ht w u hs => ?_⟩
  · have hr := sound h _ hm
    cases r with
    | none => simp [Completion.Reported, couldNotEnqueue, clientStatuses, alreadyShutDown] at hr
    | some c =>
      obtain ⟨-, hst⟩ := hr
      have hcode := congrArg KineticStatus.code hst
      have hmsg := congrArg KineticStatus.message hst
      rw [getKineticStatus_code] at hcode
      simp [couldNotEnqueue, getKineticStatus, ← hcode] at hmsg
  · obtain ⟨-, -, hp, -⟩ := hturns hf io t ht
    exact fun hw hh => hw (hp.2 hh)
  · obtain ⟨hi, hq, hp, hft⟩ := hturns hf io t ht
    rcases startNext_moves lib hi hq hp hft with
      ⟨he, -⟩ | ⟨w₁, x, u₁, he, -, hx, a, -⟩
    · rw [he] at hs; cases hs
    rw [hs] at he
    cases he
    obtain ⟨h1, h2⟩ := a.inv.room hx
    exact ⟨x, hx, fun w' k _ => by rw [receiver_enqueue_absent x h1 h2]⟩

/-- Two requests; the first is written but for one byte, the second still queued
when a third is submitted. -/
def midPacket : List Op :=
  [.submit [] {} {} [], .submit [] {} {} [7], .run { writes := [.count 1, .count 4, .count 3] }
    ⟨[], [], 0⟩, .submit [] {} {} []]

theorem registration_midPacket :
    let s := play Codec.plain (create 5 1 [] 0) midPacket
    keys s.log = [0, 1, 2] ∧ s.sender.currentWriter.isSome ∧ Registers Codec.plain s :=
  ⟨by decide +kernel, by decide +kernel,
    registration (reachable_session midPacket (by decide +kernel)) (by decide +kernel)⟩

end Kinetic.L2
