import Kinetic.L1Wire.RoundTrip
import Kinetic.L2Service.Reentry

/-!
# The code makes moves only

`Send`, `Receive`, `Run` and the destructors, as runs of the moves of `Step`.
Between two turns of a loop nothing is half done (`Quiet`): the receiver has no
current handler, each entry of its map can be found by key, and the sender's
current handler has not been called. Callbacks keep it so, and each loop below
is one induction that carries it, with what the loop leaves behind.

**Assumptions.** `Inv` and `Quiet` of the state in which a loop starts. For `Send`
also `Paired` (a writer and its handler come and go together) and that the service
has not failed; for `Receive` also `Reading` (a reader that is kept is in the middle
of a packet).

**Results.**
* `failQueue_moves`, `writeFailed_moves`: a failed write calls the current handler
  and then the queue, until nothing is queued.
* `finishRequest_moves`, `startNext_moves`, `send_turn`, `send_moves`: a turn of
  `Send`, and the loop. It touches the sender and its side of the transport only
  (`SendFrame`) and ends as its status says (`SendEnds`).
* `callAllLoop_moves`, `callAll_moves`: `CallAllErrorHandlers` leaves nobody waiting.
* `dispatch_moves`, `process_moves`: what is done with a packet that has been read.
* `receive_turn`, `receive_moves`: a turn of `Receive`, and the loop (`ReceiveFrame`,
  `ReceiveEnds`).
* `sendLoop_fuel`, `receiveLoop_fuel`: the loops do not depend on their fuel.
-/
open Kinetic.Core

namespace Kinetic.L2

open L1 NonblockingPacketService

variable {lib : Lib} {s t u : NonblockingPacketService}

/-- Nothing is half done. -/
structure Quiet (s : NonblockingPacketService) : Prop where
  receiver : s.receiver.handler = none
  awaiting : ∀ seq h key, s.receiver.map.find seq = some (h, key) →
    s.receiver.handlerToMessageSeqMap.find key = some seq
  current : ∀ h, s.sender.handler = some h → h ∉ settled s.log

theorem Quiet.stored (h : Quiet s) (command : Command) (connectionId : Int) :
    Quiet { s with receiver.command := command, receiver.connectionId := connectionId } :=
  ⟨h.receiver, h.awaiting, h.current⟩

theorem Quiet.noted (h : Quiet s) (command : Command) :
    Quiet (NonblockingReceiver.noteCommand command s) := h.stored _ _

theorem Quiet.awaiting_unsettled (hq : Quiet s) (h : Inv s) {seq : Int} {x key : Nat}
    (hm : s.receiver.map.find seq = some (x, key)) : x ∉ settled s.log := by
  intro hx
  have := (h.called seq x key hm).2 hx
  rw [hq.awaiting seq x key hm] at this; cases this

theorem Inv.current_lt (h : Inv s) {x : Nat} (hx : s.sender.handler = some x) : x < s.handlers := by
  have := (h.current x hx).2.2
  have := h.le
  omega

theorem Reentry.quiet (hr : Reentry s t) (h : Inv s) (hq : Quiet s) : Quiet t := by
  refine ⟨by rw [hr.receiver]; exact hq.receiver, fun q x k hm => ?_, fun x hx hs => ?_⟩
  · exact hr.live q x k hm (hq.awaiting q x k (hr.map _ _ hm))
  · rw [hr.handler] at hx
    rcases hr.fresh x hs with hs | ⟨-, hs⟩
    · exact hq.current x hx hs
    · have := h.current_lt hx; omega

/-- `t` follows `s` by moves, and nothing is half done in it. -/
structure Settles (lib : Lib) (s t : NonblockingPacketService) : Prop where
  steps : Steps lib s t
  inv : Inv t
  quiet : Quiet t

theorem Settles.refl (h : Inv s) (hq : Quiet s) : Settles lib s s := ⟨.refl, h, hq⟩

theorem Settles.after (h : Settles lib t u) (hs : Steps lib s t) : Settles lib s u :=
  ⟨hs.trans h.steps, h.inv, h.quiet⟩

theorem Moves.settles (hm : Moves lib s t) (h : Inv s) (hq : Quiet s) : Settles lib s t :=
  ⟨hm.steps, h.steps hm.steps, hm.frame.quiet h hq⟩

/-! ## The sender -/

/-- **Failing the queue** empties it, whatever the callbacks queue meanwhile. -/
theorem failQueue_moves (status : KineticStatus) (fuel : Nat) (h : Inv s) (hq : Quiet s)
    (hg : s.failed = true ∨ s.sender.currentWriter ≠ none ∧ s.sender.handler = none)
    (hf : s.work ≤ fuel) :
    Settles lib s (NonblockingSender.failQueue lib status fuel s) ∧
      Frame s (NonblockingSender.failQueue lib status fuel s) ∧
      (NonblockingSender.failQueue lib status fuel s).sender.requestQueue = [] := by
  induction fuel generalizing s with
  | zero =>
    have h0 : s.sender.requestQueue = [] := by
      simp only [work] at hf
      exact List.length_eq_zero_iff.1 (by omega)
    exact ⟨Settles.refl h hq, Frame.refl s, h0⟩
  | succ fuel ih =>
    unfold NonblockingSender.failQueue
    split
    · rename_i h0; exact ⟨Settles.refl h hq, Frame.refl s, h0⟩
    rename_i r rest hr
    have hmem : r ∈ s.sender.requestQueue := by rw [hr]; exact List.mem_cons_self
    have hstep : Step lib s (NonblockingPacketService.emit { s with sender.requestQueue := rest }
        (.completed (.error r.handler status none))) := .failQueued status hg hr
    have h1 := h.step hstep
    have hq1 : Quiet (NonblockingPacketService.emit { s with sender.requestQueue := rest }
        (.completed (.error r.handler status none))) := by
      refine ⟨hq.receiver, hq.awaiting, fun x hx hs => ?_⟩
      rw [emit_log, settled_completed, List.mem_append, List.mem_singleton] at hs
      rcases hs with hs | hs
      · exact hq.current x hx hs
      · exact h.queue_ne_current hmem hx hs.symm
    have hm := complete_moves lib (.error r.handler status none)
      (s := { s with sender.requestQueue := rest }) h1
    have hw := complete_work lib (.error r.handler status none)
      { s with sender.requestQueue := rest }
    have hs := hm.settles h1 hq1
    obtain ⟨a, b, c⟩ := ih hs.inv hs.quiet (by
        rw [hm.frame.failed, hm.frame.currentWriter, hm.frame.handler]; exact hg) (by
        simp only [work, pendingActions, hr, List.length_cons] at hf hw ⊢
        omega)
    refine ⟨a.after (.head hstep hm.steps), Frame.trans ?_ b, c⟩
    refine Frame.trans ?_ hm.frame.toFrame
    refine ⟨rfl, rfl, rfl, rfl, Nat.le_refl _, fun r' h' => .inl ?_, fun _ _ h => h,
      fun _ _ h => h, [.completed (.error r.handler status none)], rfl,
      by simp [Event.Calm, Completion.response]⟩
    rw [hr]; exact List.mem_cons_of_mem _ h'

/-- What the sender leaves alone, and what it logs. -/
structure SendFrame (s t : NonblockingPacketService) : Prop where
  reads : t.socket.reads = s.socket.reads
  incoming : t.socket.incoming = s.socket.incoming
  fd : t.socket.fd = s.socket.fd
  hmacKey : t.sender.hmacKey = s.sender.hmacKey
  receiver : t.receiver = { s.receiver with
    map := t.receiver.map, handlerToMessageSeqMap := t.receiver.handlerToMessageSeqMap }
  failed : t.failed = s.failed
  log : ∃ new, t.log = s.log ++ new ∧ ∀ e ∈ new, e.Calm ∨ ∃ h, e = .written h

theorem SendFrame.refl (s : NonblockingPacketService) : SendFrame s s :=
  ⟨rfl, rfl, rfl, rfl, rfl, rfl, [], by simp, by simp⟩

theorem SendFrame.trans (h : SendFrame s t) (h' : SendFrame t u) : SendFrame s u := by
  refine ⟨h'.reads.trans h.reads, h'.incoming.trans h.incoming, h'.fd.trans h.fd,
    h'.hmacKey.trans h.hmacKey, by rw [h'.receiver, h.receiver], h'.failed.trans h.failed, ?_⟩
  obtain ⟨n, hn, hc⟩ := h.log
  obtain ⟨n', hn', hc'⟩ := h'.log
  refine ⟨n ++ n', by rw [hn', hn, List.append_assoc], fun e he => ?_⟩
  rcases List.mem_append.1 he with he | he
  · exact hc e he
  · exact hc' e he

theorem Frame.send (h : Frame s t) : SendFrame s t := by
  obtain ⟨n, hn, hc⟩ := h.log
  exact ⟨by rw [h.socket], by rw [h.socket], by rw [h.socket], by rw [h.sender], h.receiver,
    h.failed, n, hn, fun e he => .inl (hc e he)⟩

/-- **A failed write** calls the current handler and everything queued. -/
theorem writeFailed_moves (h : Inv s) (hq : Quiet s) {x : Nat} (hx : s.sender.handler = some x)
    (hw : s.sender.currentWriter ≠ none) :
    Settles lib s (NonblockingSender.writeFailed lib s) ∧
      SendFrame s (NonblockingSender.writeFailed lib s) ∧
      (NonblockingSender.writeFailed lib s).sender.requestQueue = [] ∧
      (NonblockingSender.writeFailed lib s).sender.handler = none ∧
      (NonblockingSender.writeFailed lib s).sender.currentWriter ≠ none ∧
      x ∈ settled (NonblockingSender.writeFailed lib s).log := by
  unfold NonblockingSender.writeFailed NonblockingSender.errorCurrent
  simp only [hx]
  generalize (⟨.clientIoError, "I/O write error", 0⟩ : KineticStatus) = status
  have hstep : Step lib s (s.emit (.completed (.error x status none))) :=
    .writeFail status hx (hq.current x hx)
  have h1 := h.step hstep
  have hm := complete_moves lib (.error x status none) h1
  have h2 := h1.steps hm.steps
  generalize complete lib (.error x status none) s = t at hm h2 ⊢
  have hset : x ∈ settled t.log :=
    hm.frame.settled_mono (by simp [settled, completions, Completion.handler])
  have hcalled : ∀ y, t.sender.handler = some y → y ∈ settled t.log := by
    intro y hy
    rw [hm.frame.handler, emit_sender, hx] at hy
    obtain rfl := Option.some.inj hy
    exact hset
  have hlet : Step lib t (NonblockingSender.resetHandler t) := .letGo hcalled
  have hq3 : Quiet (NonblockingSender.resetHandler t) := by
    refine ⟨by rw [NonblockingSender.resetHandler, hm.frame.receiver]; exact hq.receiver,
      fun q y k hmq => ?_, fun y hy => by cases hy⟩
    exact hm.frame.live q y k hmq (hq.awaiting q y k (hm.frame.map _ _ hmq))
  have hw3 : (NonblockingSender.resetHandler t).sender.currentWriter ≠ none := by
    show t.sender.currentWriter ≠ none
    rw [hm.frame.currentWriter]; exact hw
  obtain ⟨a, b, c⟩ := failQueue_moves status _ (h2.step hlet) hq3 (.inr ⟨hw3, rfl⟩)
    (Nat.le_refl _)
  refine ⟨a.after (.head hstep (hm.steps.tail hlet)), ?_, c, ?_, ?_, b.settled_mono hset⟩
  · have f1 : SendFrame s (s.emit (.completed (.error x status none))) :=
      ⟨rfl, rfl, rfl, rfl, rfl, rfl, [_], rfl, by simp [Event.Calm, Completion.response]⟩
    have f2 : SendFrame t (NonblockingSender.resetHandler t) :=
      ⟨rfl, rfl, rfl, rfl, rfl, rfl, [], by simp [NonblockingSender.resetHandler], by simp⟩
    exact ((f1.trans hm.frame.send).trans f2).trans b.send
  · rw [b.handler]; rfl
  · rw [b.currentWriter]; exact hw3

/-- A writer and its handler come and go together. -/
def Paired (s : NonblockingPacketService) : Prop :=
  s.sender.currentWriter = none ↔ s.sender.handler = none

theorem receiver_enqueue_absent {r : NonblockingReceiver} {seq : Int} {key : Nat} (x : Nat)
    (h1 : r.map.find seq = none) (h2 : r.handlerToMessageSeqMap.find key = none) :
    r.enqueue x seq key = (true, { r with
      map := AList.insert seq (x, key) r.map
      handlerToMessageSeqMap := AList.insert key seq r.handlerToMessageSeqMap }) := by
  simp only [NonblockingReceiver.enqueue, Dict.insertNew_absent h1, Dict.insertNew_absent h2]

/-- **A finished packet**: its handler is registered with the receiver, which
has room for it. -/
theorem finishRequest_moves (h : Inv s) (hq : Quiet s) (hf : s.failed = false)
    {w : NonblockingPacketWriter} (hw : s.sender.currentWriter = some w)
    (hrem : w.remaining lib = []) {x : Nat} (hx : s.sender.handler = some x) :
    NonblockingSender.finishRequest lib s = { s with
        sender.currentWriter := none
        sender.handler := none
        receiver.map := AList.insert s.sender.messageSequence (x, s.sender.handlerKey)
          s.receiver.map
        receiver.handlerToMessageSeqMap := AList.insert s.sender.handlerKey
          s.sender.messageSequence s.receiver.handlerToMessageSeqMap
        log := s.log ++ [.written x] } ∧
      Settles lib s (NonblockingSender.finishRequest lib s) := by
  have hun := hq.current x hx
  obtain ⟨hr1, hr2⟩ := h.room hx
  have he : NonblockingSender.finishRequest lib s = { s with
        sender.currentWriter := none
        sender.handler := none
        receiver.map := AList.insert s.sender.messageSequence (x, s.sender.handlerKey)
          s.receiver.map
        receiver.handlerToMessageSeqMap := AList.insert s.sender.handlerKey
          s.sender.messageSequence s.receiver.handlerToMessageSeqMap
        log := s.log ++ [.written x] } := by
    unfold NonblockingSender.finishRequest
    simp only [hx, emit_receiver, emit_sender, receiver_enqueue_absent x hr1 hr2]
    rfl
  have hstep : Step lib s (NonblockingSender.finishRequest lib s) := by
    rw [he]; exact .finish hf hw hrem hx hun
  refine ⟨he, .single hstep, h.step hstep, ?_⟩
  rw [he]
  refine ⟨hq.receiver, fun q y k hm => ?_, fun y hy => by cases hy⟩
  dsimp only at hm ⊢
  rw [Dict.find_insert] at hm
  rw [Dict.find_insert]
  split at hm
  · rename_i heq
    cases hm
    rw [if_pos rfl, heq]
  · rename_i hne
    obtain ⟨h1, h2, -⟩ := h.map q y k hm
    obtain ⟨h3, h4, -⟩ := h.current x hx
    rw [if_neg (by omega)]
    exact hq.awaiting q y k hm

structure SendEnds (st : NonblockingPacketServiceStatus) (t : NonblockingPacketService) :
    Prop where
  idle : st = .idle →
    t.sender.currentWriter = none ∧ t.sender.handler = none ∧ t.sender.requestQueue = []
  ioWait : st = .ioWait → t.sender.currentWriter ≠ none ∧ t.sender.handler ≠ none
  error : st = .error → t.sender.handler = none ∧ t.sender.requestQueue = []
  paired : st ≠ .error → Paired t

/-- The packets that `Send` may still have to write. -/
def NonblockingPacketService.packets (s : NonblockingPacketService) : Nat :=
  s.work + if s.sender.currentWriter.isSome then 1 else 0

variable (lib) in
theorem startNext_moves (h : Inv s) (hq : Quiet s) (hp : Paired s) (hf : s.failed = false) :
    (NonblockingSender.startNext s = none ∧ s.sender.currentWriter = none ∧
      s.sender.requestQueue = []) ∨
    ∃ w x t, NonblockingSender.startNext s = some (w, t) ∧ t.sender.currentWriter = some w ∧
      t.sender.handler = some x ∧ Settles lib s t ∧ SendFrame s t ∧ t.log = s.log ∧
      t.packets = s.packets := by
  unfold NonblockingSender.startNext
  split
  · rename_i w hw
    obtain ⟨x, hx⟩ : ∃ x, s.sender.handler = some x := by
      rw [← Option.ne_none_iff_exists']
      intro hn
      have := hp.2 hn
      rw [hw] at this; cases this
    exact .inr ⟨w, x, s, rfl, hw, hx, Settles.refl h hq, SendFrame.refl s, rfl, rfl⟩
  · rename_i hw
    split
    · rename_i hr; exact .inl ⟨rfl, hw, hr⟩
    · rename_i r rest hr
      have hstep : Step lib s _ := .start hf hw (hp.1 hw) hr
      refine .inr ⟨_, r.handler, _, rfl, rfl, rfl, ⟨.single hstep, h.step hstep, ?_⟩, ?_, rfl, ?_⟩
      · refine ⟨hq.receiver, hq.awaiting, fun y hy => ?_⟩
        obtain rfl := Option.some.inj hy
        exact h.waiting r (by rw [hr]; exact List.mem_cons_self)
      · exact ⟨rfl, rfl, rfl, rfl, rfl, rfl, [], by simp, by simp⟩
      · simp only [packets, work, pendingActions, hr, hw, List.length_cons, Option.isSome_some,
          Option.isSome_none, if_true, Bool.false_eq_true, if_false]
        omega

/-- **One turn of `Send`**: there is nothing to write, or a write leaves the
state `t`; a finished packet is one fewer. -/
theorem send_turn (h : Inv s) (hq : Quiet s) (hp : Paired s) (hf : s.failed = false) :
    ((∀ fuel, NonblockingSender.sendLoop lib (fuel + 1) s = (.idle, s)) ∧
      s.sender.currentWriter = none ∧ s.sender.requestQueue = []) ∨
    ∃ (st : NonblockingStringStatus) (t : NonblockingPacketService),
      (∀ fuel, NonblockingSender.sendLoop lib (fuel + 1) s =
        match st with
        | .inProgress => (.ioWait, t)
        | .failed => (.error, NonblockingSender.writeFailed lib t)
        | .done => NonblockingSender.sendLoop lib fuel (NonblockingSender.finishRequest lib t)) ∧
      Settles lib s t ∧ SendFrame s t ∧ t.log = s.log ∧ t.packets = s.packets ∧
      t.sender.currentWriter ≠ none ∧ t.sender.handler ≠ none ∧
      (st = .done → Settles lib t (NonblockingSender.finishRequest lib t) ∧
        SendFrame t (NonblockingSender.finishRequest lib t) ∧
        (∃ x, (NonblockingSender.finishRequest lib t).log = t.log ++ [.written x]) ∧
        Paired (NonblockingSender.finishRequest lib t) ∧
        (NonblockingSender.finishRequest lib t).packets + 1 = t.packets) := by
  rcases startNext_moves lib h hq hp hf with
    ⟨he, hw, hr⟩ | ⟨w, x, s₁, he, hw, hx, hs, hfr, hlog, hpk⟩
  · exact .inl ⟨fun fuel => by simp only [NonblockingSender.sendLoop, he], hw, hr⟩
  have hf₁ : s₁.failed = false := by rw [hfr.failed]; exact hf
  obtain ⟨out, hg, hrem, hfull⟩ := w.write_spec lib s₁.socket
  cases hwr : w.write lib s₁.socket with
  | mk st wk =>
  obtain ⟨w', k⟩ := wk
  rw [hwr] at hg hrem hfull
  dsimp only at hg hrem hfull
  have hstep : Step lib s₁ { s₁ with socket := k, sender.currentWriter := some w' } :=
    .write hf₁ hw hwr
  have h2 := hs.inv.step hstep
  have hq2 : Quiet { s₁ with socket := k, sender.currentWriter := some w' } :=
    ⟨hs.quiet.receiver, hs.quiet.awaiting, hs.quiet.current⟩
  refine .inr ⟨st, _, fun fuel => ?_, ⟨hs.steps.tail hstep, h2, hq2⟩, ?_, hlog, ?_, by simp, ?_, ?_⟩
  · simp only [NonblockingSender.sendLoop, he, hwr]
    cases st <;> rfl
  · refine hfr.trans ⟨?_, ?_, ?_, rfl, rfl, rfl, [], by simp, by simp⟩
    all_goals rw [hg.frame]
  · rw [← hpk]
    simp [packets, hw, work, pendingActions]
  · simp [hx]
  · intro hd
    subst hd
    obtain ⟨he', a⟩ := finishRequest_moves h2 hq2 hf₁ rfl (hfull rfl) (x := x) hx
    refine ⟨a, ?_, ⟨x, by rw [he']⟩, ?_, ?_⟩
    · rw [he']; exact ⟨rfl, rfl, rfl, rfl, rfl, rfl, [.written x], rfl, by simp⟩
    · rw [he']; simp [Paired]
    · rw [he']; simp [packets, work, pendingActions]

/-- **Send** makes moves only, and leaves nothing half done. -/
theorem sendLoop_moves (fuel : Nat) (h : Inv s) (hq : Quiet s) (hp : Paired s)
    (hf : s.failed = false) (hfuel : s.packets < fuel) :
    Settles lib s (NonblockingSender.sendLoop lib fuel s).2 ∧
      SendFrame s (NonblockingSender.sendLoop lib fuel s).2 ∧
      SendEnds (NonblockingSender.sendLoop lib fuel s).1
        (NonblockingSender.sendLoop lib fuel s).2 := by
  induction fuel generalizing s with
  | zero => omega
  | succ fuel ih =>
    rcases send_turn h hq hp hf with
      ⟨he, hw, hr⟩ | ⟨st, t, he, hs, hfr, -, hpk, hw, hh, hdone⟩
    · rw [he fuel]
      exact ⟨Settles.refl h hq, SendFrame.refl s, fun _ => ⟨hw, hp.1 hw, hr⟩, by simp, by simp,
        fun _ => hp⟩
    rw [he fuel]
    cases st with
    | inProgress =>
      exact ⟨hs, hfr, by simp, fun _ => ⟨hw, hh⟩, by simp, fun _ => by simp [Paired, hw, hh]⟩
    | failed =>
      obtain ⟨x, hx⟩ := Option.ne_none_iff_exists'.1 hh
      obtain ⟨a, b, c, d, -⟩ := writeFailed_moves hs.inv hs.quiet hx hw
      exact ⟨a.after hs.steps, hfr.trans b, by simp, by simp, fun _ => ⟨d, c⟩, by simp⟩
    | done =>
      obtain ⟨a, b, -, c, hlt⟩ := hdone rfl
      obtain ⟨a', b', c'⟩ := ih a.inv a.quiet c (by rw [b.failed, hfr.failed]; exact hf) (by omega)
      exact ⟨(a'.after a.steps).after hs.steps, (hfr.trans b).trans b', c'⟩

/-- Any fuel above the number of packets gives the same. -/
theorem sendLoop_fuel (f g : Nat) (h : Inv s) (hq : Quiet s) (hp : Paired s)
    (hf : s.failed = false) (hlf : s.packets < f) (hlg : s.packets < g) :
    NonblockingSender.sendLoop lib f s = NonblockingSender.sendLoop lib g s := by
  induction f generalizing s g with
  | zero => omega
  | succ f ih =>
    obtain _ | g := g
    · omega
    rcases send_turn h hq hp hf with
      ⟨he, -⟩ | ⟨st, t, he, hs, hfr, -, hpk, -, -, hdone⟩
    · rw [he f, he g]
    rw [he f, he g]
    cases st with
    | inProgress => rfl
    | failed => rfl
    | done =>
      obtain ⟨a, b, -, c, hlt⟩ := hdone rfl
      exact ih g a.inv a.quiet c (by rw [b.failed, hfr.failed]; exact hf) (by omega) (by omega)

theorem packets_lt (s : NonblockingPacketService) : s.packets < s.work + 2 := by
  unfold packets
  split <;> omega

theorem send_moves (h : Inv s) (hq : Quiet s) (hp : Paired s) (hf : s.failed = false) :
    Settles lib s (NonblockingSender.send lib s).2 ∧ SendFrame s (NonblockingSender.send lib s).2 ∧
      SendEnds (NonblockingSender.send lib s).1 (NonblockingSender.send lib s).2 :=
  sendLoop_moves _ h hq hp hf (packets_lt s)

/-! ## The receiver -/

theorem Reentry.current (hr : Reentry s t) (h : Inv s)
    (hc : ∀ x, s.sender.handler = some x → x ∉ settled s.log) :
    ∀ x, t.sender.handler = some x → x ∉ settled t.log := by
  intro x hx hs
  rw [hr.handler] at hx
  rcases hr.fresh x hs with hs | ⟨-, hs⟩
  · exact hc x hx hs
  · have := h.current_lt hx; omega

/-- Every handler called meanwhile was waiting for a response, unless the
service has failed. -/
def OldOnly (s t : NonblockingPacketService) : Prop :=
  ∀ x, x ∈ settled t.log → x ∈ settled s.log ∨ s.failed = true ∨
    ∃ seq key, s.receiver.map.find seq = some (x, key)

theorem OldOnly.refl (s : NonblockingPacketService) : OldOnly s s := fun _ h => .inl h

theorem OldOnly.trans (h : OldOnly s t) (h' : OldOnly t u) (hf : t.failed = s.failed)
    (hm : ∀ seq e, t.receiver.map.find seq = some e → s.receiver.map.find seq = some e) :
    OldOnly s u := by
  intro x hx
  rcases h' x hx with hx | hx | ⟨seq, key, hx⟩
  · exact h x hx
  · exact .inr (.inl (by rw [← hf]; exact hx))
  · exact .inr (.inr ⟨seq, key, hm _ _ hx⟩)

theorem Reentry.old (h : Reentry s t) : OldOnly s t := by
  intro x hx
  rcases h.fresh x hx with hx | ⟨hf, -⟩
  · exact .inl hx
  · exact .inr (.inl hf)

/-- **The loop of `CallAllErrorHandlers`** calls the handler of every entry that
is still there when its turn comes. -/
theorem callAllLoop_moves (status : KineticStatus) (seqs : List Int) (h : Inv s)
    (hlog : Event.failedAll status ∈ s.log)
    (hcur : ∀ x, s.sender.handler = some x → x ∉ settled s.log) (hnd : seqs.Nodup)
    (hlive : ∀ seq ∈ seqs, ∀ x key, s.receiver.map.find seq = some (x, key) →
      s.receiver.handlerToMessageSeqMap.find key = some seq)
    (hrest : ∀ seq x key, s.receiver.map.find seq = some (x, key) →
      seq ∈ seqs ∨ x ∈ settled s.log) :
    Steps lib s (NonblockingReceiver.callAllLoop lib status seqs s) ∧
      Frame s (NonblockingReceiver.callAllLoop lib status seqs s) ∧
      (∀ x, (NonblockingReceiver.callAllLoop lib status seqs s).sender.handler = some x →
        x ∉ settled (NonblockingReceiver.callAllLoop lib status seqs s).log) ∧
      (∀ seq x key,
        (NonblockingReceiver.callAllLoop lib status seqs s).receiver.map.find seq = some (x, key) →
        x ∈ settled (NonblockingReceiver.callAllLoop lib status seqs s).log) ∧
      OldOnly s (NonblockingReceiver.callAllLoop lib status seqs s) := by
  induction seqs generalizing s with
  | nil =>
    refine ⟨.refl, Frame.refl s, hcur, fun seq x key hm => ?_, OldOnly.refl s⟩
    rcases hrest seq x key hm with hs | hs
    · cases hs
    · exact hs
  | cons seq seqs ih =>
    obtain ⟨hnot, hnd⟩ := List.nodup_cons.1 hnd
    unfold NonblockingReceiver.callAllLoop
    split
    · -- a callback has removed this entry
      rename_i hm
      refine ih h hlog hcur hnd (fun q hq => hlive q (List.mem_cons_of_mem _ hq)) fun q x k hq => ?_
      rcases hrest q x k hq with hs | hs
      · rcases List.mem_cons.1 hs with rfl | hs
        · rw [hm] at hq; cases hq
        · exact .inl hs
      · exact .inr hs
    rename_i x key hm
    have hb := hlive seq List.mem_cons_self x key hm
    rw [if_pos (Dict.mem_iff.2 ⟨seq, hb⟩)]
    have hstep : Step lib s _ := .failOne status hlog hm hb
    have h1 := h.step hstep
    have hm1 := complete_moves lib (.error x status none)
      (s := { s with receiver.handlerToMessageSeqMap :=
        s.receiver.handlerToMessageSeqMap.erase key }) h1
    have hcur1 : ∀ y, s.sender.handler = some y →
        y ∉ settled (s.log ++ [.completed (.error x status none)]) := by
      intro y hy hs
      rw [settled_completed, List.mem_append, List.mem_singleton] at hs
      rcases hs with hs | hs
      · exact hcur y hy hs
      · exact h.current_ne_map hy hm hs
    have hfr : Frame s (NonblockingPacketService.emit { s with
        receiver.handlerToMessageSeqMap := s.receiver.handlerToMessageSeqMap.erase key }
        (.completed (.error x status none))) := by
      refine ⟨rfl, rfl, rfl, rfl, Nat.le_refl _, fun _ h => .inl h, fun _ _ h => h, fun k q hk => ?_,
        [.completed (.error x status none)], rfl, by simp [Event.Calm, Completion.response]⟩
      dsimp only [emit_receiver] at hk
      rw [Dict.find_erase] at hk
      split at hk
      · cases hk
      · exact hk
    have hfr2 := hfr.trans hm1.frame.toFrame
    have hold : OldOnly s (NonblockingPacketService.emit { s with
        receiver.handlerToMessageSeqMap := s.receiver.handlerToMessageSeqMap.erase key }
        (.completed (.error x status none))) := by
      intro y hy
      rw [emit_log, settled_completed, List.mem_append, List.mem_singleton] at hy
      rcases hy with hy | rfl
      · exact .inl hy
      · exact .inr (.inr ⟨seq, key, hm⟩)
    have hold2 := hold.trans hm1.frame.old hfr.failed hfr.map
    generalize complete lib (.error x status none) _ = u at hm1 hfr2 hold2 ⊢
    have hlive1 : ∀ q ∈ seqs, ∀ y k, u.receiver.map.find q = some (y, k) →
        u.receiver.handlerToMessageSeqMap.find k = some q := by
      intro q hq y k hmq
      have hmq' : s.receiver.map.find q = some (y, k) := hm1.frame.map _ _ hmq
      refine hm1.frame.live q y k hmq ?_
      have h3 := h.map q y k hmq'
      have h4 := h.map seq x key hm
      have hne : q ≠ seq := fun e => hnot (e ▸ hq)
      dsimp only [emit_receiver]
      rw [Dict.find_erase, if_neg (by omega)]
      exact hlive q (List.mem_cons_of_mem _ hq) y k hmq'
    obtain ⟨a, b, c, d, e⟩ := ih (h1.steps hm1.steps)
      (by obtain ⟨n, hn, -⟩ := hfr2.log; rw [hn]; exact List.mem_append_left _ hlog)
      (hm1.frame.current h1 hcur1) hnd hlive1 (fun q y k hmq => by
        have hmq' : s.receiver.map.find q = some (y, k) := hm1.frame.map _ _ hmq
        rcases hrest q y k hmq' with hs | hs
        · rcases List.mem_cons.1 hs with rfl | hs
          · rw [hm] at hmq'
            cases hmq'
            refine .inr (hm1.frame.settled_mono ?_)
            rw [emit_log, settled_completed]
            simp [Completion.handler]
          · exact .inl hs
        · exact .inr (hfr2.settled_mono hs))
    exact ⟨.head hstep (hm1.steps.trans a), hfr2.trans b, c, d,
      hold2.trans e hfr2.failed hfr2.map⟩

/-- **CallAllErrorHandlers** leaves the receiver empty. -/
theorem callAll_moves (status : KineticStatus) (h : Inv s) (hq : Quiet s) :
    Settles lib (s.emit (.failedAll status))
        (NonblockingReceiver.callAllErrorHandlers lib status s) ∧
      Frame (s.emit (.failedAll status)) (NonblockingReceiver.callAllErrorHandlers lib status s) ∧
      (NonblockingReceiver.callAllErrorHandlers lib status s).receiver.map = ∅ ∧
      OldOnly (s.emit (.failedAll status))
        (NonblockingReceiver.callAllErrorHandlers lib status s) := by
  have h1 : Inv (s.emit (.failedAll status)) := h.note _ ⟨rfl, rfl, rfl⟩
  have hset : settled (s.emit (.failedAll status)).log = settled s.log := by
    simp [settled, completions]
  obtain ⟨a, b, c, d, e⟩ := callAllLoop_moves status s.receiver.map.keys h1
    (by simp) (by rw [hset]; exact hq.current) s.receiver.map.nodupKeys
    (fun seq _ x key hm => hq.awaiting seq x key hm)
    (fun seq x key hm => .inl (Dict.mem_keys_iff.2 ⟨_, hm⟩))
  unfold NonblockingReceiver.callAllErrorHandlers
  simp only [emit_receiver, hq.receiver]
  generalize NonblockingReceiver.callAllLoop lib status s.receiver.map.keys
    (s.emit (.failedAll status)) = t at a b c d e ⊢
  have hclear : Step lib t { t with receiver.map := ∅ } := .clear d
  have h2 := h1.steps a
  refine ⟨⟨a.tail hclear, h2.step hclear, ?_, fun q x k hm => ?_, c⟩, b.trans ?_, trivial, e⟩
  · rw [b.receiver]; exact hq.receiver
  · simp at hm
  · exact ⟨rfl, rfl, rfl, rfl, Nat.le_refl _, fun _ h => .inl h, fun q e hm => by simp at hm,
      fun _ _ h => h, [], by simp, by simp⟩

/-- What the receiver leaves alone. -/
structure ReceiveFrame (s t : NonblockingPacketService) : Prop where
  sent : t.socket.sent = s.socket.sent
  fd : t.socket.fd = s.socket.fd
  sender : t.sender = { s.sender with
    requestQueue := t.sender.requestQueue, sequenceNumber := t.sender.sequenceNumber }
  hmacKey : t.receiver.hmacKey = s.receiver.hmacKey
  failed : t.failed = s.failed
  handlers : s.handlers ≤ t.handlers
  queue : ∀ r ∈ t.sender.requestQueue, r ∈ s.sender.requestQueue ∨ s.handlers ≤ r.handler
  map : ∀ seq e, t.receiver.map.find seq = some e → s.receiver.map.find seq = some e
  old : OldOnly s t
  log : ∃ new, t.log = s.log ++ new

theorem ReceiveFrame.refl (s : NonblockingPacketService) : ReceiveFrame s s :=
  ⟨rfl, rfl, rfl, rfl, rfl, Nat.le_refl _, fun _ h => .inl h, fun _ _ h => h, OldOnly.refl s,
    [], by simp⟩

theorem ReceiveFrame.trans (h : ReceiveFrame s t) (h' : ReceiveFrame t u) : ReceiveFrame s u := by
  refine ⟨h'.sent.trans h.sent, h'.fd.trans h.fd, by rw [h'.sender, h.sender],
    h'.hmacKey.trans h.hmacKey, h'.failed.trans h.failed, Nat.le_trans h.handlers h'.handlers,
    fun r hr => ?_, fun q e he => h.map q e (h'.map q e he), h.old.trans h'.old h.failed h.map, ?_⟩
  · rcases h'.queue r hr with hr | hr
    · exact h.queue r hr
    · exact .inr (Nat.le_trans h.handlers hr)
  obtain ⟨n, hn⟩ := h.log
  obtain ⟨n', hn'⟩ := h'.log
  exact ⟨n ++ n', by rw [hn', hn, List.append_assoc]⟩

theorem Frame.receive (h : Frame s t) (ho : OldOnly s t) : ReceiveFrame s t := by
  obtain ⟨n, hn, -⟩ := h.log
  exact ⟨by rw [h.socket], by rw [h.socket], h.sender, by rw [h.receiver], h.failed, h.handlers,
    fun r hr => (h.queue r hr).imp_right And.right, h.map, ho, n, hn⟩

theorem ReceiveFrame.still (hsent : t.socket.sent = s.socket.sent) (hfd : t.socket.fd = s.socket.fd)
    (hsender : t.sender = s.sender) (hkey : t.receiver.hmacKey = s.receiver.hmacKey)
    (hf : t.failed = s.failed) (hh : t.handlers = s.handlers)
    (hmap : t.receiver.map = s.receiver.map) {l : List Event} (hlog : t.log = s.log ++ l)
    (hset : settled l = []) : ReceiveFrame s t := by
  refine ⟨hsent, hfd, by rw [hsender], hkey, hf, Nat.le_of_eq hh.symm, ?_, by rw [hmap]; simp,
    fun x hx => .inl ?_, l, hlog⟩
  · rw [hsender]; exact fun _ h => .inl h
  · rw [hlog, settled_append, hset, List.append_nil] at hx; exact hx

theorem readResponse_quiet (r : NonblockingPacketReader) (h : Inv s) (hq : Quiet s) :
    Inv (NonblockingReceiver.readResponse lib r s).2 ∧
      Quiet (NonblockingReceiver.readResponse lib r s).2 ∧
      settled (NonblockingReceiver.readResponse lib r s).2.log = settled s.log := by
  have hf := readResponse_frame lib r s
  obtain ⟨hl1, hl2⟩ := readResponse_log lib r s
  have hs : settled (NonblockingReceiver.readResponse lib r s).2.log = settled s.log := by
    by_cases hd : (NonblockingReceiver.readResponse lib r s).1 = .done
    · rw [hl1 hd]; simp [settled, completions]
    · rw [hl2 hd]
  refine ⟨h.of_read (t := (NonblockingReceiver.readResponse lib r s).2) rfl, ⟨?_, ?_, ?_⟩, hs⟩
  · rw [hf.handler]; exact hq.receiver
  · rw [hf.map, hf.back]; exact hq.awaiting
  · rw [hf.sender, hs]; exact hq.current

theorem readResponse_receive (r : NonblockingPacketReader) (s : NonblockingPacketService)
    (hk : ∃ got, Socket.Took s.socket (NonblockingReceiver.readResponse lib r s).2.socket got) :
    ReceiveFrame s (NonblockingReceiver.readResponse lib r s).2 := by
  have hf := readResponse_frame lib r s
  obtain ⟨hl1, hl2⟩ := readResponse_log lib r s
  obtain ⟨got, ht⟩ := hk
  have hsent : (NonblockingReceiver.readResponse lib r s).2.socket.sent = s.socket.sent := by
    rw [ht.frame]
  have hfd : (NonblockingReceiver.readResponse lib r s).2.socket.fd = s.socket.fd := by
    rw [ht.frame]
  by_cases hd : (NonblockingReceiver.readResponse lib r s).1 = .done
  · exact .still hsent hfd hf.sender hf.hmacKey hf.failed hf.handlers hf.map (hl1 hd) rfl
  · exact .still hsent hfd hf.sender hf.hmacKey hf.failed hf.handlers hf.map (l := [])
      (by rw [hl2 hd]; simp) rfl

/-- The call that `dispatch` makes, and the state it makes it in. -/
theorem dispatch_eq {seq : Int} {x key : Nat} (hk : key ∈ s.receiver.handlerToMessageSeqMap) :
    ∃ v, let s' := { s with
        receiver.handler := some x
        receiver.map := s.receiver.map.erase seq
        receiver.handlerToMessageSeqMap := s.receiver.handlerToMessageSeqMap.erase key
        receiver.value := v }
      answered seq x key s = s'.emit (.completed (NonblockingReceiver.answer x s).1) ∧
      NonblockingReceiver.dispatch lib seq x key s =
        { complete lib (NonblockingReceiver.answer x s).1 s' with receiver.handler := none } := by
  unfold answered NonblockingReceiver.dispatch NonblockingReceiver.answer
  dsimp only
  rw [if_pos hk]
  split
  · exact ⟨none, rfl, rfl⟩
  · exact ⟨s.receiver.value, rfl, rfl⟩

/-- **A dispatched response** calls its handler and makes no other moves than
the callback's. -/
theorem dispatch_moves {seq : Int} {x key : Nat} (h : Inv s) (hq : Quiet s)
    (hm : s.receiver.map.find seq = some (x, key)) :
    Settles lib (answered seq x key s) (NonblockingReceiver.dispatch lib seq x key s) ∧
      Frame (answered seq x key s)
        { NonblockingReceiver.dispatch lib seq x key s with receiver.handler := some x } ∧
      (NonblockingReceiver.dispatch lib seq x key s).receiver.handler = none ∧
      OldOnly (answered seq x key s) (NonblockingReceiver.dispatch lib seq x key s) := by
  have hb := hq.awaiting seq x key hm
  have h1 := h.answered hm hb
  obtain ⟨v, ha, hd⟩ := dispatch_eq (x := x)
    (Dict.mem_iff.2 ⟨seq, hb⟩)
  have hc := answer_handler x s
  generalize (NonblockingReceiver.answer x s).1 = c at hc ha hd
  rw [ha] at h1
  rw [ha, hd]
  have hm1 := complete_moves lib c h1
  have hcur1 : ∀ y, s.sender.handler = some y → y ∉ settled (s.log ++ [.completed c]) := by
    intro y hy hs
    rw [settled_completed, List.mem_append, List.mem_singleton, hc] at hs
    rcases hs with hs | hs
    · exact hq.current y hy hs
    · exact h.current_ne_map hy hm hs
  have hcur2 := hm1.frame.current h1 hcur1
  have hfr := hm1.frame
  have hold := hm1.frame.old
  generalize complete lib c _ = u at hm1 hcur2 hfr hold ⊢
  have hbook : Step lib u { u with receiver.handler := none } :=
    .bookkeeping u.receiver.nonblockingResponse none
  refine ⟨⟨hm1.steps.tail hbook, (h1.steps hm1.steps).step hbook, rfl, fun q y k hmq => ?_, hcur2⟩,
    ?_, rfl, hold⟩
  · have hmq' := hfr.map q _ hmq
    refine hfr.live q y k hmq ?_
    dsimp only [emit_receiver] at hmq' ⊢
    rw [Dict.find_erase] at hmq'
    split at hmq'
    · cases hmq'
    rename_i hne
    have h3 := h.map q y k hmq'
    have h4 := h.map seq x key hm
    rw [Dict.find_erase, if_neg (by omega)]
    exact hq.awaiting q y k hmq'
  · refine ⟨hfr.socket, hfr.sender, ?_, hfr.failed, hfr.handlers, hfr.queue, hfr.map, hfr.back,
      hfr.log⟩
    have := hfr.receiver
    dsimp only at this ⊢
    rw [this]
    rfl

/-- What is done with a packet, from the state before its last read. -/
structure Processed (lib : Lib) (s s' t : NonblockingPacketService)
    (st : Option NonblockingPacketServiceStatus) : Prop where
  settles : Settles lib s t
  frame : ReceiveFrame s' t
  socket : t.socket = s'.socket
  reader : t.receiver.nonblockingResponse = s'.receiver.nonblockingResponse
  status : st ≠ some .ioWait
  empty : st ≠ none → t.receiver.map = ∅

theorem reject_moves {r : NonblockingPacketReader} {s' : NonblockingPacketService} (h' : Inv s')
    (hq' : Quiet s') (hr : NonblockingReceiver.readResponse lib r s = (.done, s'))
    (command : Command) (connectionId : Int) (status : KineticStatus)
    {st : NonblockingPacketServiceStatus} (hst : st ≠ .ioWait) :
    Processed lib s s' (NonblockingReceiver.callAllErrorHandlers lib status
      { s' with receiver.command := command, receiver.connectionId := connectionId }) (some st) := by
  have hstep := Step.reject (s := s) command connectionId status hr
  obtain ⟨a, b, c, d⟩ := callAll_moves status (h'.stored command connectionId)
    (hq'.stored command connectionId)
  refine ⟨a.after (.single hstep), ?_, b.socket, by rw [b.receiver]; rfl, by simpa using hst,
    fun _ => c⟩
  refine ReceiveFrame.trans ?_ (b.receive d)
  exact .still rfl rfl rfl rfl rfl rfl rfl rfl rfl

/-- **Processing a packet** is one move, and what the callbacks do. -/
theorem process_moves {r : NonblockingPacketReader} {s' : NonblockingPacketService} (h : Inv s)
    (hq : Quiet s) (hr : NonblockingReceiver.readResponse lib r s = (.done, s')) :
    Processed lib s s' (NonblockingReceiver.processResponse lib s').2
      (NonblockingReceiver.processResponse lib s').1 := by
  obtain ⟨h', hq', -⟩ := readResponse_quiet r h hq
  rw [hr] at h' hq'
  dsimp only at h' hq'
  have hfr2 : ∀ command, ReceiveFrame s' (NonblockingReceiver.noteCommand command s') := fun _ =>
    .still rfl rfl rfl rfl rfl rfl rfl (l := []) (by simp [NonblockingReceiver.noteCommand]) rfl
  have hp := processing lib s'
  generalize NonblockingReceiver.processResponse lib s' = out at hp ⊢
  cases hp with
  | mismatch _ _ =>
    exact reject_moves h' hq' hr s'.receiver.command s'.receiver.connectionId _ (by simp)
  | @unparsed command _ _ =>
    exact reject_moves h' hq' hr command s'.receiver.connectionId _ (by simp)
  | unacknowledged _ _ => exact reject_moves h' hq' hr _ _ _ (by simp)
  | unmatched hread hack hm =>
    exact ⟨⟨.single (.drop hr hread hack hm), h'.noted _, hq'.noted _⟩, hfr2 _, rfl, rfl, by simp,
      by simp⟩
  | @matched command ack x key hread hack hm =>
    have hb := (hq'.noted command).awaiting ack x key hm
    obtain ⟨a, b, c, d⟩ := dispatch_moves (h'.noted command) (hq'.noted command) hm
    obtain ⟨v, hv⟩ := answered_eq ack x key (NonblockingReceiver.noteCommand command s')
    have hfr3 : ReceiveFrame (NonblockingReceiver.noteCommand command s')
        (answered ack x key (NonblockingReceiver.noteCommand command s')) := by
      rw [hv]
      refine ⟨rfl, rfl, rfl, rfl, rfl, Nat.le_refl _, fun _ h => .inl h, fun q e he => ?_,
        fun y hy => ?_, _, rfl⟩
      · dsimp only [emit_receiver] at he
        rw [Dict.find_erase] at he
        split at he
        · cases he
        · exact he
      · rw [emit_log, settled_completed, List.mem_append, List.mem_singleton, answer_handler] at hy
        rcases hy with hy | rfl
        · exact .inl hy
        · exact .inr (.inr ⟨ack, key, hm⟩)
    have hs3 : (answered ack x key (NonblockingReceiver.noteCommand command s')).socket = s'.socket ∧
        (answered ack x key
          (NonblockingReceiver.noteCommand command s')).receiver.nonblockingResponse =
          s'.receiver.nonblockingResponse := by
      rw [hv]
      exact ⟨rfl, rfl⟩
    have hfr4 := b.receive d
    refine ⟨a.after (.single (.deliver hr hread hack hm hb)), ((hfr2 command).trans hfr3).trans
      ⟨hfr4.sent, hfr4.fd, hfr4.sender, hfr4.hmacKey, hfr4.failed, hfr4.handlers, hfr4.queue,
        hfr4.map, d, hfr4.log⟩,
      b.socket.trans hs3.1, ?_, by simp, by simp⟩
    have := congrArg NonblockingReceiver.nonblockingResponse b.receiver
    exact this.trans hs3.2

/-! ## The reader between calls -/

/-- The reader, when there is one, is in the middle of a packet. -/
def Reading (lib : Lib) (s : NonblockingPacketService) : Prop :=
  ∀ r, s.receiver.nonblockingResponse = some r →
    NonblockingPacketReader.Pending lib ⟨r, s.receiver.message, s.receiver.value, s.socket⟩

open NonblockingPacketReader in
theorem pending_congr {c c' : ReadState} (h : Pending lib c) (hp : c'.packet = c.packet) :
    Pending lib c' := by
  obtain ⟨p, m, v, k⟩ := c
  obtain ⟨p', m', v', k'⟩ := c'
  obtain rfl : p' = p := hp
  obtain ⟨⟨hok, hm⟩, hu, hs⟩ := h
  refine ⟨⟨hok, ?_⟩, hu, hs⟩
  cases hst : p'.state
  case finished => exact absurd hst hu
  all_goals
    simp only [hst] at hm ⊢
    exact hm

/-- The receiver's side of `Read`, in terms of the stream. -/
theorem readResponse_spec (r : NonblockingPacketReader)
    (h : NonblockingPacketReader.Pending lib ⟨r, s.receiver.message, s.receiver.value, s.socket⟩)
    {fragments : Prop} (hk : fragments → s.socket.ReadsFragment) :
    ∃ got c, Socket.Took s.socket (NonblockingReceiver.readResponse lib r s).2.socket got ∧
      c.packet.consumed = r.consumed ++ got ∧
      c.socket = (NonblockingReceiver.readResponse lib r s).2.socket ∧
      NonblockingPacketReader.Outcome lib fragments
        (NonblockingReceiver.readResponse lib r s).1 c ∧
      c.response = (NonblockingReceiver.readResponse lib r s).2.receiver.message ∧
      c.value = (NonblockingReceiver.readResponse lib r s).2.receiver.value ∧
      ((NonblockingReceiver.readResponse lib r s).1 ≠ .done →
        (NonblockingReceiver.readResponse lib r s).2.receiver.nonblockingResponse = some c.packet) ∧
      ((NonblockingReceiver.readResponse lib r s).1 = .done →
        (NonblockingReceiver.readResponse lib r s).2.receiver.nonblockingResponse = none) := by
  obtain ⟨got, ht, hc, ho⟩ := NonblockingPacketReader.read_spec lib
    ⟨r, s.receiver.message, s.receiver.value, s.socket⟩ h.ok hk
  unfold NonblockingReceiver.readResponse
  cases he : NonblockingPacketReader.read lib
    ⟨r, s.receiver.message, s.receiver.value, s.socket⟩ with
  | mk st c =>
  rw [he] at ht hc ho
  cases st with
  | inProgress => exact ⟨got, c, ht, hc, rfl, ho, rfl, rfl, fun _ => rfl, by simp⟩
  | failed => exact ⟨got, c, ht, hc, rfl, ho, rfl, rfl, fun _ => rfl, by simp⟩
  | done => exact ⟨got, c, ht, hc, rfl, ho, rfl, rfl, by simp, fun _ => rfl⟩

structure ReceiveEnds (lib : Lib) (st : NonblockingPacketServiceStatus)
    (t : NonblockingPacketService) : Prop where
  idle : st = .idle → t.receiver.map = ∅ ∧ t.receiver.nonblockingResponse = none
  ioWait : st = .ioWait → t.receiver.nonblockingResponse ≠ none
  error : st = .error → t.receiver.map = ∅
  reading : st ≠ .error → Reading lib t

/-- The bytes taken for the packet being read. -/
def taken (s : NonblockingPacketService) : Bytes :=
  match s.receiver.nonblockingResponse with
  | none => []
  | some r => r.consumed

/-- `s₁` is `s` with the reader `r`, which may be new. -/
structure Opened (lib : Lib) (s : NonblockingPacketService) (r : NonblockingPacketReader)
    (s₁ : NonblockingPacketService) : Prop where
  settles : Settles lib s s₁
  frame : ReceiveFrame s s₁
  reader : s₁.receiver.nonblockingResponse = some r
  reading : Reading lib s₁
  socket : s₁.socket = s.socket
  log : s₁.log = s.log
  taken : r.consumed = taken s
  opens : NonblockingReceiver.openResponse s = some (r, s₁)

theorem openResponse_moves (h : Inv s) (hq : Quiet s) (hrd : Reading lib s) :
    (NonblockingReceiver.openResponse s = none ∧ s.receiver.map = ∅ ∧
      s.receiver.nonblockingResponse = none) ∨
    ∃ r s₁, NonblockingReceiver.openResponse s = some (r, s₁) ∧ Opened lib s r s₁ := by
  unfold NonblockingReceiver.openResponse
  split
  · rename_i r hr
    exact .inr ⟨r, s, rfl, Settles.refl h hq, ReceiveFrame.refl s, hr, hrd, rfl, rfl,
      by rw [taken, hr], by simp [NonblockingReceiver.openResponse, hr]⟩
  · rename_i hr
    split
    · rename_i hm; exact .inl ⟨rfl, hm, hr⟩
    · rename_i hm
      have hstep : Step lib s _ := .bookkeeping (s := s) (some NonblockingPacketReader.create)
        s.receiver.handler
      refine .inr ⟨_, _, rfl, ⟨.single hstep, h.step hstep, hq.receiver, hq.awaiting, hq.current⟩,
        .still rfl rfl rfl rfl rfl rfl rfl (l := []) (by simp) rfl, rfl, ?_, rfl, rfl, ?_, ?_⟩
      · intro r hr'
        obtain rfl := Option.some.inj hr'
        exact NonblockingPacketReader.pending_create lib _ _ _
      · rw [taken, hr]
        rfl
      · simp only [NonblockingReceiver.openResponse, hr, if_neg hm]

/-- **One turn of `Receive`**: nobody waits, or a read leaves the state `t`; a
packet costs an answer of the transport. -/
theorem receive_turn (h : Inv s) (hq : Quiet s) (hrd : Reading lib s) :
    ((∀ fuel, NonblockingReceiver.receiveLoop lib (fuel + 1) s = (.idle, s)) ∧
      s.receiver.map = ∅ ∧ s.receiver.nonblockingResponse = none) ∨
    ∃ (st : NonblockingStringStatus) (r : NonblockingPacketReader)
      (s₁ t : NonblockingPacketService),
      (∀ fuel, NonblockingReceiver.receiveLoop lib (fuel + 1) s =
        match st with
        | .inProgress => (.ioWait, t)
        | .failed => (.error, NonblockingReceiver.callAllErrorHandlers lib
            ⟨.clientIoError, "I/O read error", 0⟩ t)
        | .done =>
          match NonblockingReceiver.processResponse lib t with
          | (some st, u) => (st, u)
          | (none, u) => NonblockingReceiver.receiveLoop lib fuel u) ∧
      Opened lib s r s₁ ∧ NonblockingReceiver.readResponse lib r s₁ = (st, t) ∧
      Inv t ∧ Quiet t ∧ ReceiveFrame s t ∧
      (st = .inProgress → Reading lib t ∧ t.receiver.nonblockingResponse ≠ none) ∧
      (st = .done → t.receiver.nonblockingResponse = none ∧
        t.socket.reads.length < s.socket.reads.length) := by
  rcases openResponse_moves h hq hrd with ⟨he, hm, hr⟩ | ⟨r, s₁, he, hop⟩
  · exact .inl ⟨fun fuel => by simp only [NonblockingReceiver.receiveLoop, he], hm, hr⟩
  have hpend := hop.reading r hop.reader
  obtain ⟨got, c, ht, hc, -, ho, -, -, hnext, hgone⟩ :=
    readResponse_spec r hpend (fun h : False => h.elim)
  obtain ⟨h2, hq2, -⟩ := readResponse_quiet r hop.settles.inv hop.settles.quiet
  have hfr2 := hop.frame.trans (readResponse_receive r s₁ ⟨got, ht⟩)
  cases hrs : NonblockingReceiver.readResponse lib r s₁ with
  | mk st t =>
  rw [hrs] at ht ho hnext hgone h2 hq2 hfr2
  dsimp only at ht ho hnext hgone h2 hq2 hfr2
  refine .inr ⟨st, r, s₁, t, fun fuel => ?_, hop, hrs, h2, hq2, hfr2, fun hst => ?_, fun hst => ?_⟩
  · simp only [NonblockingReceiver.receiveLoop, he, hrs]
    cases st <;> rfl
  · subst hst
    have hn := hnext (by simp)
    refine ⟨fun r' hr' => ?_, by rw [hn]; simp⟩
    have hp : NonblockingPacketReader.Pending lib c := by cases ho; assumption
    rw [hn] at hr'
    obtain rfl := Option.some.inj hr'
    exact pending_congr hp rfl
  · subst hst
    have hne := hpend.takes ho hc
    exact ⟨hgone rfl, by rw [← hop.socket]; exact ht.used hne⟩

/-- **Receive** makes moves only, and leaves nothing half done. -/
theorem receiveLoop_moves (fuel : Nat) (h : Inv s) (hq : Quiet s) (hrd : Reading lib s)
    (hfuel : s.socket.reads.length < fuel) :
    Settles lib s (NonblockingReceiver.receiveLoop lib fuel s).2 ∧
      ReceiveFrame s (NonblockingReceiver.receiveLoop lib fuel s).2 ∧
      ReceiveEnds lib (NonblockingReceiver.receiveLoop lib fuel s).1
        (NonblockingReceiver.receiveLoop lib fuel s).2 := by
  induction fuel generalizing s with
  | zero => omega
  | succ fuel ih =>
    rcases receive_turn h hq hrd with
      ⟨he, hm, hr⟩ | ⟨st, r, s₁, t, he, ⟨hs, -⟩, hrs, h2, hq2, hfr, hwait, hdone⟩
    · rw [he fuel]
      exact ⟨Settles.refl h hq, ReceiveFrame.refl s, fun _ => ⟨hm, hr⟩, by simp, by simp,
        fun _ => hrd⟩
    rw [he fuel]
    cases st with
    | inProgress =>
      obtain ⟨h3, h4⟩ := hwait rfl
      exact ⟨⟨hs.steps.tail (.read hrs (by simp)), h2, hq2⟩, hfr, by simp, fun _ => h4, by simp,
        fun _ => h3⟩
    | failed =>
      obtain ⟨a, b, c, d⟩ := callAll_moves ⟨.clientIoError, "I/O read error", 0⟩ h2 hq2
      refine ⟨a.after ((hs.steps.tail (.read hrs (by simp))).tail (.failAll _)), hfr.trans ?_,
        by simp, by simp, fun _ => c, by simp⟩
      refine ReceiveFrame.trans ?_ (b.receive d)
      exact .still rfl rfl rfl rfl rfl rfl rfl rfl rfl
    | done =>
      obtain ⟨hset, hpf, hsock, hrdr, hst, hemp⟩ := process_moves hs.inv hs.quiet hrs
      obtain ⟨hnone, hlt⟩ := hdone rfl
      dsimp only
      cases hpr : NonblockingReceiver.processResponse lib t with
      | mk st' u =>
      rw [hpr] at hset hpf hsock hrdr hst hemp
      dsimp only at hset hpf hsock hrdr hst hemp ⊢
      have hrd3 : Reading lib u := by
        intro r' hr'; rw [hrdr, hnone] at hr'; cases hr'
      cases st' with
      | some st =>
        have he : u.receiver.map = ∅ := hemp (by simp)
        exact ⟨hset.after hs.steps, hfr.trans hpf, fun _ => ⟨he, hrdr.trans hnone⟩,
          fun hw => absurd (congrArg some hw) hst, fun _ => he, fun _ => hrd3⟩
      | none =>
        obtain ⟨a, b, c⟩ := ih hset.inv hset.quiet hrd3 (by rw [hsock]; omega)
        exact ⟨(a.after hset.steps).after hs.steps, (hfr.trans hpf).trans b, c⟩

/-- Any fuel above the number of answers gives the same. -/
theorem receiveLoop_fuel (f g : Nat) (h : Inv s) (hq : Quiet s) (hrd : Reading lib s)
    (hlf : s.socket.reads.length < f) (hlg : s.socket.reads.length < g) :
    NonblockingReceiver.receiveLoop lib f s = NonblockingReceiver.receiveLoop lib g s := by
  induction f generalizing s g with
  | zero => omega
  | succ f ih =>
    obtain _ | g := g
    · omega
    rcases receive_turn h hq hrd with
      ⟨he, -⟩ | ⟨st, r, s₁, t, he, ⟨hs, -⟩, hrs, h2, hq2, hfr, -, hdone⟩
    · rw [he f, he g]
    rw [he f, he g]
    cases st with
    | inProgress => rfl
    | failed => rfl
    | done =>
      obtain ⟨hset, -, hsock, hrdr, -, -⟩ := process_moves hs.inv hs.quiet hrs
      obtain ⟨hnone, hlt⟩ := hdone rfl
      dsimp only
      cases hpr : NonblockingReceiver.processResponse lib t with
      | mk st' u =>
      rw [hpr] at hset hsock hrdr
      dsimp only at hset hsock hrdr ⊢
      cases st' with
      | some st => rfl
      | none =>
        exact ih g hset.inv hset.quiet (fun r' hr' => by rw [hrdr, hnone] at hr'; cases hr')
          (by rw [hsock]; omega) (by rw [hsock]; omega)

theorem receive_moves (h : Inv s) (hq : Quiet s) (hrd : Reading lib s) :
    Settles lib s (NonblockingReceiver.receive lib s).2 ∧
      ReceiveFrame s (NonblockingReceiver.receive lib s).2 ∧
      ReceiveEnds lib (NonblockingReceiver.receive lib s).1
        (NonblockingReceiver.receive lib s).2 := receiveLoop_moves _ h hq hrd (Nat.lt_succ_self _)

end Kinetic.L2
