import Kinetic.L1Wire.Codec
import Kinetic.L2Service.Records

/-!
# The bytes on the wire

What the descriptor has accepted is, packet after packet, the requests in the
order of their submission, up to some byte of the packet the sender is at; a
request that was removed from the queue is skipped as a whole (`wire`). The
requests not yet begun are the queue, behind those that a failing write or the
destruction has drained (`WireAt`).
-/
open Kinetic.Core

namespace Kinetic.L2

open L1 NonblockingPacketService

variable {lib : Lib} {s t : NonblockingPacketService}

/-- The requests accepted and not removed from the queue, in order. -/
def outgoing (log : List Event) : List Request :=
  (accepted log).filter fun r => r.handler ∉ unsent log

def Request.packet (lib : Lib) (r : Request) : Bytes := encode lib r.message r.value

/-- What is left of the packet being written. -/
def unwritten (lib : Lib) (s : NonblockingPacketService) : Bytes :=
  match s.sender.currentWriter with
  | none => []
  | some w => w.remaining lib

/-- The bytes accepted are those of the requests begun, short of what the
writer still has; the rest is drained or queued. -/
structure WireAt (lib : Lib) (s : NonblockingPacketService) (begun drained : List Request) :
    Prop where
  order : outgoing s.log = begun ++ (drained ++ s.sender.requestQueue)
  bytes : s.socket.sent ++ unwritten lib s = begun.flatMap (Request.packet lib)
  drains : drained ≠ [] → s.failed = true ∨
    s.sender.currentWriter ≠ none ∧ s.sender.handler = none

/-! ## The log -/

theorem outgoing_append {l new : List Event} (ha : accepted new = []) (hu : unsent new = []) :
    outgoing (l ++ new) = outgoing l := by
  simp [outgoing, ha, hu]

theorem outgoing_submitted (h : Inv s) {r : Request} (hr : r.handler = s.handlers) :
    outgoing (s.log ++ [.submitted r]) = outgoing s.log ++ [r] := by
  have hnew : r.handler ∉ unsent s.log := by
    intro hu
    obtain ⟨e, he, hx⟩ := List.mem_filterMap.1 hu
    have hw : r.handler ∈ withdrawn s.log := by
      refine List.mem_filterMap.2 ⟨e, he, ?_⟩
      split at hx
      · exact hx
      · cases hx
    have := h.issued_lt _ (h.ledger.withdrawn_issued hw)
    omega
  have hu : unsent [Event.submitted r] = [] := rfl
  have ha : accepted [Event.submitted r] = [r] := rfl
  simp only [outgoing, accepted_append, unsent_append, hu, ha, List.append_nil, List.filter_append]
  simp [hnew]

theorem outgoing_removed {l : List Event} {x k : Nat} :
    outgoing (l ++ [.removed x k true]) = (outgoing l).filter (·.handler ≠ x) := by
  have hu : unsent [Event.removed x k true] = [x] := rfl
  have ha : accepted [Event.removed x k true] = [] := rfl
  simp only [outgoing, accepted_append, unsent_append, hu, ha, List.append_nil, List.filter_filter]
  congr 1
  funext r
  simp [and_comm]

theorem filter_eq_eraseP {q : List Request} {key : Nat} (hk : ∀ r ∈ q, r.handlerKey = r.handler)
    (hd : q.Pairwise fun r r' => r.handler < r'.handler) :
    q.filter (·.handler ≠ key) = q.eraseP (·.handlerKey == key) := by
  induction q with
  | nil => rfl
  | cons r q ih =>
    obtain ⟨hlt, hd⟩ := List.pairwise_cons.1 hd
    have hr := hk r List.mem_cons_self
    by_cases he : r.handler = key
    · rw [List.eraseP_cons_of_pos (by simp [hr, he]), List.filter_cons_of_neg (by simp [he])]
      refine List.filter_eq_self.2 fun x hx => ?_
      have := hlt x hx
      simp only [ne_eq, decide_eq_true_eq]
      omega
    · rw [List.eraseP_cons_of_neg (by simp [hr, he]), List.filter_cons_of_pos (by simp [he]),
        ih (fun x hx => hk x (List.mem_cons_of_mem _ hx)) hd]

theorem outgoing_sublist (l : List Event) : (outgoing l).Sublist (accepted l) := List.filter_sublist

/-! ## The moves -/

namespace WireAt

variable {begun drained : List Request}

theorem frame (h : WireAt lib s begun drained) (hsent : t.socket.sent = s.socket.sent)
    (hsender : t.sender = s.sender) (hf : s.failed = true → t.failed = true)
    (hlog : outgoing t.log = outgoing s.log) : WireAt lib t begun drained := by
  obtain ⟨h1, h2, h3⟩ := h
  refine ⟨by rw [hlog, hsender]; exact h1, ?_, fun hd => ?_⟩
  · rw [hsent, unwritten, hsender]; exact h2
  · rw [hsender]; exact (h3 hd).imp_left hf

theorem undrained (h : WireAt lib s begun drained) (hf : s.failed = false)
    (hc : s.sender.currentWriter = none ∨ s.sender.handler ≠ none) : drained = [] := by
  by_contra hd
  rcases h.drains hd with hf' | ⟨hw, hh⟩
  · rw [hf] at hf'; cases hf'
  · rcases hc with hc | hc
    · exact hw hc
    · exact hc hh

theorem read (h : WireAt lib s begun drained) (r : NonblockingPacketReader) :
    WireAt lib (NonblockingReceiver.readResponse lib r s).2 begun drained := by
  have hf := readResponse_frame lib r s
  obtain ⟨h1, h2⟩ := readResponse_log lib r s
  refine h.frame hf.sent hf.sender (by rw [hf.failed]; exact id) ?_
  by_cases hd : (NonblockingReceiver.readResponse lib r s).1 = .done
  · rw [h1 hd]; exact outgoing_append rfl rfl
  · rw [h2 hd]

/-- **Every move keeps the wire in order.** -/
theorem step (hi : Inv s) (hr : Records lib s) (h : WireAt lib s begun drained)
    (hst : Step lib s t) : ∃ begun drained, WireAt lib t begun drained := by
  cases hst with
  | environment socket scripts hs => exact ⟨_, _, h.frame hs rfl id rfl⟩
  | accept m c v hf hd =>
    obtain ⟨r, he, hh, -⟩ := enqueue_spec lib m c v s.handlers s.nextKey s.count
    rw [he]
    refine ⟨begun, drained, ?_, h.bytes, h.drains⟩
    show outgoing (s.log ++ [.submitted r]) = begun ++ (drained ++ (s.sender.requestQueue ++ [r]))
    rw [outgoing_submitted hi hh, h.order]
    simp
  | refuse hf =>
    refine ⟨begun, drained, h.frame rfl rfl id ?_⟩
    rw [emit_log, emit_log, List.append_assoc]
    exact outgoing_append rfl rfl
  | @removeQueued key r hf =>
    refine ⟨begun, drained, ?_, h.bytes, h.drains⟩
    have hmem := List.mem_of_find?_eq_some hf
    have hkey : r.handler = key := by
      have := List.find?_some hf
      rw [← (hi.queue r hmem).key]
      exact beq_iff_eq.1 this
    have hsorted := hr.sorted.sublist (outgoing_sublist s.log)
    rw [h.order, List.pairwise_append, List.pairwise_append] at hsorted
    obtain ⟨-, ⟨-, hq, hdq⟩, hbq⟩ := hsorted
    -- the removed request is in the queue, behind everything begun or drained
    have hrest : ∀ {l : List Request}, (∀ x ∈ l, x.handler < r.handler) →
        l.filter (·.handler ≠ r.handler) = l := fun hl => List.filter_eq_self.2 fun x hx => by
      have := hl x hx
      simp only [ne_eq, decide_eq_true_eq]
      omega
    dsimp only
    rw [outgoing_removed, h.order, List.filter_append, List.filter_append,
      hrest fun x hx => hbq x hx r (List.mem_append_right _ hmem),
      hrest fun x hx => hdq x hx r hmem, hkey,
      filter_eq_eraseP (fun x hx => (hi.queue x hx).key) hq]
  | removeAwaiting _ _ => exact ⟨begun, drained, h.frame rfl rfl id (outgoing_append rfl rfl)⟩
  | @start r rest hf hw hh hq =>
    have hd := h.undrained hf (.inl hw)
    subst hd
    refine ⟨begun ++ [r], [], ?_, ?_, fun hd => absurd rfl hd⟩
    · have := h.order
      rw [hq] at this
      simpa using this
    · have := h.bytes
      rw [unwritten, hw, List.append_nil] at this
      dsimp only [unwritten]
      rw [NonblockingPacketWriter.remaining_create, this, List.flatMap_append]
      simp [Request.packet]
  | @write w w' st k hf hw hwr =>
    obtain ⟨out, hg, hrem, -⟩ := w.write_spec lib s.socket
    rw [hwr] at hg hrem
    dsimp only at hg hrem
    refine ⟨begun, drained, h.order, ?_, fun hd => ?_⟩
    · have := h.bytes
      rw [unwritten, hw] at this
      dsimp only [unwritten] at this ⊢
      rw [hg.sent, List.append_assoc, ← hrem]
      exact this
    · refine (h.drains hd).imp_right fun hh => ⟨by simp, hh.2⟩
  | @finish w x hf hw hrem hh hun =>
    have hd := h.undrained hf (.inr (by rw [hh]; simp))
    subst hd
    refine ⟨begun, [], ?_, ?_, fun hd => absurd rfl hd⟩
    · dsimp only
      rw [outgoing_append rfl rfl]
      exact h.order
    · have := h.bytes
      rw [unwritten, hw] at this
      dsimp only [unwritten] at this ⊢
      rwa [hrem] at this
  | writeFail status _ _ => exact ⟨_, _, h.frame rfl rfl id (outgoing_append rfl rfl)⟩
  | letGo _ =>
    refine ⟨begun, drained, h.order, h.bytes, fun hd => ?_⟩
    exact (h.drains hd).imp_right fun hh => ⟨hh.1, rfl⟩
  | @failQueued r rest status hg hq =>
    refine ⟨begun, drained ++ [r], ?_, h.bytes, fun _ => hg⟩
    dsimp only [emit_log, emit_sender]
    rw [outgoing_append rfl rfl, h.order, hq]
    simp
  | bookkeeping r x => exact ⟨_, _, h.frame rfl rfl id rfl⟩
  | @read s' r st hrd _ =>
    have := h.read r
    rw [hrd] at this
    exact ⟨_, _, this⟩
  | @deliver s' r command ack x key hrd _ _ _ _ =>
    have := h.read r
    rw [hrd] at this
    obtain ⟨v, hv⟩ := answered_eq ack x key (NonblockingReceiver.noteCommand command s')
    rw [hv]
    exact ⟨_, _, this.frame rfl rfl id (outgoing_append rfl rfl)⟩
  | @drop s' r command ack hrd _ _ _ =>
    have := h.read r
    rw [hrd] at this
    exact ⟨_, _, this.frame rfl rfl id rfl⟩
  | @reject s' r command connectionId status hrd =>
    have := h.read r
    rw [hrd] at this
    exact ⟨_, _, this.frame rfl rfl id (outgoing_append rfl rfl)⟩
  | failAll status => exact ⟨_, _, h.frame rfl rfl id (outgoing_append rfl rfl)⟩
  | failOne status _ _ _ => exact ⟨_, _, h.frame rfl rfl id (outgoing_append rfl rfl)⟩
  | clear _ => exact ⟨_, _, h.frame rfl rfl id rfl⟩
  | cleanUp => exact ⟨_, _, h.frame rfl rfl (fun _ => rfl) rfl⟩

end WireAt

theorem Fresh.wireAt (h : Fresh s) : WireAt lib s [] [] := by
  refine ⟨by simp [h.log, h.requestQueue, outgoing, accepted], ?_, fun hd => absurd rfl hd⟩
  simp [h.sent, unwritten, h.currentWriter]

/-- What is known of the wire, with the records it rests on. -/
def OnWire (lib : Lib) (s : NonblockingPacketService) : Prop :=
  Records lib s ∧ ∃ begun drained, WireAt lib s begun drained

theorem OnWire.step (hi : Inv s) (h : OnWire lib s) (hst : Step lib s t) : OnWire lib t := by
  obtain ⟨hr, begun, drained, hw⟩ := h
  exact ⟨hr.step hi hst, hw.step hi hr hst⟩

theorem onWire (h : (service lib).Reachable s) : OnWire lib s :=
  invariant_of_moves (fun _ h0 => ⟨h0.records, [], [], h0.wireAt⟩)
    (fun _ _ hi hp hst => hp.step hi hst) h

theorem OnWire.upTo (h : OnWire lib s) :
    s.socket.sent <+: (outgoing s.log).flatMap (Request.packet lib) := by
  obtain ⟨-, begun, drained, hw⟩ := h
  refine ⟨unwritten lib s ++ (drained ++ s.sender.requestQueue).flatMap (Request.packet lib), ?_⟩
  rw [← List.append_assoc, hw.bytes, hw.order]
  simp only [List.flatMap_append]

theorem OnWire.whole (h : OnWire lib s) (hf : s.failed = false)
    (hw : s.sender.currentWriter = none) (hq : s.sender.requestQueue = []) :
    s.socket.sent = (outgoing s.log).flatMap (Request.packet lib) := by
  obtain ⟨-, begun, drained, h⟩ := h
  have hd := h.undrained hf (.inl hw)
  have := h.bytes
  rw [unwritten, hw, List.append_nil] at this
  rw [this, h.order, hd, hq]
  simp

/-- **The wire carries exactly the submitted packets, in order**, whatever the
transport does: so far a prefix of them, all of them when `Send` returns
`kIdle`, and each with a higher sequence number than the one before. -/
theorem wire (h : (service lib).Reachable s) :
    s.socket.sent <+: (outgoing s.log).flatMap (Request.packet lib) ∧
    (∀ io, s.failed = false → (NonblockingSender.send lib (s.supply io)).1 = .idle →
      (NonblockingSender.send lib (s.supply io)).2.socket.sent =
        (outgoing (NonblockingSender.send lib (s.supply io)).2.log).flatMap (Request.packet lib)) ∧
    (outgoing s.log).Pairwise (fun r r' => r.command.getSequence < r'.command.getSequence) ∧
    ∀ r ∈ outgoing s.log, r.message.getCommandBytes = lib.serializeCommand r.command := by
  have hw := onWire h
  have hsub := outgoing_sublist s.log
  refine ⟨hw.upTo, fun io hf hidle => ?_, ?_, fun r hr => hw.1.carries r (hsub.subset hr)⟩
  · obtain ⟨hsup, hst⟩ := supply_steady io (steady h)
    obtain ⟨a, b, c⟩ := send_moves hst.inv hst.quiet (hst.paired hf) hf
    have hu : OnWire lib (NonblockingSender.send lib (s.supply io)).2 :=
      Steps.carry (fun _ _ hi hp hs => OnWire.step hi hp hs) (hsup.trans a.steps)
        (steady h).inv hw
    obtain ⟨h1, -, h2⟩ := c.idle hidle
    exact hu.whole (b.failed.trans hf) h1 h2
  · refine (hw.1.sorted.sublist hsub).imp_of_mem fun {r r'} hr hr' hlt => ?_
    rw [(hw.1.numbered r (hsub.subset hr)).sequence, (hw.1.numbered r' (hsub.subset hr')).sequence]
    exact_mod_cast hlt

/-- Three requests; the second is removed while the first is partly written. -/
def removedInBetween : List Op :=
  [.submit [] {} {} [1], .submit [] {} {} [2], .submit [] {} {} [3],
    .run { writes := [.count 1, .intr, .count 2, .again] } ⟨[], [], 0⟩, .remove 1]

theorem wire_removedInBetween :
    let s := play Codec.plain (create 5 1 [] 0) removedInBetween
    (outgoing s.log).map (·.value) = [[1], [3]] ∧ s.socket.sent = [0x46, 0, 0] ∧
    s.socket.sent <+: (outgoing s.log).flatMap (Request.packet Codec.plain) :=
  ⟨by decide +kernel, by decide +kernel,
    (wire (reachable_session removedInBetween (by decide +kernel))).1⟩

end Kinetic.L2
