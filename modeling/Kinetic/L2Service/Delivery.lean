import Kinetic.L2Service.System

/-!
# What a packet delivers

A packet that `Receive` has read calls at most one handler with a response, the
one that waits under its acksequence; whatever else is called on its account,
by `CallAllErrorHandlers` or by the callbacks, gets none. `delivery` says which
call it is, and `process_delivered` that the log has it and no other.
-/
open Kinetic.Core

namespace Kinetic.L2

open L1 NonblockingPacketService

variable {lib : Lib} {s t u : NonblockingPacketService}

def delivered (log : List Event) : List Completion :=
  (completions log).filter (·.response.isSome)

@[simp] theorem delivered_append (l m : List Event) :
    delivered (l ++ m) = delivered l ++ delivered m := by
  simp [delivered]

/-- The state once `m` and `v` have been read. -/
def NonblockingPacketService.arrived (m : Message) (v : Option Bytes)
    (s : NonblockingPacketService) : NonblockingPacketService :=
  { s with
    receiver.message := m
    receiver.value := v
    receiver.nonblockingResponse := none
    log := s.log ++ [.received m v] }

@[simp] theorem arrived_message (m : Message) (v : Option Bytes) (s : NonblockingPacketService) :
    (s.arrived m v).receiver.message = m := rfl

theorem readResponse_arrived {r : NonblockingPacketReader}
    (h : NonblockingReceiver.readResponse lib r s = (.done, t)) :
    t = arrived t.receiver.message t.receiver.value { s with socket := t.socket } := by
  unfold NonblockingReceiver.readResponse at h
  dsimp only at h
  split at h
  · obtain rfl := congrArg Prod.snd h
    rfl
  · rename_i hne
    exact absurd (congrArg Prod.fst h) hne

/-- `Receive` goes on from such a state when a packet is done. -/
theorem AtRest.read {r : NonblockingPacketReader} (h : AtRest lib s)
    (hr : NonblockingReceiver.readResponse lib r s = (.done, t)) :
    ∃ s', AtRest lib s' ∧ t = arrived t.receiver.message t.receiver.value s' := by
  obtain ⟨s₀, h0, hs⟩ := h
  have hf := readResponse_frame lib r s
  rw [hr] at hf
  have hstep : Step lib s { s with socket := t.socket } := .environment t.socket s.scripts hf.sent
  exact ⟨_, ⟨s₀, h0, hs.steps.tail hstep, hs.inv.step hstep,
    ⟨hs.quiet.receiver, hs.quiet.awaiting, hs.quiet.current⟩⟩, readResponse_arrived hr⟩

/-- The Command a packet carries, if it may be looked at. -/
def accepts (lib : Lib) (hmacKey : Bytes) (m : Message) : Option Command :=
  if m.hmacAuth.isSome ∧ validateHmac lib m hmacKey = false then none
  else
    match lib.parseCommand m.getCommandBytes with
    | (false, _) => none
    | (true, c) => some c

theorem accepts_eq_some {hmacKey : Bytes} {m : Message} {c : Command} :
    accepts lib hmacKey m = some c ↔ Readable lib m hmacKey c := by
  unfold accepts Readable
  constructor
  · intro h
    split at h
    · cases h
    rename_i hmac
    refine ⟨fun hs => by simpa [hs] using hmac, ?_⟩
    split at h
    · cases h
    · rename_i hp
      rw [hp, Option.some.inj h]
  · rintro ⟨hv, hp⟩
    rw [if_neg (not_mismatch hv), hp]

theorem accepts_eq_none {hmacKey : Bytes} {m : Message} (h : ∀ c, ¬ Readable lib m hmacKey c) :
    accepts lib hmacKey m = none :=
  Option.eq_none_iff_forall_ne_some.2 fun c hc => h c (accepts_eq_some.1 hc)

/-- The call that a packet makes with its response. -/
def delivery (lib : Lib) (m : Message) (v : Option Bytes) (s : NonblockingPacketService) :
    List Completion :=
  match accepts lib s.receiver.hmacKey m with
  | none => []
  | some c =>
    let s := NonblockingReceiver.noteCommand c (s.arrived m v)
    match s.receiver.command.getHeader.ackSequence with
    | none => []
    | some ack =>
      match s.receiver.map.find ack with
      | none => []
      | some (h, _) => [(NonblockingReceiver.answer h s).1]

/-- The connection id after a packet. -/
def connectionIdAfter (lib : Lib) (m : Message) (s : NonblockingPacketService) : Int :=
  match accepts lib s.receiver.hmacKey m with
  | none => s.receiver.connectionId
  | some c => c.getHeader.connectionId.getD s.receiver.connectionId

/-! ## Calls without a response -/

theorem delivered_nil {new : List Event}
    (h : ∀ c, Event.completed c ∈ new → c.response = none) : delivered new = [] := by
  rw [delivered, List.filter_eq_nil_iff]
  intro c hc
  obtain ⟨e, he, hec⟩ := List.mem_filterMap.1 hc
  cases e <;> simp only [reduceCtorEq, Option.some.injEq] at hec
  subst hec
  simp [h _ he]

theorem Frame.delivered (h : Frame s t) : delivered t.log = delivered s.log := by
  obtain ⟨new, hn, hc⟩ := h.log
  rw [hn, delivered_append, delivered_nil fun c hm => hc _ hm, List.append_nil]

theorem callAll_delivered (status : KineticStatus) (h : Inv s) (hq : Quiet s) :
    delivered (NonblockingReceiver.callAllErrorHandlers lib status s).log = delivered s.log ∧
      (NonblockingReceiver.callAllErrorHandlers lib status s).receiver.connectionId =
        s.receiver.connectionId := by
  obtain ⟨-, hf, -, -⟩ := callAll_moves status h hq
  refine ⟨hf.delivered.trans ?_, by rw [hf.receiver]; rfl⟩
  simp [L2.delivered, completions]

theorem answer_response (h : Nat) (s : NonblockingPacketService) :
    (NonblockingReceiver.answer h s).1.response = some s.receiver.command := by
  unfold NonblockingReceiver.answer
  dsimp only
  split <;> rfl

/-! ## One packet -/

theorem Inv.arrived (h : Inv s) (m : Message) (v : Option Bytes) : Inv (s.arrived m v) :=
  h.frame rfl rfl rfl rfl rfl rfl rfl id rfl rfl (by simp [issued, NonblockingPacketService.arrived])
    (by simp [settled, completions, NonblockingPacketService.arrived])
    (by simp [withdrawn, NonblockingPacketService.arrived])

theorem Quiet.arrived (h : Quiet s) (m : Message) (v : Option Bytes) : Quiet (s.arrived m v) :=
  ⟨h.receiver, h.awaiting, fun x hx => by
    have := h.current x hx
    simpa [settled, completions, NonblockingPacketService.arrived] using this⟩

theorem delivered_arrived (m : Message) (v : Option Bytes) (s : NonblockingPacketService) :
    delivered (s.arrived m v).log = delivered s.log := by
  simp [delivered, completions, NonblockingPacketService.arrived]

/-- **What a packet delivers**, and what becomes of the connection id. -/
theorem process_delivered (h : Inv s) (hq : Quiet s) (m : Message) (v : Option Bytes) :
    delivered (NonblockingReceiver.processResponse lib (s.arrived m v)).2.log =
        delivered s.log ++ delivery lib m v s ∧
      (NonblockingReceiver.processResponse lib (s.arrived m v)).2.receiver.connectionId =
        connectionIdAfter lib m s := by
  have h' := h.arrived m v
  have hq' := hq.arrived m v
  have hd := delivered_arrived m v s
  have hp := processing lib (s.arrived m v)
  generalize NonblockingReceiver.processResponse lib (s.arrived m v) = out at hp ⊢
  unfold delivery connectionIdAfter
  cases hp with
  | mismatch hs hbad =>
    have ha : accepts lib s.receiver.hmacKey m = none :=
      accepts_eq_none fun c hc => absurd ((hc.1 hs).symm.trans hbad) (by simp)
    rw [ha]
    dsimp only
    obtain ⟨h2, h3⟩ := callAll_delivered
      ⟨.clientResponseHmacVerificationError, "Response HMAC mismatch", 0⟩ h' hq'
    exact ⟨by rw [h2, hd, List.append_nil], h3⟩
  | @unparsed command _ hbad =>
    have ha : accepts lib s.receiver.hmacKey m = none :=
      accepts_eq_none fun c hc => absurd (hc.2.symm.trans hbad) (by simp)
    rw [ha]
    dsimp only
    obtain ⟨h2, h3⟩ := callAll_delivered
      ⟨.clientIoError, "I/O read error parsing proto::Command", 0⟩
      (h'.stored command s.receiver.connectionId) (hq'.stored command s.receiver.connectionId)
    exact ⟨(h2.trans hd).trans (List.append_nil _).symm, h3⟩
  | @unacknowledged command hread hack =>
    have ha : accepts lib s.receiver.hmacKey m = some command := accepts_eq_some.2 hread
    rw [ha]
    dsimp only
    rw [hack]
    obtain ⟨h2, h3⟩ := callAll_delivered
      ⟨.protocolErrorResponseNoAcksequence, "Response had no acksequence", 0⟩ (h'.noted command)
      (hq'.noted command)
    exact ⟨by rw [h2]; exact hd.trans (List.append_nil _).symm, h3⟩
  | @unmatched command ack hread hack hm =>
    have ha : accepts lib s.receiver.hmacKey m = some command := accepts_eq_some.2 hread
    rw [ha]
    dsimp only
    rw [hack]
    dsimp only
    rw [hm]
    exact ⟨hd.trans (List.append_nil _).symm, rfl⟩
  | @matched command ack x key hread hack hm =>
    have ha : accepts lib s.receiver.hmacKey m = some command := accepts_eq_some.2 hread
    rw [ha]
    dsimp only
    rw [hack]
    dsimp only
    rw [hm]
    obtain ⟨-, hf, -, -⟩ := dispatch_moves (h'.noted command) (hq'.noted command) hm
    have hlog : delivered (NonblockingReceiver.noteCommand command (s.arrived m v)).log =
        delivered s.log := hd
    have hconn : (NonblockingReceiver.noteCommand command (s.arrived m v)).receiver.connectionId =
        command.getHeader.connectionId.getD s.receiver.connectionId := rfl
    generalize NonblockingReceiver.noteCommand command (s.arrived m v) = p at hf hlog hconn ⊢
    obtain ⟨v', hv⟩ := answered_eq ack x key p
    have hlog' : delivered (NonblockingReceiver.dispatch lib ack x key p).log =
        delivered (answered ack x key p).log := hf.delivered
    refine ⟨?_, ?_⟩
    · rw [hlog', hv, emit_log, delivered_append, hlog]
      simp [delivered, completions, answer_response]
    · have := congrArg NonblockingReceiver.connectionId hf.receiver
      refine Eq.trans this ?_
      rw [hv]
      exact hconn

/-- **A packet that is accepted** is logged, then its call, then what the
callbacks do; and `Receive` goes on. -/
theorem process_continues (h : Inv s) (hq : Quiet s) {m : Message} {v : Option Bytes} {c : Command}
    {ack : Int} (ha : accepts lib s.receiver.hmacKey m = some c)
    (hack : (NonblockingReceiver.noteCommand c
      (s.arrived m v)).receiver.command.getHeader.ackSequence = some ack) :
    (NonblockingReceiver.processResponse lib (s.arrived m v)).1 = none ∧
    ∃ new, (NonblockingReceiver.processResponse lib (s.arrived m v)).2.log =
        s.log ++ [.received m v] ++ (delivery lib m v s).map .completed ++ new ∧
      ∀ e ∈ new, e.Calm := by
  have hread := accepts_eq_some.1 ha
  have hlog : (NonblockingReceiver.noteCommand c (s.arrived m v)).log =
      s.log ++ [.received m v] := rfl
  have hp := processing lib (s.arrived m v)
  generalize NonblockingReceiver.processResponse lib (s.arrived m v) = out at hp ⊢
  unfold delivery
  rw [ha]
  dsimp only
  rw [hack]
  dsimp only
  -- the packet has one Command and one acksequence
  have hsame : ∀ c', Readable lib m s.receiver.hmacKey c' → c = c' := fun c' hc =>
    (Prod.mk.inj (hread.2.symm.trans hc.2)).2
  cases hp with
  | mismatch hs hbad => exact absurd ((hread.1 hs).symm.trans hbad) (by simp)
  | unparsed _ hbad => exact absurd (hread.2.symm.trans hbad) (by simp)
  | unacknowledged hread' hack' =>
    obtain rfl := hsame _ hread'
    rw [hack] at hack'; cases hack'
  | unmatched hread' hack' hm =>
    obtain rfl := hsame _ hread'
    obtain rfl := Option.some.inj (hack.symm.trans hack')
    rw [hm]
    exact ⟨rfl, [], by simp [hlog], by simp⟩
  | @matched _ _ x key hread' hack' hm =>
    obtain rfl := hsame _ hread'
    obtain rfl := Option.some.inj (hack.symm.trans hack')
    rw [hm]
    obtain ⟨-, hfr, -, -⟩ := dispatch_moves ((h.arrived m v).noted c) ((hq.arrived m v).noted c) hm
    obtain ⟨v', hv⟩ := answered_eq ack x key (NonblockingReceiver.noteCommand c (s.arrived m v))
    obtain ⟨new, hn, hc⟩ := hfr.log
    refine ⟨rfl, new, ?_, hc⟩
    refine Eq.trans hn ?_
    rw [hv, emit_log, hlog]
    rfl

end Kinetic.L2
