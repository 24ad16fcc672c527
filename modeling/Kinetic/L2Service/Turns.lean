import Kinetic.L2Service.Step

/-!
# What a Remove and a packet can do

`Remove`, and `Receive` with a packet that it has read, have a handful of ways to
go each: `Removal` and `Processing` list them, with what is then known and the
state they leave. What `Receive` as a whole keeps follows from what its parts
keep (`receiveLoop_keeps`).
-/
open Kinetic.Core

namespace Kinetic.L2

open L1 NonblockingReceiver

variable {lib : Lib} {s t : NonblockingPacketService}

/-- What `Remove` finds under `key`, what it returns and leaves. -/
inductive Removal (key : Nat) (s : NonblockingPacketService) :
    Bool × NonblockingPacketService → Prop
  | queued {r : Request} : s.sender.requestQueue.find? (·.handlerKey == key) = some r →
      Removal key s (true, { s with
        sender.requestQueue := s.sender.requestQueue.eraseP (·.handlerKey == key)
        log := s.log ++ [.removed r.handler key true] })
  | unknown : s.sender.requestQueue.find? (·.handlerKey == key) = none →
      s.receiver.handlerToMessageSeqMap.find key = none → Removal key s (false, s)
  | awaiting {seq : Int} {x : Nat} : s.sender.requestQueue.find? (·.handlerKey == key) = none →
      s.receiver.handlerToMessageSeqMap.find key = some seq →
      s.receiver.map.find seq = some (x, key) →
      Removal key s (true, { s with
        receiver.handlerToMessageSeqMap := s.receiver.handlerToMessageSeqMap.erase key
        receiver.map := s.receiver.map.erase seq
        log := s.log ++ [.removed x key false] })
  /-- A `CHECK` fails: the key leads nowhere, or to another handler. -/
  | broken {seq : Int} : s.receiver.handlerToMessageSeqMap.find key = some seq →
      (∀ x, s.receiver.map.find seq ≠ some (x, key)) →
      Removal key s (true, { s with
        receiver.handlerToMessageSeqMap := s.receiver.handlerToMessageSeqMap.erase key
        log := s.log ++ [.aborted] })

theorem removal (key : Nat) (s : NonblockingPacketService) : Removal key s (s.remove key) := by
  unfold NonblockingPacketService.remove NonblockingSender.remove
  cases hq : s.sender.requestQueue.find? (·.handlerKey == key) with
  | some r => exact .queued hq
  | none =>
    dsimp only
    unfold NonblockingReceiver.remove
    cases hb : s.receiver.handlerToMessageSeqMap.find key with
    | none => exact .unknown hq hb
    | some seq =>
      dsimp only
      cases hm : s.receiver.map.find seq with
      | none => exact .broken hb fun x hx => by rw [hm] at hx; cases hx
      | some e =>
        obtain ⟨x, k⟩ := e
        dsimp only
        split
        · rename_i hk
          subst hk
          exact .awaiting hq hb hm
        · rename_i hk
          exact .broken hb fun y hy => by rw [hm] at hy; cases hy; exact hk rfl

/-- What `Receive` does with the packet it has read, the status it returns, if
it does, and the state it leaves. -/
inductive Processing (lib : Lib) (s : NonblockingPacketService) :
    Option NonblockingPacketServiceStatus × NonblockingPacketService → Prop
  | mismatch : s.receiver.message.hmacAuth.isSome →
      validateHmac lib s.receiver.message s.receiver.hmacKey = false →
      Processing lib s (some .idle, callAllErrorHandlers lib
        ⟨.clientResponseHmacVerificationError, "Response HMAC mismatch", 0⟩ s)
  | unparsed {command : Command} :
      (s.receiver.message.hmacAuth.isSome →
        validateHmac lib s.receiver.message s.receiver.hmacKey = true) →
      lib.parseCommand s.receiver.message.getCommandBytes = (false, command) →
      Processing lib s (some .error, callAllErrorHandlers lib
        ⟨.clientIoError, "I/O read error parsing proto::Command", 0⟩
        { s with receiver.command := command })
  | unacknowledged {command : Command} :
      Readable lib s.receiver.message s.receiver.hmacKey command →
      (noteCommand command s).receiver.command.getHeader.ackSequence = none →
      Processing lib s (some .idle, callAllErrorHandlers lib
        ⟨.protocolErrorResponseNoAcksequence, "Response had no acksequence", 0⟩
        (noteCommand command s))
  | unmatched {command : Command} {ack : Int} :
      Readable lib s.receiver.message s.receiver.hmacKey command →
      (noteCommand command s).receiver.command.getHeader.ackSequence = some ack →
      (noteCommand command s).receiver.map.find ack = none →
      Processing lib s (none, noteCommand command s)
  | matched {command : Command} {ack : Int} {x key : Nat} :
      Readable lib s.receiver.message s.receiver.hmacKey command →
      (noteCommand command s).receiver.command.getHeader.ackSequence = some ack →
      (noteCommand command s).receiver.map.find ack = some (x, key) →
      Processing lib s (none, dispatch lib ack x key (noteCommand command s))

theorem processing (lib : Lib) (s : NonblockingPacketService) :
    Processing lib s (processResponse lib s) := by
  unfold processResponse
  split
  · rename_i hbad
    exact .mismatch hbad.1 hbad.2
  rename_i hmac
  have hvalid : s.receiver.message.hmacAuth.isSome →
      validateHmac lib s.receiver.message s.receiver.hmacKey = true := by
    intro hs
    cases hv : validateHmac lib s.receiver.message s.receiver.hmacKey with
    | true => rfl
    | false => exact absurd ⟨hs, hv⟩ hmac
  rcases hp : lib.parseCommand s.receiver.message.getCommandBytes with ⟨_ | _, command⟩
  · exact .unparsed hvalid hp
  dsimp only
  cases hack : (noteCommand command s).receiver.command.getHeader.ackSequence with
  | none => exact .unacknowledged ⟨hvalid, hp⟩ hack
  | some ack =>
    dsimp only
    cases hm : (noteCommand command s).receiver.map.find ack with
    | none => exact .unmatched ⟨hvalid, hp⟩ hack hm
    | some e => exact .matched ⟨hvalid, hp⟩ hack hm

theorem noteCommand_ackSequence (c : Command) (s : NonblockingPacketService) :
    (noteCommand c s).receiver.command.getHeader.ackSequence =
      if s.receiver.message.getAuthType = .unsolicitedStatus then some (-1)
      else c.getHeader.ackSequence := by
  unfold noteCommand
  dsimp only
  split <;> rfl

theorem noteCommand_statusCode (c : Command) (s : NonblockingPacketService) :
    (noteCommand c s).receiver.command.getStatusCode = c.getStatusCode := by
  unfold noteCommand
  dsimp only
  split <;> rfl

theorem not_mismatch {m : Message} {hmacKey : Bytes}
    (hv : m.hmacAuth.isSome → validateHmac lib m hmacKey = true) :
    ¬ (m.hmacAuth.isSome ∧ validateHmac lib m hmacKey = false) := by
  rintro ⟨hs, hbad⟩
  rw [hv hs] at hbad
  cases hbad

/-- The reader is the one that is at work, or a new one. -/
theorem openResponse_cases {r : NonblockingPacketReader} (h : openResponse s = some (r, t)) :
    (s.receiver.nonblockingResponse = some r ∧ t = s) ∨
    (s.receiver.nonblockingResponse = none ∧ s.receiver.map ≠ ∅ ∧
      r = NonblockingPacketReader.create ∧ t = { s with receiver.nonblockingResponse := some r }) := by
  unfold openResponse at h
  cases hr : s.receiver.nonblockingResponse with
  | some r' =>
    rw [hr] at h
    obtain ⟨rfl, rfl⟩ := Prod.mk.inj (Option.some.inj h)
    exact .inl ⟨rfl, rfl⟩
  | none =>
    rw [hr] at h
    dsimp only at h
    split at h
    · cases h
    · rename_i hm
      obtain ⟨rfl, rfl⟩ := Prod.mk.inj (Option.some.inj h)
      exact .inr ⟨rfl, hm, rfl, rfl⟩

/-- **Receive keeps** what opening a packet, reading, failing everybody and
processing a packet keep. -/
theorem receiveLoop_keeps {P : NonblockingPacketService → Prop}
    (hopen : ∀ s r t, P s → openResponse s = some (r, t) → P t)
    (hread : ∀ s r, P s → P (readResponse lib r s).2)
    (hfail : ∀ s, P s → P (callAllErrorHandlers lib ⟨.clientIoError, "I/O read error", 0⟩ s))
    (hprocess : ∀ s, P s → P (processResponse lib s).2) (fuel : Nat) (h : P s) :
    P (receiveLoop lib fuel s).2 := by
  induction fuel generalizing s with
  | zero => exact h
  | succ fuel ih =>
    unfold receiveLoop
    split
    · exact h
    rename_i r s₁ ho
    have h2 := hread s₁ r (hopen s r s₁ h ho)
    split
    all_goals
      rename_i s₂ hr
      rw [hr] at h2
      dsimp only at h2
    · exact h2
    · exact hfail s₂ h2
    · have h3 := hprocess s₂ h2
      split
      all_goals
        rename_i s₃ hp
        rw [hp] at h3
      · exact h3
      · exact ih h3

end Kinetic.L2
