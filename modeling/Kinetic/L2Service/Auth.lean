import Kinetic.L1Wire.Codec
import Kinetic.L2Service.Delivery

/-!
# Which responses are authenticated

`Receive` validates the MAC of a packet that has an `hmacauth` field;
`ValidateHmac` would reject a packet without one, but is not asked about it. So a
packet without the field passes for any request, and `authentic_iff` says when
that does harm: when the Command it carries changes the connection id, or answers
a request that was submitted with HMAC authentication.
-/
open Kinetic.Core

namespace Kinetic.L2

open L1 NonblockingPacketService

variable {lib : Lib} {s t : NonblockingPacketService}

/-- The handler was submitted with authtype `HMACAUTH`. -/
def HmacSubmitted (log : List Event) (h : Nat) : Prop :=
  ∃ r ∈ accepted log, r.handler = h ∧ r.message.getAuthType = .hmacAuth

instance (log : List Event) (h : Nat) : Decidable (HmacSubmitted log h) :=
  inferInstanceAs (Decidable (∃ r ∈ accepted log, _))

/-- From `s` to `t`, the packet `m` has delivered its response to an
authenticated request, or changed the connection id, only if its MAC is right. -/
structure Authentic (lib : Lib) (m : Message) (s t : NonblockingPacketService) : Prop where
  handler : ∀ calls, delivered t.log = delivered s.log ++ calls →
    ∀ c ∈ calls, HmacSubmitted s.log c.handler →
      validateHmac lib m s.receiver.hmacKey = true
  connectionId : validateHmac lib m s.receiver.hmacKey = false →
    t.receiver.connectionId = s.receiver.connectionId

/-- The packet is checked, or it does no harm: it has the field, or no Command
that parses, or that Command leaves the connection id alone and answers no
request submitted with HMAC authentication. -/
def Harmless (lib : Lib) (m : Message) (s : NonblockingPacketService) : Prop :=
  m.hmacAuth.isSome = true ∨ (lib.parseCommand m.getCommandBytes).1 = false ∨
  ((lib.parseCommand m.getCommandBytes).2.getHeader.connectionId.getD s.receiver.connectionId =
      s.receiver.connectionId ∧
    ∀ ack x key, (lib.parseCommand m.getCommandBytes).2.getHeader.ackSequence = some ack →
      s.receiver.map.find ack = some (x, key) → ¬ HmacSubmitted s.log x)

theorem accepts_unvalidated {hmacKey : Bytes} {m : Message}
    (hv : validateHmac lib m hmacKey = false) (hh : m.hmacAuth.isSome = true) :
    accepts lib hmacKey m = none := by
  rw [accepts, if_pos ⟨hh, hv⟩]

/-- Without the field, any Command that parses is accepted. -/
theorem accepts_unauthenticated (lib : Lib) (hmacKey : Bytes) {m : Message} (hh : m.hmacAuth = none) :
    accepts lib hmacKey m =
      if (lib.parseCommand m.getCommandBytes).1 = true then
        some (lib.parseCommand m.getCommandBytes).2 else none := by
  rw [accepts, if_neg (by simp [hh])]
  rcases lib.parseCommand m.getCommandBytes with ⟨_ | _, c⟩ <;> rfl

theorem delivery_of_accepts {m : Message} {v : Option Bytes} {c : Command}
    (ha : accepts lib s.receiver.hmacKey m = some c) (hm : m.getAuthType ≠ .unsolicitedStatus) :
    delivery lib m v s =
      match c.getHeader.ackSequence with
      | none => []
      | some ack =>
        match s.receiver.map.find ack with
        | none => []
        | some (h, _) =>
          [(NonblockingReceiver.answer h (NonblockingReceiver.noteCommand c (s.arrived m v))).1] := by
  have hc : (NonblockingReceiver.noteCommand c (s.arrived m v)).receiver.command = c :=
    if_neg hm
  simp only [delivery, ha, hc]
  rfl

/-- **Only authenticated responses reach authenticated requests**, and only they
change the connection id, exactly if the packet is harmless. -/
theorem authentic_iff (h : AtRest lib s) (m : Message) (v : Option Bytes)
    (hm : m.getAuthType ≠ .unsolicitedStatus) :
    Authentic lib m s (NonblockingReceiver.processResponse lib (s.arrived m v)).2 ↔
      Harmless lib m s := by
  obtain ⟨s₀, -, hs⟩ := h
  obtain ⟨hd, hconn⟩ := process_delivered hs.inv hs.quiet m v
  generalize (NonblockingReceiver.processResponse lib (s.arrived m v)).2 = t at hd hconn ⊢
  constructor
  · rintro ⟨h1, h2⟩
    cases hh : m.hmacAuth with
    | some a => exact .inl (by simp [hh])
    | none =>
      have hv := validateHmac_absent lib m s.receiver.hmacKey hh
      have ha := accepts_unauthenticated lib s.receiver.hmacKey hh
      cases hp : (lib.parseCommand m.getCommandBytes).1 with
      | false => exact .inr (.inl hp)
      | true =>
        rw [hp, if_pos rfl] at ha
        refine .inr (.inr ⟨?_, fun ack x key hack hfind hx => ?_⟩)
        · have := h2 hv
          rw [hconn, connectionIdAfter, ha] at this
          exact this
        · rw [delivery_of_accepts ha hm, hack] at hd
          simp only [hfind] at hd
          have := h1 _ hd _ List.mem_cons_self (by rw [answer_handler]; exact hx)
          rw [hv] at this; cases this
  · intro hg
    have key : validateHmac lib m s.receiver.hmacKey = false →
        (∀ c ∈ delivery lib m v s, ¬ HmacSubmitted s.log c.handler) ∧
          connectionIdAfter lib m s = s.receiver.connectionId := by
      intro hv
      cases hh : m.hmacAuth with
      | some a =>
        have ha := accepts_unvalidated hv (by simp [hh])
        exact ⟨by simp [delivery, ha], by simp [connectionIdAfter, ha]⟩
      | none =>
        have ha := accepts_unauthenticated lib s.receiver.hmacKey hh
        rcases hg with hg | hg | ⟨hc, hack⟩
        · rw [hh] at hg; cases hg
        · rw [hg, if_neg (by simp)] at ha
          exact ⟨by simp [delivery, ha], by simp [connectionIdAfter, ha]⟩
        · cases hp : (lib.parseCommand m.getCommandBytes).1 with
          | false =>
            rw [hp, if_neg (by simp)] at ha
            exact ⟨by simp [delivery, ha], by simp [connectionIdAfter, ha]⟩
          | true =>
            rw [hp, if_pos rfl] at ha
            refine ⟨?_, by rw [connectionIdAfter, ha]; exact hc⟩
            rw [delivery_of_accepts ha hm]
            split
            · simp
            · rename_i ack he
              split
              · simp
              · rename_i x key hf
                intro c hcm
                rw [List.mem_singleton.1 hcm, answer_handler]
                exact hack ack x key he hf
    refine ⟨fun calls hcalls c hc hx => ?_, fun hv => hconn.trans (key hv).2⟩
    by_contra hne
    rw [hd, List.append_cancel_left_eq] at hcalls
    subst hcalls
    exact (key (by simpa using hne)).1 c hc hx

/-- HMAC-SHA1 under "key", of the inputs of the sessions below. -/
def macs : Lib := Codec.lib fun _ input =>
  if input = [0, 0, 0, 6, 10, 4, 24, 0, 32, 0] then
    [103, 226, 136, 138, 95, 41, 123, 58, 48, 78, 26, 224, 91, 166, 112, 167, 121, 205, 110, 156]
  else if input = [0, 0, 0, 6, 10, 4, 24, 0, 32, 1] then
    [195, 146, 154, 74, 187, 37, 160, 72, 115, 136, 208, 138, 204, 56, 16, 142, 114, 160, 130, 31]
  else if input = [0, 0, 0, 6, 10, 4, 24, 0, 32, 2] then
    [76, 55, 205, 29, 227, 169, 210, 177, 240, 14, 232, 104, 113, 156, 153, 250, 114, 136, 167, 56]
  else if input = [0, 0, 0, 8, 10, 2, 48, 0, 26, 2, 8, 1] then
    [13, 163, 172, 156, 221, 18, 168, 89, 214, 254, 88, 219, 152, 18, 95, 212, 246, 249, 229, 228]
  else []

/-- An authenticated request, written to its last byte. -/
def awaitingOne : NonblockingPacketService :=
  play macs (create 5 1 [107, 101, 121] 0) [.submit [] { authType := some .hmacAuth } {} [],
    .run { writes := [.count 1, .count 4, .count 4, .count 36] } ⟨[], [], 0⟩]

/-- The response to it, with no `hmacauth`. -/
def unsigned : Message where
  authType := some .hmacAuth
  commandBytes := some [10, 2, 48, 0, 26, 2, 8, 1]

def signed : Message := { unsigned with
  hmacAuth := some { identity := some 1, hmac := some (computeHmac macs unsigned [107, 101, 121]) } }

theorem authentic_iff_signed :
    validateHmac macs signed awaitingOne.receiver.hmacKey = true ∧
    Authentic macs signed awaitingOne
      (NonblockingReceiver.processResponse macs (awaitingOne.arrived signed (some []))).2 :=
  ⟨by decide +kernel,
    (authentic_iff (atRest (reachable_session _ (by decide +kernel))) signed (some [])
      (by decide)).2 (.inl rfl)⟩

/-- A response that is not signed is delivered to an authenticated request. -/
theorem unsigned_delivered :
    ¬ ∀ (lib : Lib) (s : NonblockingPacketService) (m : Message) (v : Option Bytes), AtRest lib s →
      m.getAuthType ≠ .unsolicitedStatus →
      Authentic lib m s (NonblockingReceiver.processResponse lib (s.arrived m v)).2 := by
  intro hall
  have hrest : AtRest macs awaitingOne := atRest (reachable_session _ (by decide +kernel))
  have h := (hall macs awaitingOne unsigned (some []) hrest (by decide)).handler
    (delivery macs unsigned (some []) awaitingOne)
  obtain ⟨s₀, -, hs⟩ := hrest
  have h' := h (process_delivered hs.inv hs.quiet unsigned (some [])).1
  have hv : validateHmac macs unsigned awaitingOne.receiver.hmacKey = false := by decide +kernel
  rw [hv] at h'
  have hne : ((delivery macs unsigned (some []) awaitingOne).any fun c =>
      decide (HmacSubmitted awaitingOne.log c.handler)) = true := by decide +kernel
  obtain ⟨c, hc, hx⟩ := List.any_eq_true.1 hne
  exact absurd (h' c hc (by simpa using hx)) (by simp)

end Kinetic.L2
