import Kinetic.L1Wire.Proto

/-!
# `HmacProvider`

The MAC input is the big-endian length of `commandbytes` followed by the bytes
themselves, or nothing at all when they are empty. The comparison accumulates
the xor of each pair of `char`s, promoted to `int`, and accepts when no bit was
ever set.
-/
open Kinetic.Core

namespace Kinetic.L1

def charToInt (b : UInt8) : BitVec 32 := b.toBitVec.signExtend 32

/-- mirrors src/main/hmac_provider.cc:33-53 -/
def computeHmac (lib : Lib) (message : Message) (key : Bytes) : Bytes :=
  lib.hmacSha1 key
    (if message.getCommandBytes.length ≠ 0 then
      be32 message.getCommandBytes.length ++ message.getCommandBytes
    else [])

/-- The loop of `ValidateHmac`: `result |= provided[i] ^ correct[i]`. -/
def accumulate (provided correct : Bytes) : BitVec 32 :=
  (provided.zip correct).foldl (fun r p => r ||| (charToInt p.1 ^^^ charToInt p.2)) 0

/-- mirrors src/main/hmac_provider.cc:55-74 -/
def validateHmac (lib : Lib) (message : Message) (key : Bytes) : Bool :=
  let correct := computeHmac lib message key
  if message.hmacAuth.isNone then false
  else if message.getHmac.length ≠ correct.length then false
  else accumulate message.getHmac correct == 0

theorem validateHmac_absent (lib : Lib) (m : Message) (key : Bytes) (h : m.hmacAuth = none) :
    validateHmac lib m key = false := by
  simp [validateHmac, h]

/-! ## The comparison -/

theorem charToInt_inj {a b : UInt8} : charToInt a = charToInt b ↔ a = b := by
  refine ⟨fun h => UInt8.toBitVec_inj.1 (BitVec.toInt_inj.1 ?_), fun h => h ▸ rfl⟩
  have h' := congrArg BitVec.toInt h
  unfold charToInt at h'
  rwa [BitVec.toInt_signExtend_of_le (by decide), BitVec.toInt_signExtend_of_le (by decide)] at h'

theorem foldl_or_eq_zero {α : Type} (f : α → BitVec 32) (l : List α) (r : BitVec 32) :
    l.foldl (fun r p => r ||| f p) r = 0 ↔ r = 0 ∧ ∀ p ∈ l, f p = 0 := by
  induction l generalizing r with
  | nil => simp
  | cons p l ih =>
    have hor : r ||| f p = 0 ↔ r = 0 ∧ f p = 0 := BitVec.or_eq_zero_iff
    rw [List.foldl_cons, ih, hor, List.forall_mem_cons, and_assoc]

/-- **The accumulating comparison** of two strings of one length is equality. -/
theorem accumulate_eq_zero {provided correct : Bytes} (h : provided.length = correct.length) :
    accumulate provided correct = 0 ↔ provided = correct := by
  have hxor : ∀ a b, charToInt a ^^^ charToInt b = 0 ↔ a = b := fun a b =>
    BitVec.xor_eq_zero_iff.trans charToInt_inj
  rw [accumulate, foldl_or_eq_zero]
  simp only [true_and, hxor]
  induction provided generalizing correct with
  | nil => simp [List.length_eq_zero_iff.1 h.symm]
  | cons a provided ih =>
    obtain _ | ⟨b, correct⟩ := correct
    · cases h
    · simp only [List.zip_cons_cons, List.forall_mem_cons, List.cons.injEq]
      exact and_congr_right fun _ => ih (Nat.succ.inj h)

/-- **ValidateHmac** accepts exactly the messages that carry their own MAC. -/
theorem validateHmac_eq_true (lib : Lib) (m : Message) (key : Bytes) :
    validateHmac lib m key = true ↔ m.hmacAuth.isSome ∧ m.getHmac = computeHmac lib m key := by
  unfold validateHmac
  cases hm : m.hmacAuth with
  | none => simp
  | some a =>
    dsimp only [Option.isNone_some]
    split
    · contradiction
    split
    · rename_i hl
      simp only [Bool.false_eq_true, Option.isSome_some, true_and, false_iff]
      exact fun he => hl (congrArg List.length he)
    · rename_i hl
      rw [beq_iff_eq, accumulate_eq_zero (by simpa using hl)]
      simp

/-! ## The input of the MAC -/

def macInput (commandBytes : Bytes) : Bytes :=
  if commandBytes.length ≠ 0 then be32 commandBytes.length ++ commandBytes else []

theorem computeHmac_eq (lib : Lib) (m : Message) (key : Bytes) :
    computeHmac lib m key = lib.hmacSha1 key (macInput m.getCommandBytes) := rfl

/-- The input determines the bytes, also where the length does not fit into its
prefix. -/
theorem macInput_injective : Function.Injective macInput := by
  have hdrop : ∀ b, (macInput b).drop 4 = b := by
    intro b
    unfold macInput
    split
    · exact List.drop_left' (be32_length _)
    · rename_i hb
      simpa using (List.length_eq_zero_iff.1 (by omega)).symm
  intro a b h
  rw [← hdrop a, ← hdrop b, h]

end Kinetic.L1
