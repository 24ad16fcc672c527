import Kinetic.L2Service.Receiver

/-!
# Enqueue is all or nothing

`NonblockingReceiver::Enqueue` inserts into one map, then into the other, and
takes its first insertion back where the second one fails
(`NonblockingReceiver.enqueue_eq`). What the rest of the receiver sees of that:
the pair is in both maps or the receiver is the one it was, so that a packet
calls whom it would have called, and a name that was free still is.
-/
open Kinetic.Core

namespace Kinetic.L2

open L1

namespace NonblockingReceiver

variable (r : NonblockingReceiver) (x : Nat) (seq : Int) (key : Nat)

theorem enqueue_iff :
    (r.enqueue x seq key).1 = true ↔ seq ∉ r.map ∧ key ∉ r.handlerToMessageSeqMap := by
  rw [Dict.notMem_iff, Dict.notMem_iff, enqueue_eq]
  split
  · rename_i h
    exact iff_of_true rfl h
  · rename_i h
    exact iff_of_false Bool.false_ne_true h

variable {r x seq key}

theorem enqueue_added (h : (r.enqueue x seq key).1 = true) :
    (r.enqueue x seq key).2 = { r with
      map := AList.insert seq (x, key) r.map
      handlerToMessageSeqMap := AList.insert key seq r.handlerToMessageSeqMap } := by
  rw [enqueue_eq] at h ⊢
  split
  · rfl
  · rename_i hn
    rw [if_neg hn] at h
    cases h

theorem enqueue_refused (h : (r.enqueue x seq key).1 = false) : (r.enqueue x seq key).2 = r := by
  rw [enqueue_eq] at h ⊢
  split
  · rename_i hf
    rw [if_pos hf] at h
    cases h
  · rfl

theorem enqueue_find {q : Int} {e : Nat × Nat} (h : r.map.find q = some e) (x : Nat) (seq : Int)
    (key : Nat) : (r.enqueue x seq key).2.map.find q = some e := by
  rw [enqueue_eq]
  split
  · rename_i hfree
    rw [Dict.find_insert, if_neg, h]
    rintro rfl
    rw [hfree.1] at h
    cases h
  · exact h

theorem Inverse.enqueue (h : r.Inverse) (x : Nat) (seq : Int) (key : Nat) :
    (r.enqueue x seq key).2.Inverse := by
  rw [enqueue_eq]
  split
  · rename_i hfree
    exact linked_iff.1 ((linked_iff.2 h).insert hfree.1 hfree.2 x)
  · exact h

end NonblockingReceiver

theorem NonblockingReceiver.answer_congr {s t : NonblockingPacketService} (h : Nat)
    (hc : t.receiver.command = s.receiver.command) (hv : t.receiver.value = s.receiver.value) :
    (answer h t).1 = (answer h s).1 := by
  unfold answer
  dsimp only
  rw [hc, hv]
  split <;> rfl

/-- A packet that has been read calls somebody if it can be read as a response
to a request of his. -/
theorem called_iff {lib : Lib} {s : NonblockingPacketService}
    {out : Completion × NonblockingPacketService} :
    called lib s = some out ↔ ∃ command ack x key,
      Readable lib s.receiver.message s.receiver.hmacKey command ∧
      (NonblockingReceiver.noteCommand command s).receiver.command.getHeader.ackSequence =
        some ack ∧
      s.receiver.map.find ack = some (x, key) ∧
      out = NonblockingReceiver.answer x { NonblockingReceiver.noteCommand command s with
        receiver.handler := some x
        receiver.map := s.receiver.map.erase ack
        receiver.handlerToMessageSeqMap := s.receiver.handlerToMessageSeqMap.erase key } := by
  constructor
  · intro h
    unfold called at h
    split at h
    · cases h
    rename_i hmac
    split at h
    · cases h
    rename_i command hp
    dsimp only at h
    split at h
    · cases h
    rename_i ack hack
    split at h
    · cases h
    rename_i x key hm
    refine ⟨command, ack, x, key, ⟨fun hs => ?_, hp⟩, hack, hm, (Option.some.inj h).symm⟩
    cases hv : validateHmac lib s.receiver.message s.receiver.hmacKey with
    | true => rfl
    | false => exact absurd ⟨hs, hv⟩ hmac
  · rintro ⟨command, ack, x, key, ⟨hv, hp⟩, hack, hm, rfl⟩
    have hm' : (NonblockingReceiver.noteCommand command s).receiver.map.find ack = some (x, key) := hm
    unfold called
    rw [if_neg (not_mismatch hv), hp]
    dsimp only
    rw [hack]
    dsimp only
    rw [hm']
    rfl

theorem called_enqueue {lib : Lib} {s t : NonblockingPacketService} {c : Completion}
    (h : called lib s = some (c, t)) (x : Nat) (seq : Int) (key : Nat) :
    ∃ t', called lib { s with receiver := (s.receiver.enqueue x seq key).2 } = some (c, t') := by
  obtain ⟨command, ack, y, k, hread, hack, hm, hc⟩ := called_iff.1 h
  have hm' := NonblockingReceiver.enqueue_find hm x seq key
  obtain ⟨m, b, he⟩ : ∃ m b, (s.receiver.enqueue x seq key).2 =
      { s.receiver with map := m, handlerToMessageSeqMap := b } := by
    rw [NonblockingReceiver.enqueue_eq]
    split <;> exact ⟨_, _, rfl⟩
  rw [he] at hm' ⊢
  refine ⟨_, called_iff.2 ⟨command, ack, y, k, hread, ?_, hm', Prod.ext ?_ rfl⟩⟩
  · rw [← hack, noteCommand_ackSequence, noteCommand_ackSequence]
  · rw [show c = _ from congrArg Prod.fst hc]
    exact NonblockingReceiver.answer_congr y rfl rfl

/-- **Enqueue is all or nothing.** It returns true if and only if neither the
sequence nor the key is taken; then exactly the pair is in both maps, else the
receiver is the one it was. Whoever a packet would have called it calls, the
owner of the key is found under it, and where the call was refused a sequence or
key that was free can be had with a free partner. -/
theorem enqueue_all_or_nothing {r : NonblockingReceiver} (hr : r.Inverse) (x : Nat) (seq : Int)
    (key : Nat) :
    let out := r.enqueue x seq key
    (out.1 = true ↔ seq ∉ r.map ∧ key ∉ r.handlerToMessageSeqMap) ∧
    (out.1 = true →
      out.2 = { r with
        map := out.2.map
        handlerToMessageSeqMap := out.2.handlerToMessageSeqMap } ∧
      (∀ q, out.2.map.find q = if q = seq then some (x, key) else r.map.find q) ∧
      ∀ k, out.2.handlerToMessageSeqMap.find k =
        if k = key then some seq else r.handlerToMessageSeqMap.find k) ∧
    (out.1 = false → out.2 = r) ∧
    out.2.Inverse ∧
    (∀ lib s c t, s.receiver = r → called lib s = some (c, t) →
      ∃ t', called lib { s with receiver := out.2 } = some (c, t')) ∧
    (∀ q, r.handlerToMessageSeqMap.find key = some q →
      ∃ y, out.2.map.find q = some (y, key) ∧ out.2.handlerToMessageSeqMap.find key = some q) ∧
    (out.1 = false →
      (seq ∉ r.map → ∀ y k, k ∉ r.handlerToMessageSeqMap → (out.2.enqueue y seq k).1 = true) ∧
      (key ∉ r.handlerToMessageSeqMap → ∀ y q, q ∉ r.map → (out.2.enqueue y q key).1 = true)) := by
  intro out
  refine ⟨NonblockingReceiver.enqueue_iff r x seq key, fun h => ?_,
    NonblockingReceiver.enqueue_refused, hr.enqueue x seq key, ?_, fun q hq => ?_, fun h => ?_⟩
  · rw [show out.2 = _ from NonblockingReceiver.enqueue_added h]
    exact ⟨rfl, fun q => Dict.find_insert .., fun k => Dict.find_insert ..⟩
  · rintro lib s c t rfl hc
    exact called_enqueue hc x seq key
  · -- the key is taken, so the call is refused
    have hout : out.2 = r := by
      refine NonblockingReceiver.enqueue_refused (Bool.eq_false_iff.2 fun ht => ?_)
      exact ((NonblockingReceiver.enqueue_iff r x seq key).1 ht).2 (Dict.mem_iff.2 ⟨q, hq⟩)
    obtain ⟨y, hy⟩ := (hr q key).2 hq
    rw [hout]
    exact ⟨y, hy, hq⟩
  · rw [show out.2 = r from NonblockingReceiver.enqueue_refused h]
    exact ⟨fun hs y k hk => (NonblockingReceiver.enqueue_iff r y seq k).2 ⟨hs, hk⟩,
      fun hk y q hq => (NonblockingReceiver.enqueue_iff r y q key).2 ⟨hq, hk⟩⟩

/-- Handler 8 cannot have the key of handler 7, but its sequence with another key. -/
theorem enqueue_all_or_nothing_taken : ∃ r : NonblockingReceiver, r.Inverse ∧
    (r.enqueue 8 5 10).1 = false ∧ (r.enqueue 8 5 10).2 = r ∧
    (∃ y, (r.enqueue 8 5 10).2.map.find 0 = some (y, 10)) ∧
    ((r.enqueue 8 5 10).2.enqueue 8 5 11).1 = true := by
  let r₀ := (NonblockingPacketService.create 0 0 [] 0).receiver
  have hr : (r₀.enqueue 7 0 10).2.Inverse :=
    NonblockingReceiver.Inverse.enqueue (by intro q k; simp [r₀, NonblockingPacketService.create]) 7 0 10
  obtain ⟨-, -, hsame, -, -, howner, hfree⟩ := enqueue_all_or_nothing hr 8 5 10
  have hf : ((r₀.enqueue 7 0 10).2.enqueue 8 5 10).1 = false := by decide
  obtain ⟨y, hy, -⟩ := howner 0 (by decide)
  exact ⟨_, hr, hf, hsame hf, ⟨y, hy⟩, (hfree hf).1 (by decide) 8 11 (by decide)⟩

end Kinetic.L2
