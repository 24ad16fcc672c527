import Kinetic.Core.Framing
import Kinetic.L1Wire.RoundTrip

/-!
# Streams of packets

A packet carries its own length, so packets need nothing between them: `unframe`
takes the first off a stream of bytes, and `packets_delimited` makes the rules of
`SelfDelimiting` those of the packet format.
-/
open Kinetic.Core

namespace Kinetic.L1

/-- The lengths of the two parts fit into the header. -/
def Fits (p : Bytes × Bytes) : Prop := p.1.length < 2 ^ 32 ∧ p.2.length < 2 ^ 32

instance (p : Bytes × Bytes) : Decidable (Fits p) := inferInstanceAs (Decidable (_ ∧ _))

/-- The packet at the front of a stream, as its message bytes and its value, and
what is behind it. -/
def unframe (b : Bytes) : Option ((Bytes × Bytes) × Bytes) :=
  let m := fromBe32 ((b.drop 1).take 4)
  let v := fromBe32 ((b.drop 5).take 4)
  if b.take 1 = magicString ∧ 9 + m + v ≤ b.length then
    some (((b.drop 9).take m, ((b.drop 9).drop m).take v), ((b.drop 9).drop m).drop v)
  else none

theorem unframe_frame (msg v rest : Bytes) (h : Fits (msg, v)) :
    unframe (frame msg v ++ rest) = some ((msg, v), rest) := by
  obtain ⟨hm, hv⟩ := h
  have hb : frame msg v ++ rest =
      magicString ++ (be32 msg.length ++ (be32 v.length ++ (msg ++ (v ++ rest)))) := by
    simp only [frame, List.append_assoc]
  have h5 : (frame msg v ++ rest).drop 5 = be32 v.length ++ (msg ++ (v ++ rest)) := by
    rw [hb, ← List.append_assoc]
    exact List.drop_left' rfl
  have h9 : (frame msg v ++ rest).drop 9 = msg ++ (v ++ rest) := by
    rw [show 9 = 5 + 4 from rfl, ← List.drop_drop, h5]
    exact List.drop_left' (be32_length _)
  have hml : fromBe32 (((frame msg v ++ rest).drop 1).take 4) = msg.length := by
    rw [hb, List.drop_left' (show magicString.length = 1 from rfl), List.take_left' (be32_length _),
      fromBe32_be32 _ hm]
  have hvl : fromBe32 (((frame msg v ++ rest).drop 5).take 4) = v.length := by
    rw [h5, List.take_left' (be32_length _), fromBe32_be32 _ hv]
  have hmag : (frame msg v ++ rest).take 1 = magicString := by
    rw [hb]
    exact List.take_left' rfl
  unfold unframe
  rw [hml, hvl, h9, if_pos ⟨hmag, by rw [List.length_append, frame_length]; omega⟩,
    List.take_left' rfl, List.drop_left' rfl, List.take_left' rfl, List.drop_left' rfl]

theorem unframe_sound {b rest : Bytes} {p : Bytes × Bytes} (h : unframe b = some (p, rest)) :
    Fits p ∧ b = frame p.1 p.2 ++ rest := by
  unfold unframe at h
  dsimp only at h
  split at h
  · rename_i hc
    obtain ⟨hmag, hlen⟩ := hc
    have h1 : ((b.drop 1).take 4).length = 4 := by
      simp only [List.length_take, List.length_drop]
      omega
    have h5 : ((b.drop 5).take 4).length = 4 := by
      simp only [List.length_take, List.length_drop]
      omega
    have hb : b = b.take 1 ++ ((b.drop 1).take 4 ++ ((b.drop 5).take 4 ++ b.drop 9)) := by
      rw [show b.drop 9 = (b.drop 5).drop 4 by rw [List.drop_drop], List.take_append_drop,
        show b.drop 5 = (b.drop 1).drop 4 by rw [List.drop_drop], List.take_append_drop,
        List.take_append_drop]
    have hm := fromBe32_lt h1
    have hv := fromBe32_lt h5
    have em := be32_fromBe32 h1
    have ev := be32_fromBe32 h5
    generalize fromBe32 ((b.drop 1).take 4) = m at *
    generalize fromBe32 ((b.drop 5).take 4) = v at *
    obtain ⟨rfl, rfl⟩ := Prod.mk.inj (Option.some.inj h)
    have hlm : ((b.drop 9).take m).length = m := by
      simp only [List.length_take, List.length_drop]; omega
    have hlv : (((b.drop 9).drop m).take v).length = v := by
      simp only [List.length_take, List.length_drop]; omega
    refine ⟨⟨by dsimp only; rw [hlm]; exact hm, by dsimp only; rw [hlv]; exact hv⟩, ?_⟩
    rw [frame, hlm, hlv, em, ev, ← hmag]
    simp only [List.append_assoc, List.take_append_drop]
    exact hb
  · cases h

/-- **Packets delimit themselves.** -/
theorem packets_delimited :
    SelfDelimiting (fun p : Bytes × Bytes => frame p.1 p.2) unframe Fits where
  whole := fun p rest h => unframe_frame p.1 p.2 rest h
  sound := fun _ _ _ h => unframe_sound h
  nonempty := fun p _ h => by
    have := congrArg List.length h
    rw [frame_length] at this
    simp at this

end Kinetic.L1
