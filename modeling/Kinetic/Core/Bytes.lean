import Mathlib.Algebra.Group.Int.Defs
import Mathlib.Algebra.Group.Nat.Defs
import Mathlib.Data.List.Basic

/-!
# Byte strings and big-endian 32-bit words

`be32 n` is `htonl` of the low 32 bits of `n`, as the four bytes it has in
memory; `fromBe32` is `ntohl` of four bytes. The two are inverse on words below
2^32 (`fromBe32_be32`) and on strings of four bytes (`be32_fromBe32`).

`narrow n` is what becomes of a size where an `int` is expected: itself below
2^31 (`narrow_of_lt`), and always short of what it should be above.
-/
namespace Kinetic.Core

abbrev Bytes := List UInt8

/-- The four bytes of `htonl((uint32_t) n)`. -/
def be32 (n : Nat) : Bytes :=
  [UInt8.ofNat (n / 2 ^ 24), UInt8.ofNat (n / 2 ^ 16), UInt8.ofNat (n / 2 ^ 8), UInt8.ofNat n]

/-- `ntohl` of the four bytes of `b`. -/
def fromBe32 (b : Bytes) : Nat := b.foldl (fun n x => n * 256 + x.toNat) 0

@[simp] theorem be32_length (n : Nat) : (be32 n).length = 4 := rfl

theorem fromBe32_be32 (n : Nat) (h : n < 2 ^ 32) : fromBe32 (be32 n) = n := by
  simp only [fromBe32, be32, List.foldl_cons, List.foldl_nil, UInt8.toNat_ofNat']
  omega

/-- A length that does not fit is written modulo 2^32. -/
theorem be32_mod (n : Nat) : be32 (n % 2 ^ 32) = be32 n := by
  simp only [be32, List.cons.injEq, and_true]
  refine ⟨?_, ?_, ?_, ?_⟩ <;> apply UInt8.toNat_inj.1 <;> simp only [UInt8.toNat_ofNat'] <;> omega

theorem fromBe32_be32_mod (n : Nat) : fromBe32 (be32 n) = n % 2 ^ 32 := by
  rw [← be32_mod, fromBe32_be32 _ (Nat.mod_lt _ (by omega))]

theorem four_bytes {b : Bytes} (h : b.length = 4) : ∃ w x y z, b = [w, x, y, z] := by
  match b, h with
  | [w, x, y, z], _ => exact ⟨w, x, y, z, rfl⟩

theorem fromBe32_lt {b : Bytes} (h : b.length = 4) : fromBe32 b < 2 ^ 32 := by
  obtain ⟨w, x, y, z, rfl⟩ := four_bytes h
  have := w.toNat_lt; have := x.toNat_lt; have := y.toNat_lt; have := z.toNat_lt
  simp only [fromBe32, List.foldl_cons, List.foldl_nil]; omega

theorem be32_fromBe32 {b : Bytes} (h : b.length = 4) : be32 (fromBe32 b) = b := by
  obtain ⟨w, x, y, z, rfl⟩ := four_bytes h
  have := w.toNat_lt; have := x.toNat_lt; have := y.toNat_lt; have := z.toNat_lt
  simp only [fromBe32, be32, List.foldl_cons, List.foldl_nil, List.cons.injEq, and_true]
  refine ⟨?_, ?_, ?_, ?_⟩ <;> apply UInt8.toNat_inj.1 <;> simp only [UInt8.toNat_ofNat'] <;> omega

/-! ## Narrowing -/

/-- The `int` that a `size_t` is converted to. -/
def narrow (n : Nat) : Int := (n : Int).bmod (2 ^ 32)

theorem narrow_of_lt {n : Nat} (h : n < 2 ^ 31) : narrow n = n := by
  unfold narrow
  rw [Int.bmod_def]
  omega

theorem narrow_of_le {n : Nat} (h : 2 ^ 31 ≤ n) (hp : 0 < narrow n) :
    (narrow n).toNat + 2 ^ 31 ≤ n := by
  unfold narrow at hp ⊢
  rw [Int.bmod_def] at hp ⊢
  split at hp
  all_goals omega

end Kinetic.Core
