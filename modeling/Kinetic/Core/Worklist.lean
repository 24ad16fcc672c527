import Mathlib.Algebra.Order.BigOperators.Group.Finset

/-!
# Work that brings more work

A loop that handles items until none is left, where handling an item may bring
new ones. Nothing bounds such a loop: it ends if and only if at some point as
many items have been handled as there have ever been (`drain_iff`). What each
turn keeps holds at the end (`drain_ends`).
-/
namespace Kinetic.Core

variable {S : Type}

/-- Handle items until none is left; the next is the `k`-th. `none`: the fuel
has run out first. -/
def drain (size : S → Nat) (handle : Nat → S → S) : Nat → Nat → S → Option S
  | 0, _, _ => none
  | fuel + 1, k, s => if size s = 0 then some s else drain size handle fuel (k + 1) (handle k s)

/-- With `n` items from the `k`-th on, and `more i` new ones for the `i`-th, some
first `m` are all there have ever been. -/
def CatchesUp (more : Nat → Nat) (k n : Nat) : Prop :=
  ∃ m, n + ∑ i ∈ Finset.range m, more (k + i) ≤ m

variable {more : Nat → Nat} {k n : Nat}

theorem catchesUp_zero : CatchesUp more k 0 := ⟨0, by simp⟩

theorem sum_more_succ (more : Nat → Nat) (k m : Nat) :
    ∑ i ∈ Finset.range (m + 1), more (k + i) =
      ∑ i ∈ Finset.range m, more (k + 1 + i) + more k := by
  rw [Finset.sum_range_succ', Nat.add_zero]
  congr 1
  exact Finset.sum_congr rfl fun i _ => by rw [Nat.add_right_comm, Nat.add_assoc]

theorem catchesUp_succ : CatchesUp more k (n + 1) ↔ CatchesUp more (k + 1) (n + more k) := by
  constructor
  · rintro ⟨m, hm⟩
    obtain _ | m := m
    · simp at hm
    · rw [sum_more_succ] at hm
      exact ⟨m, by omega⟩
  · rintro ⟨m, hm⟩
    refine ⟨m + 1, ?_⟩
    rw [sum_more_succ]
    omega

theorem not_catchesUp (hmore : ∀ i, 1 ≤ more i) (hn : 0 < n) : ¬ CatchesUp more k n := by
  rintro ⟨m, hm⟩
  have : m ≤ ∑ i ∈ Finset.range m, more (k + i) :=
    calc m = ∑ _i ∈ Finset.range m, 1 := by simp
      _ ≤ _ := Finset.sum_le_sum fun i _ => hmore (k + i)
  omega

variable {size : S → Nat} {handle : Nat → S → S} {s t : S}

/-- **The loop ends** if and only if it catches up. `P` may say what the items
are known to be. -/
theorem drain_iff {P : S → Prop} (hP : ∀ k s, P s → size s ≠ 0 → P (handle k s))
    (hsize : ∀ k s, P s → size s ≠ 0 → size (handle k s) + 1 = size s + more k) (hs : P s) :
    (∃ fuel t, drain size handle fuel k s = some t) ↔ CatchesUp more k (size s) := by
  constructor
  · rintro ⟨fuel, t, h⟩
    induction fuel generalizing k s with
    | zero => cases h
    | succ fuel ih =>
      unfold drain at h
      split at h
      · rename_i h0
        rw [h0]
        exact catchesUp_zero
      · rename_i h0
        have hm := hsize k s hs h0
        obtain ⟨n, hn⟩ := Nat.exists_eq_succ_of_ne_zero h0
        rw [hn, Nat.succ_eq_add_one, catchesUp_succ]
        have := ih (hP k s hs h0) h
        rwa [show size (handle k s) = n + more k by omega] at this
  · rintro ⟨m, hm⟩
    induction m generalizing k s with
    | zero =>
      have h0 : size s = 0 := by simpa using hm
      exact ⟨1, s, by simp [drain, h0]⟩
    | succ m ih =>
      by_cases h0 : size s = 0
      · exact ⟨1, s, by simp [drain, h0]⟩
      have hstep := hsize k s hs h0
      rw [sum_more_succ] at hm
      obtain ⟨fuel, t, h⟩ := ih (hP k s hs h0) (k := k + 1) (by omega)
      exact ⟨fuel + 1, t, by simp [drain, h0, h]⟩

theorem drain_ends {P : S → Prop} (hP : ∀ k s, P s → size s ≠ 0 → P (handle k s)) {fuel : Nat}
    (h : drain size handle fuel k s = some t) (hs : P s) : P t ∧ size t = 0 := by
  induction fuel generalizing k s with
  | zero => cases h
  | succ fuel ih =>
    unfold drain at h
    split at h
    · cases h
      exact ⟨hs, by assumption⟩
    · exact ih h (hP k s hs (by assumption))

end Kinetic.Core
