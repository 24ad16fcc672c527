import Mathlib.Data.List.Count
import Mathlib.Data.List.Nodup

/-!
# Custody ledgers

Tokens are issued one at a time, pass between holders, and leave by being
settled or withdrawn. `Balanced issued settled withdrawn held` says that every
issued token is in exactly one of the three places. A settled token may stay
listed in `held` for a while (a holder that has already used it but has not let
go of it yet): such a stale entry counts as settled.

The rules below keep a ledger balanced; `settled_once`, `not_both` and
`accounted` read the results off it.
-/
namespace Kinetic.Core.Ledger

variable {α : Type} [DecidableEq α]

/-- Every issued token is in exactly one place. -/
structure Balanced (issued settled withdrawn held : List α) : Prop where
  issued_once : ∀ a, issued.count a ≤ 1
  held_once : ∀ a, held.count a ≤ 1
  total : ∀ a, settled.count a + withdrawn.count a + (if a ∈ settled then 0 else held.count a) =
    issued.count a

variable {issued settled withdrawn held : List α} {a b : α}

theorem Balanced.empty : Balanced ([] : List α) [] [] [] := ⟨by simp, by simp, by simp⟩

/-! ## Reading a balanced ledger -/

theorem Balanced.settled_once (h : Balanced issued settled withdrawn held) (a : α) :
    settled.count a ≤ 1 := by
  have := h.total a; have := h.issued_once a; omega

theorem Balanced.not_both (h : Balanced issued settled withdrawn held) (hs : a ∈ settled) :
    a ∉ withdrawn := by
  intro hw
  have h1 := List.count_pos_iff.2 hs
  have h2 := List.count_pos_iff.2 hw
  have := h.total a; have := h.issued_once a; omega

/-- Whoever holds an unsettled token, the token is issued and not withdrawn. -/
theorem Balanced.live (h : Balanced issued settled withdrawn held) (hh : a ∈ held)
    (hs : a ∉ settled) : a ∈ issued ∧ a ∉ withdrawn := by
  have h1 := List.count_pos_iff.2 hh
  have ht := h.total a
  have hi := h.issued_once a
  rw [if_neg hs] at ht
  exact ⟨List.count_pos_iff.1 (by omega), fun hw => by have := List.count_pos_iff.2 hw; omega⟩

theorem Balanced.settled_issued (h : Balanced issued settled withdrawn held) (hs : a ∈ settled) :
    a ∈ issued := by
  have h1 := List.count_pos_iff.2 hs
  have := h.total a
  exact List.count_pos_iff.1 (by omega)

theorem Balanced.withdrawn_issued (h : Balanced issued settled withdrawn held)
    (hw : a ∈ withdrawn) : a ∈ issued := by
  have h1 := List.count_pos_iff.2 hw
  have := h.total a
  exact List.count_pos_iff.1 (by omega)

theorem Balanced.held_issued (h : Balanced issued settled withdrawn held) (hh : a ∈ held) :
    a ∈ issued := by
  by_cases hs : a ∈ settled
  · exact h.settled_issued hs
  · exact (h.live hh hs).1

/-- An issued token that nobody holds has been settled or withdrawn. -/
theorem Balanced.accounted (h : Balanced issued settled withdrawn held) (hi : a ∈ issued)
    (hh : a ∉ held) : a ∈ settled ∨ a ∈ withdrawn := by
  have h1 := List.count_pos_iff.2 hi
  have ht := h.total a
  rw [List.count_eq_zero.2 hh] at ht
  simp only [ite_self, Nat.add_zero] at ht
  rcases Nat.eq_zero_or_pos (settled.count a) with h0 | h0
  · exact .inr (List.count_pos_iff.1 (by omega))
  · exact .inl (List.count_pos_iff.1 h0)

/-! ## The moves -/

theorem Balanced.rearrange {held' : List α} (h : Balanced issued settled withdrawn held)
    (hc : ∀ a, held'.count a = held.count a) : Balanced issued settled withdrawn held' :=
  ⟨h.issued_once, fun a => by rw [hc]; exact h.held_once a, fun a => by rw [hc]; exact h.total a⟩

theorem Balanced.issue (held' : List α) (h : Balanced issued settled withdrawn held)
    (hf : a ∉ issued) (hc : ∀ b, held'.count b = held.count b + if b = a then 1 else 0) :
    Balanced (issued ++ [a]) settled withdrawn held' := by
  have h0 : a ∉ held := fun hh => hf (h.held_issued hh)
  have hs : a ∉ settled := fun hs => hf (h.settled_issued hs)
  refine ⟨fun b => ?_, fun b => ?_, fun b => ?_⟩
  · have := h.issued_once b
    rw [List.count_append, List.count_singleton]
    split
    · rename_i hb
      have hb0 : issued.count b = 0 := by rw [← beq_iff_eq.1 hb]; exact List.count_eq_zero.2 hf
      omega
    · omega
  · rw [hc]
    by_cases hb : b = a
    · subst hb; rw [List.count_eq_zero.2 h0]; simp
    · have := h.held_once b; simp [hb]; omega
  · have ht := h.total b
    rw [hc, List.count_append, List.count_singleton]
    by_cases hb : b = a
    · subst hb
      simp only [hs, if_false, BEq.rfl, if_true] at ht ⊢; omega
    · have : (a == b) = false := by simp; exact fun e => hb e.symm
      simp only [this, hb, if_false, Bool.false_eq_true, Nat.add_zero]; exact ht

theorem Balanced.settle (h : Balanced issued settled withdrawn held) (hh : a ∈ held)
    (hs : a ∉ settled) : Balanced issued (settled ++ [a]) withdrawn held := by
  refine ⟨h.issued_once, h.held_once, fun b => ?_⟩
  have ht := h.total b
  by_cases hb : b = a
  · subst hb
    have h1 := List.count_pos_iff.2 hh
    have h2 := h.held_once b
    rw [if_neg hs, List.count_eq_zero.2 hs] at ht
    rw [if_pos (by simp), List.count_append, List.count_singleton_self, List.count_eq_zero.2 hs]
    omega
  · have h1 : (b ∈ settled ++ [a]) = (b ∈ settled) := by simp [hb]
    have h2 : ([a] : List α).count b = 0 := List.count_eq_zero.2 (by simpa using hb)
    simp only [h1, List.count_append, h2, Nat.add_zero]; exact ht

theorem Balanced.issue_settle (h : Balanced issued settled withdrawn held) (hf : a ∉ issued) :
    Balanced (issued ++ [a]) (settled ++ [a]) withdrawn held := by
  have h0 : a ∉ held := fun hh => hf (h.held_issued hh)
  have h1 : Balanced (issued ++ [a]) settled withdrawn (a :: held) :=
    h.issue _ hf fun b => by
      rw [List.count_cons]; by_cases hb : b = a
      · simp [hb]
      · simp [hb]; exact fun e => hb e.symm
  have h2 := h1.settle (a := a) (by simp) fun hs => hf (h.settled_issued hs)
  refine ⟨h2.issued_once, h.held_once, fun b => ?_⟩
  have ht := h2.total b
  by_cases hb : b = a
  · subst hb; simp only [List.mem_append, List.mem_singleton, or_true, if_true] at ht ⊢; exact ht
  · rwa [List.count_cons_of_ne (fun e => hb e.symm)] at ht

theorem Balanced.discard (held' : List α) (h : Balanced issued settled withdrawn held)
    (hle : ∀ a, held'.count a ≤ held.count a)
    (hc : ∀ a, a ∉ settled → held'.count a = held.count a) :
    Balanced issued settled withdrawn held' := by
  refine ⟨h.issued_once, fun b => Nat.le_trans (hle b) (h.held_once b), fun b => ?_⟩
  have ht := h.total b
  by_cases hs : b ∈ settled
  · simpa [hs] using ht
  · rw [hc b hs]; exact ht

theorem Balanced.withdraw {held' : List α} (h : Balanced issued settled withdrawn held)
    (hs : a ∉ settled) (hc : ∀ b, held.count b = held'.count b + if b = a then 1 else 0) :
    Balanced issued settled (withdrawn ++ [a]) held' := by
  refine ⟨h.issued_once, fun b => ?_, fun b => ?_⟩
  · have := h.held_once b; rw [hc] at this; omega
  · have ht := h.total b
    rw [hc] at ht
    rw [List.count_append, List.count_singleton]
    by_cases hb : b = a
    · subst hb; simp only [hs, if_false, if_true, BEq.rfl] at ht ⊢; omega
    · have : (a == b) = false := by simp; exact fun e => hb e.symm
      simp only [hb, this, if_false, Bool.false_eq_true, Nat.add_zero] at ht ⊢; exact ht

end Kinetic.Core.Ledger
