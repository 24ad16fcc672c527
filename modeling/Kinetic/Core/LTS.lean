import Mathlib.Logic.Relation

/-!
# Labelled transition systems

States, labels and a step relation; finite runs, reachability, and the rule
by which a predicate that holds initially and survives every step holds of
every reachable state. Everything else in the development is an instance.
-/
namespace Kinetic.Core

/-- A labelled transition system over states `S` and labels `L`. -/
structure LTS (S L : Type) where
  init : S → Prop
  step : S → L → S → Prop

namespace LTS

variable {S L : Type} {M : LTS S L}

inductive Run (M : LTS S L) : S → List L → S → Prop
  | nil (s : S) : Run M s [] s
  | cons {s t u : S} {l : L} {ls : List L} : M.step s l t → Run M t ls u → Run M s (l :: ls) u

def Reachable (M : LTS S L) (s : S) : Prop := ∃ s₀ ls, M.init s₀ ∧ M.Run s₀ ls s

/-- `P` holds initially and every step keeps it. -/
structure Inductive (M : LTS S L) (P : S → Prop) : Prop where
  init : ∀ s, M.init s → P s
  step : ∀ s l t, P s → M.step s l t → P t

theorem Run.keeps {P : S → Prop} (hstep : ∀ s l t, P s → M.step s l t → P t) {s u : S}
    {ls : List L} (h : M.Run s ls u) : P s → P u := by
  induction h with
  | nil => exact id
  | cons hs _ ih => exact fun hp => ih (hstep _ _ _ hp hs)

theorem Run.snoc {s t u : S} {ls : List L} {l : L} (h : M.Run s ls t) (hs : M.step t l u) :
    M.Run s (ls ++ [l]) u := by
  induction h with
  | nil => exact .cons hs (.nil _)
  | cons h1 _ ih => exact .cons h1 (ih hs)

theorem Run.append {s t u : S} {ls ms : List L} (h : M.Run s ls t) (h' : M.Run t ms u) :
    M.Run s (ls ++ ms) u := by
  induction h with
  | nil => exact h'
  | cons h1 _ ih => exact .cons h1 (ih h')

theorem Reachable.step {s t : S} {l : L} (h : M.Reachable s) (hs : M.step s l t) :
    M.Reachable t := by
  obtain ⟨s₀, ls, h0, hr⟩ := h
  exact ⟨s₀, ls ++ [l], h0, hr.snoc hs⟩

theorem Reachable.run {s t : S} {ls : List L} (h : M.Reachable s) (hr : M.Run s ls t) :
    M.Reachable t := by
  obtain ⟨s₀, ms, h0, hm⟩ := h
  exact ⟨s₀, ms ++ ls, h0, hm.append hr⟩

/-- **The invariant rule.** -/
theorem Inductive.reachable {P : S → Prop} (h : M.Inductive P) (s : S) (hr : M.Reachable s) :
    P s := by
  obtain ⟨s₀, ls, h0, hrun⟩ := hr
  exact hrun.keeps h.step (h.init s₀ h0)

end LTS
end Kinetic.Core
