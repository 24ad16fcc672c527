import Kinetic.Core.LTS

/-!
# Counting down to a goal

A measure that no step raises and some steps lower bounds how many of those a run
can make before it reaches its goal (`Countdown.run`), and where it is positive
short of the goal, as many of them reach it (`Countdown.reaches`).
-/
namespace Kinetic.Core.LTS

variable {S L : Type} {M : LTS S L}

/-- On the states of `P`: short of the goal no step raises `μ` and a marked one
lowers it; the goal, once reached, stays reached. -/
structure Countdown (M : LTS S L) (P goal : S → Prop) (marked : L → Prop) (μ : S → Nat) : Prop where
  keeps : ∀ s l t, P s → M.step s l t → P t
  stays : ∀ s l t, P s → M.step s l t → goal s → goal t
  le : ∀ s l t, P s → M.step s l t → ¬ goal t → μ t ≤ μ s
  lt : ∀ s l t, P s → M.step s l t → marked l → ¬ goal t → μ t < μ s

namespace Countdown

variable {P goal : S → Prop} {marked : L → Prop} {μ : S → Nat} {s t : S} {ls : List L}

theorem stays_run (h : Countdown M P goal marked μ) (hr : M.Run s ls t) (hp : P s)
    (hg : goal s) : goal t := by
  induction hr with
  | nil => exact hg
  | cons hs _ ih => exact ih (h.keeps _ _ _ hp hs) (h.stays _ _ _ hp hs hg)

/-- **A run** short of its goal has made no more marked steps than the measure has
come down. -/
theorem run [DecidablePred marked] (h : Countdown M P goal marked μ) (hr : M.Run s ls t) (hp : P s) :
    goal t ∨ μ t + ls.countP (fun l => decide (marked l)) ≤ μ s := by
  induction hr with
  | nil => exact .inr (Nat.le_refl _)
  | @cons s u t l ls hs hr ih =>
    by_cases hg : goal u
    · exact .inl (h.stays_run hr (h.keeps _ _ _ hp hs) hg)
    refine (ih (h.keeps _ _ _ hp hs)).imp_right fun hle => ?_
    rw [List.countP_cons]
    by_cases hm : marked l
    · have := h.lt _ _ _ hp hs hm hg
      rw [if_pos (decide_eq_true hm)]
      omega
    · have := h.le _ _ _ hp hs hg
      rw [if_neg (by simpa using hm)]
      omega

theorem keeps_run (h : Countdown M P goal marked μ) (hr : M.Run s ls t) (hp : P s) : P t := by
  induction hr with
  | nil => exact hp
  | cons hs _ ih => exact ih (h.keeps _ _ _ hp hs)

/-- **A run** of as many marked steps as the measure reaches the goal. -/
theorem reaches [DecidablePred marked] (h : Countdown M P goal marked μ)
    (hpos : ∀ u, P u → ¬ goal u → 0 < μ u) (hr : M.Run s ls t) (hp : P s)
    (hc : μ s ≤ ls.countP (fun l => decide (marked l))) : goal t := by
  by_cases hg : goal t
  · exact hg
  have := hpos t (h.keeps_run hr hp) hg
  have := (h.run hr hp).resolve_left hg
  omega

end Countdown
end Kinetic.Core.LTS
