import Mathlib.Data.List.Basic

/-!
# Resources that are acquired and released

A trace of acquisitions and releases, and what is held at its end (`settle`); a
release of what is not held, such as a second one, settles nothing. Traces compose
(`settle_append`).
-/
namespace Kinetic.Core

inductive Lease (ρ : Type*) where
  | acquire (r : ρ)
  | release (r : ρ)
  deriving DecidableEq, Repr

variable {ρ : Type*} [DecidableEq ρ]

/-- What is held after a trace; `none` if something is released that is not held. -/
def settle : List ρ → List (Lease ρ) → Option (List ρ)
  | held, [] => some held
  | held, .acquire r :: us => settle (r :: held) us
  | held, .release r :: us => if r ∈ held then settle (held.erase r) us else none

theorem settle_append (held : List ρ) (us vs : List (Lease ρ)) :
    settle held (us ++ vs) = (settle held us).bind fun h => settle h vs := by
  induction us generalizing held with
  | nil => rfl
  | cons u us ih =>
    cases u with
    | acquire r => exact ih (r :: held)
    | release r =>
      rw [List.cons_append, settle, settle]
      split
      · exact ih (held.erase r)
      · rfl

theorem settle_append_of {held h : List ρ} {us : List (Lease ρ)} (hs : settle held us = some h)
    (vs : List (Lease ρ)) : settle held (us ++ vs) = settle h vs := by
  rw [settle_append, hs]
  rfl

theorem settle_bracket (held : List ρ) (r : ρ) (us : List (Lease ρ)) :
    settle held (.acquire r :: .release r :: us) = settle held us := by
  rw [settle, settle, if_pos List.mem_cons_self, List.erase_cons_head]

end Kinetic.Core
