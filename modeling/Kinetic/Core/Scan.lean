import Mathlib.Data.Finset.Card
import Mathlib.Order.Basic

/-!
# Scanning a range page by page

A range of a linear order is read in pages: each page is an ascending, gap-free
initial segment of what is stored in the part of the range not yet covered, and
the next page starts behind its last key. The store may change between pages
(`stored m` is what it holds at moment `m`, at which at most one page is made). `Scanned` is what holds of
the keys read so far; a page extends it (`Scanned.page`), an empty page ends the
scan (`Scanned.ended`).
-/
namespace Kinetic.Core

variable {α : Type*} [LinearOrder α]

/-- What lies between two keys, each end with its key or without. -/
structure Span (α : Type*) where
  first : α
  firstInc : Bool
  last : α
  lastInc : Bool
  deriving DecidableEq, Repr

namespace Span

instance : Membership α (Span α) where
  mem r k := (r.first < k ∨ r.firstInc = true ∧ k = r.first) ∧
    (k < r.last ∨ r.lastInc = true ∧ k = r.last)

instance (k : α) (r : Span α) : Decidable (k ∈ r) :=
  inferInstanceAs (Decidable ((_ ∨ _) ∧ (_ ∨ _)))

theorem mem_def {k : α} {r : Span α} : k ∈ r ↔
    (r.first < k ∨ r.firstInc = true ∧ k = r.first) ∧
      (k < r.last ∨ r.lastInc = true ∧ k = r.last) := Iff.rfl

/-- The part of the range behind `k`. -/
def after (r : Span α) (k : α) : Span α := { r with first := k, firstInc := false }

theorem mem_after {r : Span α} {k x : α} (hk : k ∈ r) : x ∈ r.after k ↔ x ∈ r ∧ k < x := by
  rw [mem_def, mem_def]
  simp only [after, Bool.false_eq_true, false_and, or_false]
  constructor
  · rintro ⟨hkx, hl⟩
    refine ⟨⟨.inl ?_, hl⟩, hkx⟩
    rcases hk.1 with hf | ⟨-, rfl⟩
    · exact hf.trans hkx
    · exact hkx
  · rintro ⟨⟨-, hl⟩, hkx⟩
    exact ⟨hkx, hl⟩

end Span

/-- `ks` is an ascending, gap-free initial segment of what is stored in `r`, of
at most `size` keys, and empty only if there is nothing. -/
structure Page (stored : Finset α) (r : Span α) (size : Nat) (ks : List α) : Prop where
  ascending : ks.Pairwise (· < ·)
  sound : ∀ k ∈ ks, k ∈ stored ∧ k ∈ r
  gapFree : ∀ k ∈ stored, k ∈ r → ∀ x ∈ ks, k ≤ x → k ∈ ks
  bound : ks.length ≤ size
  nonempty : ∀ k ∈ stored, k ∈ r → ks ≠ []

theorem le_getLast {ks : List α} (h : ks.Pairwise (· < ·)) {x : α} (hx : ks.getLast? = some x) :
    ∀ k ∈ ks, k ≤ x := by
  obtain ⟨init, rfl⟩ := List.getLast?_eq_some_iff.1 hx
  intro k hk
  rcases List.mem_append.1 hk with hk | hk
  · exact ((List.pairwise_append.1 h).2.2 k hk x (List.mem_singleton.2 rfl)).le
  · exact (List.mem_singleton.1 hk).le

/-- A stored key of the range is on the page or behind its last key. -/
theorem Page.mem_or_after {stored : Finset α} {r : Span α} {size : Nat} {ks : List α}
    (h : Page stored r size ks) {x : α} (hx : ks.getLast? = some x) {k : α}
    (hs : k ∈ stored) (hr : k ∈ r) : k ∈ ks ∨ k ∈ r.after x := by
  have hxk := List.mem_of_getLast? hx
  rcases le_or_gt k x with hle | hlt
  · exact .inl (h.gapFree k hs hr x hxk hle)
  · exact .inr ((Span.mem_after (h.sound x hxk).2).2 ⟨hr, hlt⟩)

theorem length_le_card {ks : List α} (h : ks.Pairwise (· < ·)) {S : Finset α}
    (hs : ∀ k ∈ ks, k ∈ S) : ks.length ≤ S.card := by
  have hn : ks.Nodup := h.imp fun hlt => hlt.ne
  rw [← List.toFinset_card_of_nodup hn]
  exact Finset.card_le_card fun k hk => hs k (List.mem_toFinset.1 hk)

theorem page_take {S : Finset α} {stored : List α} (hS : ∀ k, k ∈ S ↔ k ∈ stored)
    (hs : stored.Pairwise (· < ·)) (r : Span α) {size : Nat} (h : 0 < size) :
    Page S r size ((stored.filter (· ∈ r)).take size) := by
  have hf : (stored.filter (· ∈ r)).Pairwise (· < ·) := hs.filter _
  have hm : ∀ k, k ∈ stored.filter (· ∈ r) ↔ k ∈ stored ∧ k ∈ r := by simp
  refine ⟨hf.sublist (List.take_sublist _ _), fun k hk => ?_, fun k hk hr x hx hle => ?_,
    List.length_take_le _ _, fun k hk hr hnil => ?_⟩
  · rw [hS]; exact (hm k).1 (List.mem_of_mem_take hk)
  · have hmem := (hm k).2 ⟨(hS k).1 hk, hr⟩
    rw [← List.take_append_drop size (stored.filter (· ∈ r))] at hf hmem
    rcases List.mem_append.1 hmem with hmem | hmem
    · exact hmem
    · exact absurd ((List.pairwise_append.1 hf).2.2 x hx k hmem) (not_lt_of_ge hle)
  · have hmem := (hm k).2 ⟨(hS k).1 hk, hr⟩
    rcases List.take_eq_nil_iff.1 hnil with h0 | hnil
    · omega
    · rw [hnil] at hmem
      cases hmem

/-- Between the moments `n₀` and `n` pages have been read from `r`: `out` are
their keys and `rest` is what is still to be asked for. -/
structure Scanned (stored : Nat → Finset α) (r : Span α) (n₀ n : Nat) (out : List α)
    (rest : Span α) : Prop where
  ascending : out.Pairwise (· < ·)
  sound : ∀ k ∈ out, k ∈ r ∧ ∃ m, n₀ ≤ m ∧ m < n ∧ k ∈ stored m
  ahead : ∀ k ∈ out, ∀ x ∈ rest, k < x
  inside : ∀ x ∈ rest, x ∈ r
  complete : ∀ k ∈ r, (∀ m, n₀ ≤ m → m < n → k ∈ stored m) → k ∈ out ∨ k ∈ rest

namespace Scanned

variable {stored : Nat → Finset α} {r rest : Span α} {n₀ n size : Nat} {out ks : List α}

theorem start (stored : Nat → Finset α) (r : Span α) (n : Nat) : Scanned stored r n n [] r :=
  ⟨.nil, by simp, by simp, fun _ h => h, fun _ h _ => .inr h⟩

theorem wait (h : Scanned stored r n₀ n out rest) : Scanned stored r n₀ (n + 1) out rest := by
  refine ⟨h.ascending, fun k hk => ?_, h.ahead, h.inside, fun k hk hs => ?_⟩
  · obtain ⟨hr, m, h1, h2, h3⟩ := h.sound k hk
    exact ⟨hr, m, h1, Nat.lt_succ_of_lt h2, h3⟩
  · exact h.complete k hk fun m h1 h2 => hs m h1 (Nat.lt_succ_of_lt h2)

theorem page (h : Scanned stored r n₀ n out rest) (hn : n₀ ≤ n)
    (hp : Page (stored n) rest size ks) {x : α} (hx : ks.getLast? = some x) :
    Scanned stored r n₀ (n + 1) (out ++ ks) (rest.after x) := by
  have hxr := (hp.sound x (List.mem_of_getLast? hx)).2
  refine ⟨?_, fun k hk => ?_, fun k hk y hy => ?_, fun y hy => ?_, fun k hk hs => ?_⟩
  · exact List.pairwise_append.2
      ⟨h.ascending, hp.ascending, fun k hk y hy => h.ahead k hk y (hp.sound y hy).2⟩
  · rcases List.mem_append.1 hk with hk | hk
    · obtain ⟨hr, m, h1, h2, h3⟩ := h.sound k hk
      exact ⟨hr, m, h1, Nat.lt_succ_of_lt h2, h3⟩
    · obtain ⟨hs, hr⟩ := hp.sound k hk
      exact ⟨h.inside k hr, n, hn, Nat.lt_succ_self n, hs⟩
  · obtain ⟨hyr, hlt⟩ := (Span.mem_after hxr).1 hy
    rcases List.mem_append.1 hk with hk | hk
    · exact h.ahead k hk y hyr
    · exact (le_getLast hp.ascending hx k hk).trans_lt hlt
  · exact h.inside y ((Span.mem_after hxr).1 hy).1
  · rcases h.complete k hk (fun m h1 h2 => hs m h1 (Nat.lt_succ_of_lt h2)) with ho | hr
    · exact .inl (List.mem_append_left _ ho)
    · rcases hp.mem_or_after hx (hs n hn (Nat.lt_succ_self n)) hr with hk | hk
      · exact .inl (List.mem_append_right _ hk)
      · exact .inr hk

theorem ended (h : Scanned stored r n₀ n out rest) (hn : n₀ ≤ n)
    (hp : Page (stored n) rest size []) {k : α} (hk : k ∈ r)
    (hs : ∀ m, n₀ ≤ m → m < n + 1 → k ∈ stored m) : k ∈ out := by
  rcases h.complete k hk (fun m h1 h2 => hs m h1 (Nat.lt_succ_of_lt h2)) with ho | hr
  · exact ho
  · exact absurd rfl (hp.nonempty k (hs n hn (Nat.lt_succ_self n)) hr)

end Scanned
end Kinetic.Core
