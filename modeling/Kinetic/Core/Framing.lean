import Mathlib.Data.List.Infix

/-!
# Self-delimiting codes

Words that follow one another in a stream with nothing in between. `split` takes
the first word off a stream, if the whole of it is there, and `decode` goes on as
long as it can. Cut anywhere, a stream of words reads as the words that have come
whole, in order, and the beginning of the next (`decode_words`, `split_beginning`).
-/
namespace Kinetic.Core

variable {α β : Type*}

/-- `split` finds the word that a stream begins with, and finds no others. -/
structure SelfDelimiting (encode : α → List β) (split : List β → Option (α × List β))
    (word : α → Prop) : Prop where
  whole : ∀ a rest, word a → split (encode a ++ rest) = some (a, rest)
  sound : ∀ l a rest, split l = some (a, rest) → word a ∧ l = encode a ++ rest
  nonempty : ∀ a, word a → encode a ≠ []

section
variable (split : List β → Option (α × List β))

def decodeLoop : Nat → List β → List α × List β
  | 0, l => ([], l)
  | fuel + 1, l =>
    match split l with
    | none => ([], l)
    | some (a, rest) => (a :: (decodeLoop fuel rest).1, (decodeLoop fuel rest).2)

/-- The words that a stream begins with, and what is left behind them; every word
takes up some of the stream. -/
def decode (l : List β) : List α × List β := decodeLoop split l.length l

end

namespace SelfDelimiting

variable {encode : α → List β} {split : List β → Option (α × List β)} {word : α → Prop}

theorem split_beginning (h : SelfDelimiting encode split word) {a : α} {l : List β} (ha : word a)
    (hl : l <+: encode a) (hne : l ≠ encode a) : split l = none := by
  obtain ⟨tail, htail⟩ := hl
  cases hs : split l with
  | none => rfl
  | some p =>
    obtain ⟨b, rest⟩ := p
    obtain ⟨hb, hl⟩ := h.sound _ _ _ hs
    have h1 := h.whole a [] ha
    have h2 := h.whole b (rest ++ tail) hb
    rw [List.append_nil, ← htail, hl, List.append_assoc, h2] at h1
    have htail' : tail = [] := (List.append_eq_nil_iff.1 (Prod.mk.inj (Option.some.inj h1)).2).2
    rw [htail', List.append_nil] at htail
    exact absurd htail hne

theorem split_nil (h : SelfDelimiting encode split word) : split [] = none := by
  cases hs : split [] with
  | none => rfl
  | some p =>
    obtain ⟨hp, hl⟩ := h.sound _ _ _ hs
    exact absurd (List.append_eq_nil_iff.1 hl.symm).1 (h.nonempty _ hp)

theorem decodeLoop_words (h : SelfDelimiting encode split word) {as : List α}
    (has : ∀ a ∈ as, word a) {rest : List β} (hrest : split rest = none) (fuel : Nat)
    (hfuel : as.length ≤ fuel) : decodeLoop split fuel (as.flatMap encode ++ rest) = (as, rest) := by
  induction as generalizing fuel with
  | nil =>
    cases fuel with
    | zero => rfl
    | succ fuel =>
      rw [List.flatMap_nil, List.nil_append, decodeLoop, hrest]
  | cons a as ih =>
    obtain ⟨fuel, rfl⟩ : ∃ f, fuel = f + 1 := Nat.exists_eq_add_one.2 (by simp at hfuel; omega)
    have hrec := ih (fun b hb => has b (List.mem_cons_of_mem _ hb)) fuel (by simpa using hfuel)
    rw [List.flatMap_cons, List.append_assoc, decodeLoop, h.whole a _ (has a List.mem_cons_self)]
    dsimp only
    rw [hrec]

theorem length_le (h : SelfDelimiting encode split word) {as : List α} (has : ∀ a ∈ as, word a) :
    as.length ≤ (as.flatMap encode).length := by
  induction as with
  | nil => exact Nat.le_refl 0
  | cons a as ih =>
    have hrec := ih fun b hb => has b (List.mem_cons_of_mem _ hb)
    have hpos := List.length_pos_iff.2 (h.nonempty a (has a List.mem_cons_self))
    rw [List.flatMap_cons, List.length_append, List.length_cons]
    omega

/-- A word that a stream begins with is the only one. -/
theorem whole_unique (h : SelfDelimiting encode split word) {a b : α} {l l' : List β} (ha : word a)
    (hb : word b) (heq : encode a ++ l = encode b ++ l') : a = b ∧ l = l' := by
  have h1 := h.whole a l ha
  rw [heq, h.whole b l' hb] at h1
  exact ⟨(Prod.mk.inj (Option.some.inj h1)).1.symm, (Prod.mk.inj (Option.some.inj h1)).2.symm⟩

/-- Words that a stream of words begins with are the first of these. -/
theorem words_prefix (h : SelfDelimiting encode split word) {as bs : List α}
    (has : ∀ a ∈ as, word a) (hbs : ∀ b ∈ bs, word b)
    (hp : as.flatMap encode <+: bs.flatMap encode) : as <+: bs := by
  induction as generalizing bs with
  | nil => exact List.nil_prefix
  | cons a as ih =>
    obtain ⟨rest, hrest⟩ := hp
    cases bs with
    | nil =>
      simp only [List.flatMap_cons, List.flatMap_nil, List.append_eq_nil_iff] at hrest
      exact absurd hrest.1.1 (h.nonempty a (has a List.mem_cons_self))
    | cons b bs =>
      rw [List.flatMap_cons, List.flatMap_cons, List.append_assoc] at hrest
      obtain ⟨rfl, htail⟩ := h.whole_unique (has _ List.mem_cons_self) (hbs _ List.mem_cons_self) hrest
      exact List.cons_prefix_cons.2 ⟨rfl, ih (fun c hc => has c (List.mem_cons_of_mem _ hc))
        (fun c hc => hbs c (List.mem_cons_of_mem _ hc)) ⟨rest, htail⟩⟩

/-- As many words that a stream begins with are the same, and leave the same. -/
theorem words_cancel (h : SelfDelimiting encode split word) {as bs : List α}
    (has : ∀ a ∈ as, word a) (hbs : ∀ b ∈ bs, word b) {l l' : List β}
    (heq : as.flatMap encode ++ l = bs.flatMap encode ++ l') (hlen : as.length = bs.length) :
    as = bs ∧ l = l' := by
  induction as generalizing bs with
  | nil =>
    obtain rfl := List.length_eq_zero_iff.1 hlen.symm
    exact ⟨rfl, heq⟩
  | cons a as ih =>
    cases bs with
    | nil => cases hlen
    | cons b bs =>
      rw [List.flatMap_cons, List.flatMap_cons, List.append_assoc, List.append_assoc] at heq
      obtain ⟨rfl, htail⟩ := h.whole_unique (has _ List.mem_cons_self) (hbs _ List.mem_cons_self) heq
      obtain ⟨rfl, hl⟩ := ih (fun c hc => has c (List.mem_cons_of_mem _ hc))
        (fun c hc => hbs c (List.mem_cons_of_mem _ hc)) htail (Nat.succ.inj hlen)
      exact ⟨rfl, hl⟩

/-- **A stream of words** reads as these words, whatever is left over not being one. -/
theorem decode_words (h : SelfDelimiting encode split word) {as : List α} (has : ∀ a ∈ as, word a)
    {rest : List β} (hrest : split rest = none) :
    decode split (as.flatMap encode ++ rest) = (as, rest) := by
  refine h.decodeLoop_words has hrest _ ?_
  have := h.length_le has
  rw [List.length_append]
  omega

end SelfDelimiting
end Kinetic.Core
