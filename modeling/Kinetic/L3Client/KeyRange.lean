import Kinetic.L3Client.Blocking

/-!
# KeyRangeIterator

The iterator keeps one frame of keys and asks the connection for the next when
it is incremented past the last key. Its end has three shapes: `KeyRangeEnd`,
with no key list; an iterator whose last frame was empty, with an empty list
and a position that later increments move on; one whose last frame had no list.
`==` asks only whether both are at the end, so a live iterator compared with one
of the second shape reads outside the empty list (`Shape.equal_spent`).

`relpos_` is an `int`: incrementing it past 2^31 - 1 is undefined, and so is
reading outside a list or through a null pointer; a result `none` stands for
either.
-/
open Kinetic.Core

namespace Kinetic.L3

open L1 L2

/-- The exceptions the iterator throws. -/
inductive Thrown where
  | runtimeError (what : String)
  | outOfRange (what : String)
  deriving DecidableEq, Repr

/-- What a `GetKeyRange` call returns and what it leaves in `keys`, which a
call that fails need not have left alone. -/
structure KeyRangeReply where
  status : KineticStatus
  keys : Option (List Bytes)
  deriving DecidableEq, Repr

/-- What each connection answers to a call at some moment. -/
abbrev Answers := Nat → Call → KeyRangeReply

/-- mirrors include/kinetic/key_range_iterator.h:35-71, connections being
numbered. -/
structure KeyRangeIterator where
  bconn : Option Nat
  first : Bytes
  firstInc : Bool
  last : Bytes
  lastInc : Bool
  framesz : BitVec 32
  reverseOrder : Bool
  relpos : Int
  eol : Bool
  keys : Option (List Bytes)
  deriving DecidableEq, Repr

/-- `static_cast<int>` of a `size_t`. -/
def toInt32 (n : Nat) : Int := (n : Int).bmod (2 ^ 32)

/-- `keys[i]`; `none` is outside. -/
def indexed (keys : List Bytes) (i : Int) : Option Bytes :=
  if i < 0 then none else keys[i.toNat]?

/-- mirrors src/main/key_range_iterator.cc:26-41 -/
def keyRangeEnd : KeyRangeIterator where
  bconn := none
  first := []
  firstInc := false
  last := []
  lastInc := false
  framesz := 1
  reverseOrder := false
  relpos := -1
  eol := true
  keys := none

namespace KeyRangeIterator

variable (it : KeyRangeIterator)

/-- The call that asks for the next frame; `max_results` is an `int32_t`. -/
def frameCall : Call :=
  .getKeyRangeS it.first it.firstInc it.last it.lastInc it.reverseOrder it.framesz.toInt

/-- The moving boundary key (src/main/key_range_iterator.cc:156-160). -/
def moveBoundary : Option KeyRangeIterator :=
  match it.keys with
  | none => some it
  | some keys =>
    if it.relpos = -1 then some it
    else do
      let key ← indexed keys ((keys.length : Int) - 1)
      return { it with first := key, firstInc := false }

/-- mirrors src/main/key_range_iterator.cc:155-176 -/
def nextFrame (answers : Answers) : Option (Option Thrown × KeyRangeIterator) := do
  let it ← it.moveBoundary
  let bconn ← it.bconn
  let reply := answers bconn it.frameCall
  let it := { it with keys := reply.keys }
  if reply.status.code = .ok then
    return (none, { it with relpos := 0, eol := it.eol || (reply.keys.getD []).isEmpty })
  else return (some (.runtimeError reply.status.message), { it with relpos := -1 })

/-- mirrors src/main/key_range_iterator.cc:178-184 -/
def advance (answers : Answers) : Option (Option Thrown × KeyRangeIterator) :=
  if it.relpos = 2 ^ 31 - 1 then none
  else
    let it := { it with relpos := it.relpos + 1 }
    if it.relpos = -1 then it.nextFrame answers
    else
      match it.keys with
      | none => none
      | some keys =>
        if it.relpos = toInt32 keys.length then it.nextFrame answers else some (none, it)

/-- The members before the first frame is loaded
(src/main/key_range_iterator.cc:43-59). -/
def initial (bconn : Nat) (framesz : BitVec 32) (start : Bytes) (startInclusive : Bool)
    (last : Bytes) (lastInclusive : Bool) : KeyRangeIterator where
  bconn := some bconn
  first := start
  firstInc := startInclusive
  last := last
  lastInc := lastInclusive
  framesz := framesz
  reverseOrder := false
  relpos := -1
  eol := false
  keys := none

/-- mirrors src/main/key_range_iterator.cc:43-61: throws, or returns the new
iterator. -/
def create (answers : Answers) (bconn : Nat) (framesz : BitVec 32) (start : Bytes)
    (startInclusive : Bool) (last : Bytes) (lastInclusive : Bool) :
    Option (Except Thrown KeyRangeIterator) := do
  match ← (initial bconn framesz start startInclusive last lastInclusive).nextFrame answers with
  | (some e, _) => return .error e
  | (none, it) => return .ok it

/-- mirrors src/main/key_range_iterator.cc:63-77 -/
def copy (rhs : KeyRangeIterator) : KeyRangeIterator where
  bconn := rhs.bconn
  first := rhs.first
  firstInc := rhs.firstInc
  last := rhs.last
  lastInc := rhs.lastInc
  framesz := rhs.framesz
  reverseOrder := rhs.reverseOrder
  relpos := rhs.relpos
  eol := rhs.eol
  keys := rhs.keys

/-- mirrors src/main/key_range_iterator.cc:80-97 -/
def assign (_ rhs : KeyRangeIterator) : KeyRangeIterator where
  bconn := rhs.bconn
  first := rhs.first
  firstInc := rhs.firstInc
  last := rhs.last
  lastInc := rhs.lastInc
  framesz := rhs.framesz
  reverseOrder := rhs.reverseOrder
  relpos := rhs.relpos
  eol := rhs.eol
  keys := rhs.keys

/-- mirrors src/main/key_range_iterator.cc:101-106, each conjunct evaluated only
if those before it hold. -/
def equal (rhs : KeyRangeIterator) : Option Bool :=
  if rhs.eol = true ∧ it.eol = true then some true
  else if rhs.relpos ≠ -1 ∧ it.relpos ≠ -1 then
    match rhs.keys, it.keys with
    | some theirs, some ours => do
      let key ← indexed theirs rhs.relpos
      let key' ← indexed ours it.relpos
      return key == key'
    | _, _ => some false
  else some false

def badState : Thrown := .runtimeError "Iterator is in a bad state"

/-- mirrors src/main/key_range_iterator.cc:113-121: what it throws, if it does,
and the iterator afterwards. -/
def increment (answers : Answers) : Option (Option Thrown × KeyRangeIterator) :=
  if it.relpos = -1 ∨ it.keys = none then some (some badState, it) else it.advance answers

/-- mirrors src/main/key_range_iterator.cc:123-133: what it throws or returns,
and the iterator afterwards. -/
def postIncrement (answers : Answers) : Option (Except Thrown KeyRangeIterator × KeyRangeIterator) :=
  if it.relpos = -1 ∨ it.keys = none then some (.error badState, it)
  else do
    match ← it.advance answers with
    | (some e, next) => return (.error e, next)
    | (none, next) => return (.ok it.copy, next)

/-- mirrors src/main/key_range_iterator.cc:135-153, of both operators. -/
def dereference : Except Thrown (Option Bytes) :=
  match it.keys with
  | none => .error badState
  | some keys =>
    if it.relpos = -1 then .error badState
    else if it.eol then .error (.outOfRange "Iterator is out of bounds.")
    else .ok (indexed keys it.relpos)

/-- At the end of its range. -/
def Exhausted : Prop := it.eol = true

/-- After a frame that could not be loaded. -/
def Bad : Prop := it.eol = false ∧ it.relpos = -1

/-- On a key. -/
def Live : Prop := it.eol = false ∧ it.relpos ≠ -1

/-- The key it stands on, if its position is one of its list. -/
def current : Option Bytes := it.keys.bind fun keys => indexed keys it.relpos

end KeyRangeIterator

inductive Reachable : KeyRangeIterator → Prop where
  | ending : Reachable keyRangeEnd
  | create {answers : Answers} {bconn : Nat} {framesz : BitVec 32} {start last : Bytes}
      {si li : Bool} {it : KeyRangeIterator}
      (h : KeyRangeIterator.create answers bconn framesz start si last li = some (.ok it)) :
      Reachable it
  | copy {rhs : KeyRangeIterator} (h : Reachable rhs) : Reachable rhs.copy
  | assign {it rhs : KeyRangeIterator} (h : Reachable it) (h' : Reachable rhs) :
      Reachable (it.assign rhs)
  | increment {it next : KeyRangeIterator} {answers : Answers} {thrown : Option Thrown}
      (h : Reachable it) (hn : it.increment answers = some (thrown, next)) : Reachable next
  | postIncrement {it next : KeyRangeIterator} {answers : Answers}
      {result : Except Thrown KeyRangeIterator}
      (h : Reachable it) (hn : it.postIncrement answers = some (result, next)) : Reachable next
  | returned {it next old : KeyRangeIterator} {answers : Answers}
      (h : Reachable it) (hn : it.postIncrement answers = some (.ok old, next)) : Reachable old

namespace KeyRangeIterator

/-- The shapes of an iterator. -/
inductive Shape (it : KeyRangeIterator) : Prop where
  | ending (eol : it.eol = true) (keys : it.keys = none)
  | spent (eol : it.eol = true) (keys : it.keys = some []) (relpos : 0 ≤ it.relpos)
  | live (keys : List Bytes) (eol : it.eol = false) (held : it.keys = some keys)
      (relpos : 0 ≤ it.relpos) (within : it.relpos < keys.length) (int : it.relpos < 2 ^ 31)
  | bad (eol : it.eol = false) (relpos : it.relpos = -1)

variable {it next rhs : KeyRangeIterator} {answers : Answers} {thrown : Option Thrown}

theorem copy_eq (rhs : KeyRangeIterator) : rhs.copy = rhs := rfl

theorem assign_eq (it rhs : KeyRangeIterator) : it.assign rhs = rhs := rfl

theorem toInt32_of_lt {n : Nat} (h : n < 2 ^ 31) : toInt32 n = n := narrow_of_lt h

theorem indexed_eq {keys : List Bytes} (i : Nat) : indexed keys i = keys[i]? := by
  unfold indexed
  rw [if_neg (by omega), Int.toNat_natCast]

theorem indexed_isSome {keys : List Bytes} {i : Int} (h0 : 0 ≤ i) (h : i < keys.length) :
    (indexed keys i).isSome = true := by
  obtain ⟨n, rfl⟩ := Int.eq_ofNat_of_zero_le h0
  rw [indexed_eq, List.getElem?_eq_getElem (by omega)]
  rfl

theorem indexed_nil (i : Int) : indexed [] i = none := by
  unfold indexed
  split <;> rfl

theorem moveBoundary_frame {moved : KeyRangeIterator} (h : it.moveBoundary = some moved) :
    moved = { it with first := moved.first, firstInc := moved.firstInc } := by
  unfold moveBoundary at h
  split at h
  · cases h; rfl
  · split at h
    · cases h; rfl
    · simp only [bind, Option.bind_eq_some_iff, pure, Option.some.injEq] at h
      obtain ⟨_, -, rfl⟩ := h
      rfl

/-- A frame is loaded, or the iterator is bad. -/
theorem nextFrame_shape (he : it.eol = false) (h : it.nextFrame answers = some (thrown, next)) :
    next.Shape := by
  unfold nextFrame at h
  simp only [bind, Option.bind_eq_some_iff] at h
  obtain ⟨moved, hm, bconn, -, h⟩ := h
  have heol : moved.eol = false := by rw [moveBoundary_frame hm]; exact he
  split at h
  · simp only [pure, Option.some.injEq, Prod.mk.injEq] at h
    obtain ⟨-, rfl⟩ := h
    rcases (answers bconn moved.frameCall).keys with _ | _ | ⟨key, keys⟩
    · exact .ending (by simp) rfl
    · exact .spent (by simp) rfl (Int.le_refl 0)
    · exact .live (key :: keys) (by simp [heol]) rfl (Int.le_refl 0)
        (by simp only [List.length_cons]; omega) (by dsimp only; omega)
  · simp only [pure, Option.some.injEq, Prod.mk.injEq] at h
    obtain ⟨-, rfl⟩ := h
    exact .bad heol rfl

/-- A new iterator holds the first frame, unless that could not be loaded. -/
theorem create_eq (answers : Answers) (bconn : Nat) (framesz : BitVec 32) (start : Bytes) (si : Bool)
    (last : Bytes) (li : Bool) :
    create answers bconn framesz start si last li =
      let it := initial bconn framesz start si last li
      let reply := answers bconn it.frameCall
      some (if reply.status.code = .ok then
          .ok { it with keys := reply.keys, relpos := 0, eol := (reply.keys.getD []).isEmpty }
        else .error (.runtimeError reply.status.message)) := by
  have hm : (initial bconn framesz start si last li).moveBoundary =
      some (initial bconn framesz start si last li) := rfl
  have hb : (initial bconn framesz start si last li).bconn = some bconn := rfl
  unfold create nextFrame
  simp only [hm, hb, Option.bind_eq_bind, Option.bind_some]
  by_cases hok : (answers bconn (initial bconn framesz start si last li).frameCall).status.code = .ok
  · rw [if_pos hok, if_pos hok]
    rfl
  · rw [if_neg hok, if_neg hok]
    rfl

theorem advance_shape (hs : it.Shape) (hr : it.relpos ≠ -1) (hk : it.keys ≠ none)
    (h : it.advance answers = some (thrown, next)) : next.Shape := by
  unfold advance at h
  split at h
  · cases h
  rename_i hmax
  cases hs with
  | ending _ keys => exact absurd keys hk
  | bad _ relpos => exact absurd relpos hr
  | spent eol keys relpos =>
    have h0 : toInt32 ([] : List Bytes).length = 0 := by decide
    dsimp only at h
    rw [if_neg (by omega), keys] at h
    dsimp only at h
    rw [h0, if_neg (by omega)] at h
    cases h
    exact .spent eol rfl (by dsimp only; omega)
  | live keys eol held relpos within int =>
    dsimp only at h
    rw [if_neg (by omega), held] at h
    dsimp only at h
    split at h
    · exact nextFrame_shape (by exact eol) h
    · rename_i hlen
      cases h
      refine .live keys eol rfl (by dsimp only; omega) ?_ (by dsimp only; omega)
      -- a list too long for an int is never passed
      rcases Nat.lt_or_ge keys.length (2 ^ 31) with hs | hs
      · rw [toInt32_of_lt hs] at hlen
        dsimp only; omega
      · dsimp only; omega

theorem increment_shape (hs : it.Shape) (h : it.increment answers = some (thrown, next)) :
    next.Shape := by
  unfold increment at h
  split at h
  · cases h; exact hs
  · rename_i hn
    rw [not_or] at hn
    exact advance_shape hs hn.1 hn.2 h

/-- `it++` leaves what `++it` does, and returns the iterator as it was. -/
theorem postIncrement_cases {result : Except Thrown KeyRangeIterator}
    (h : it.postIncrement answers = some (result, next)) :
    (∃ thrown, it.increment answers = some (thrown, next)) ∧ ∀ old, result = .ok old → old = it := by
  unfold postIncrement at h
  unfold increment
  split at h
  · rename_i hb
    cases h
    exact ⟨⟨_, if_pos hb⟩, by simp⟩
  · rename_i hb
    simp only [bind, Option.bind_eq_some_iff] at h
    obtain ⟨⟨thrown, next'⟩, ha, h⟩ := h
    rw [if_neg hb]
    cases thrown with
    | some e => cases h; exact ⟨⟨_, ha⟩, by simp⟩
    | none => cases h; exact ⟨⟨_, ha⟩, fun old ho => (Except.ok.inj ho).symm⟩

end KeyRangeIterator

open KeyRangeIterator

theorem Reachable.shape {it : KeyRangeIterator} (h : Reachable it) : it.Shape := by
  induction h with
  | ending => exact .ending rfl rfl
  | @create answers bconn framesz start last si li it h =>
    unfold KeyRangeIterator.create at h
    simp only [bind, Option.bind_eq_some_iff] at h
    obtain ⟨⟨thrown, next⟩, hn, h⟩ := h
    cases thrown with
    | some e => cases h
    | none => cases h; exact nextFrame_shape rfl hn
  | copy _ ih => exact ih
  | assign _ _ _ ih => exact ih
  | increment _ hn ih => exact increment_shape ih hn
  | postIncrement _ hn ih =>
    obtain ⟨⟨thrown, hn⟩, -⟩ := postIncrement_cases hn
    exact increment_shape ih hn
  | returned _ hn ih => rw [(postIncrement_cases hn).2 _ rfl]; exact ih

namespace KeyRangeIterator

variable {a b : KeyRangeIterator}

theorem equal_exhausted (ha : a.Exhausted) (hb : b.Exhausted) : a.equal b = some true := by
  unfold equal
  rw [if_pos ⟨hb, ha⟩]

theorem equal_bad (h : a.Bad ∨ b.Bad) : a.equal b = some false := by
  unfold equal
  rcases h with h | h
  · rw [if_neg (by rw [h.1]; simp), if_neg (by simp [h.2])]
  · rw [if_neg (by rw [h.1]; simp), if_neg (by simp [h.2])]

theorem Shape.on_key (hs : a.Shape) (h : a.Live) :
    ∃ keys key, a.keys = some keys ∧ indexed keys a.relpos = some key := by
  cases hs with
  | ending eol _ => rw [h.1] at eol; cases eol
  | spent eol _ _ => rw [h.1] at eol; cases eol
  | bad _ relpos => exact absurd relpos h.2
  | live keys _ held relpos within _ =>
    obtain ⟨key, hk⟩ := Option.isSome_iff_exists.1 (indexed_isSome relpos within)
    exact ⟨keys, key, held, hk⟩

/-- Two live iterators are compared by the keys they stand on. -/
theorem Shape.equal_live (hs : a.Shape) (hs' : b.Shape) (ha : a.Live) (hb : b.Live) :
    a.equal b = some (decide (a.current = b.current)) := by
  obtain ⟨ours, x, hk, hx⟩ := hs.on_key ha
  obtain ⟨theirs, y, hk', hy⟩ := hs'.on_key hb
  have hd : (y == x) = decide (x = y) := by
    rw [Bool.eq_iff_iff, beq_iff_eq, decide_eq_true_iff]
    exact eq_comm
  unfold equal current
  rw [if_neg (by simp [ha.1]), if_pos ⟨hb.2, ha.2⟩, hk, hk']
  simp [hx, hy, hd]

/-- An iterator whose end has no key list equals no live one. -/
theorem equal_unlisted (ha : a.Live) (hk : b.keys = none) :
    a.equal b = some false ∧ b.equal a = some false := by
  constructor
  · unfold equal
    rw [if_neg (by simp [ha.1]), hk]
    cases a.keys <;> simp
  · unfold equal
    rw [if_neg (by simp [ha.1]), hk]
    cases a.keys <;> simp

/-- A live iterator compared with one whose end is an empty list reads outside
the list. -/
theorem Shape.equal_spent (hs : a.Shape) (hs' : b.Shape) (ha : a.Live) (hb : b.Exhausted)
    (hk : b.keys ≠ none) : a.equal b = none ∧ b.equal a = none := by
  obtain ⟨keys, key, held, hx⟩ := hs.on_key ha
  cases hs' with
  | ending _ keys => exact absurd keys hk
  | live keys eol _ _ _ _ => rw [Exhausted, eol] at hb; cases hb
  | bad eol _ => rw [Exhausted, eol] at hb; cases hb
  | spent eol spent relpos =>
    have hr : b.relpos ≠ -1 := by omega
    unfold equal
    rw [if_neg (by simp [ha.1]), if_pos ⟨hr, ha.2⟩, if_neg (by simp [ha.1]), if_pos ⟨ha.2, hr⟩,
      spent, held]
    simp [indexed_nil, hx]

theorem trichotomy (a : KeyRangeIterator) : a.Exhausted ∨ a.Live ∨ a.Bad := by
  unfold Exhausted Live Bad
  cases a.eol
  · rcases eq_or_ne a.relpos (-1) with h | h
    · exact .inr (.inr ⟨rfl, h⟩)
    · exact .inr (.inl ⟨rfl, h⟩)
  · exact .inl rfl

theorem Live.not_exhausted (h : a.Live) : ¬ a.Exhausted := by
  unfold Exhausted
  rw [h.1]
  exact Bool.false_ne_true

end KeyRangeIterator

/-- `==` is what it should be on the iterators of `S`. -/
structure Lawful (S : Set KeyRangeIterator) : Prop where
  inBounds : ∀ a ∈ S, ∀ b ∈ S, (a.equal b).isSome = true
  refl : ∀ a ∈ S, ¬ a.Bad → a.equal a = some true
  symm : ∀ a ∈ S, ∀ b ∈ S, ¬ a.Bad → ¬ b.Bad → a.equal b = some true → b.equal a = some true
  trans : ∀ a ∈ S, ∀ b ∈ S, ∀ c ∈ S, ¬ a.Bad → ¬ b.Bad → ¬ c.Bad →
    a.equal b = some true → b.equal c = some true → a.equal c = some true
  exhausted : ∀ a ∈ S, a.Exhausted → ∀ b ∈ S, (a.equal b = some true ↔ b.Exhausted)
  live : ∀ a ∈ S, ∀ b ∈ S, a.Live → b.Live → (a.equal b = some true ↔ a.current = b.current)

section
variable {S : Set KeyRangeIterator} (hS : ∀ a ∈ S, Reachable a)
  (hn : ∀ a ∈ S, ∀ b ∈ S, a.Live → b.Exhausted → b.keys = none)
include hS hn

/-- Where no live iterator meets an empty list, `==` is decided by the states
and the keys of the two. -/
theorem equal_of_unlisted {a b : KeyRangeIterator} (ha : a ∈ S) (hb : b ∈ S) :
    a.Exhausted ∧ b.Exhausted ∧ a.equal b = some true ∨
    a.Live ∧ b.Live ∧ a.equal b = some (decide (a.current = b.current)) ∨
    ¬ (a.Exhausted ∧ b.Exhausted) ∧ ¬ (a.Live ∧ b.Live) ∧ a.equal b = some false := by
  have hbad : ∀ c : KeyRangeIterator, c.Bad → ¬ c.Exhausted ∧ ¬ c.Live := fun c h =>
    ⟨by unfold Exhausted; rw [h.1]; exact Bool.false_ne_true, fun hl => hl.2 h.2⟩
  rcases a.trichotomy with ea | la | ba
  · rcases b.trichotomy with eb | lb | bb
    · exact .inl ⟨ea, eb, equal_exhausted ea eb⟩
    · refine .inr (.inr ⟨fun h => lb.not_exhausted h.2, fun h => h.1.not_exhausted ea, ?_⟩)
      exact (equal_unlisted lb (hn b hb a ha lb ea)).2
    · exact .inr (.inr ⟨fun h => (hbad b bb).1 h.2, fun h => (hbad b bb).2 h.2, equal_bad (.inr bb)⟩)
  · rcases b.trichotomy with eb | lb | bb
    · refine .inr (.inr ⟨fun h => la.not_exhausted h.1, fun h => h.2.not_exhausted eb, ?_⟩)
      exact (equal_unlisted la (hn a ha b hb la eb)).1
    · exact .inr (.inl ⟨la, lb, (hS a ha).shape.equal_live (hS b hb).shape la lb⟩)
    · exact .inr (.inr ⟨fun h => (hbad b bb).1 h.2, fun h => (hbad b bb).2 h.2, equal_bad (.inr bb)⟩)
  · exact .inr (.inr ⟨fun h => (hbad a ba).1 h.1, fun h => (hbad a ba).2 h.1, equal_bad (.inl ba)⟩)

/-- There `==` is true of two exhausted iterators and of two live ones on one
key, and false otherwise. -/
theorem equal_iff {a b : KeyRangeIterator} (ha : a ∈ S) (hb : b ∈ S) :
    a.equal b = some true ↔
      a.Exhausted ∧ b.Exhausted ∨ a.Live ∧ b.Live ∧ a.current = b.current := by
  rcases equal_of_unlisted hS hn ha hb with ⟨ea, eb, he⟩ | ⟨la, lb, he⟩ | ⟨ne, nl, he⟩
  · exact ⟨fun _ => .inl ⟨ea, eb⟩, fun _ => he⟩
  · rw [he, Option.some_inj, decide_eq_true_iff]
    refine ⟨fun h => .inr ⟨la, lb, h⟩, ?_⟩
    rintro (⟨ea, -⟩ | ⟨-, -, h⟩)
    · exact absurd ea la.not_exhausted
    · exact h
  · rw [he]
    refine ⟨fun h => by simp at h, ?_⟩
    rintro (h | ⟨la, lb, -⟩)
    · exact absurd h ne
    · exact absurd ⟨la, lb⟩ nl

end

/-- **When `==` is lawful.** On iterators that a program can hold, comparing
any two stays inside their lists, and `==` is the equivalence it should be, if
and only if there is no live iterator together with one that came to its end
with a key list. -/
theorem equality_iff (S : Set KeyRangeIterator) (hS : ∀ a ∈ S, Reachable a) :
    Lawful S ↔ ∀ a ∈ S, ∀ b ∈ S, a.Live → b.Exhausted → b.keys = none := by
  constructor
  · intro h a ha b hb la eb
    by_contra hk
    have hin := h.inBounds a ha b hb
    rw [((hS a ha).shape.equal_spent (hS b hb).shape la eb hk).1] at hin
    cases hin
  · intro hn
    have hiff := fun {a b} => equal_iff hS hn (a := a) (b := b)
    refine ⟨fun a ha b hb => ?_, fun a ha na => ?_, fun a ha b hb _ _ h => ?_,
      fun a ha b hb c hc _ _ _ h h' => ?_, fun a ha ea b hb => ?_, fun a ha b hb la lb => ?_⟩
    · rcases equal_of_unlisted hS hn ha hb with ⟨-, -, he⟩ | ⟨-, -, he⟩ | ⟨-, -, he⟩ <;> rw [he] <;> rfl
    · rw [hiff ha ha]
      rcases a.trichotomy with ea | la | ba
      · exact .inl ⟨ea, ea⟩
      · exact .inr ⟨la, la, rfl⟩
      · exact absurd ba na
    · rw [hiff hb ha]
      rcases (hiff ha hb).1 h with ⟨ea, eb⟩ | ⟨la, lb, hk⟩
      · exact .inl ⟨eb, ea⟩
      · exact .inr ⟨lb, la, hk.symm⟩
    · rw [hiff ha hc]
      rcases (hiff ha hb).1 h with ⟨ea, eb⟩ | ⟨la, lb, hk⟩ <;>
        rcases (hiff hb hc).1 h' with ⟨eb', ec⟩ | ⟨lb', lc, hk'⟩
      · exact .inl ⟨ea, ec⟩
      · exact absurd eb lb'.not_exhausted
      · exact absurd eb' lb.not_exhausted
      · exact .inr ⟨la, lc, hk.trans hk'⟩
    · rw [hiff ha hb]
      refine ⟨?_, fun eb => .inl ⟨ea, eb⟩⟩
      rintro (⟨-, eb⟩ | ⟨la, -, -⟩)
      · exact eb
      · exact absurd ea la.not_exhausted
    · rw [hiff ha hb]
      refine ⟨?_, fun hk => .inr ⟨la, lb, hk⟩⟩
      rintro (⟨ea, -⟩ | ⟨-, -, hk⟩)
      · exact absurd ea la.not_exhausted
      · exact hk

/-- A drive whose only key is `"a"`, and the end of its range. -/
theorem equality_iff_end :
    ∃ it, KeyRangeIterator.create (fun _ _ => ⟨⟨.ok, "", 0⟩, some [[97]]⟩) 0 10 [97] true [98] true =
        some (.ok it) ∧
      Lawful {it, keyRangeEnd} := by
  refine ⟨_, rfl, (equality_iff _ ?_).2 ?_⟩
  · rintro a (rfl | rfl)
    · exact @Reachable.create (fun _ _ => ⟨⟨.ok, "", 0⟩, some [[97]]⟩) 0 10 [97] [98] true true _ rfl
    · exact .ending
  · rintro a (rfl | rfl) b (rfl | rfl) la eb
    · exact absurd eb la.not_exhausted
    · rfl
    · exact absurd la (by simp [Live, keyRangeEnd])
    · rfl

/-- The same drive: the iterator on `"a"`, and a copy of it incremented to its
end, cannot be compared. -/
theorem spent_equality :
    ∃ live spent,
      KeyRangeIterator.create (fun _ _ => ⟨⟨.ok, "", 0⟩, some [[97]]⟩) 0 10 [97] true [98] true =
        some (.ok live) ∧
      live.copy.increment (fun _ _ => ⟨⟨.ok, "", 0⟩, some []⟩) = some (none, spent) ∧
      live.equal spent = none ∧ spent.equal live = none ∧ ¬ Lawful {it | Reachable it} := by
  refine ⟨_, _, rfl, rfl, by decide, by decide, fun h => ?_⟩
  have hl := @Reachable.create (fun _ _ => ⟨⟨.ok, "", 0⟩, some [[97]]⟩) 0 10 [97] [98] true true _ rfl
  have hs := @Reachable.increment _ _ (fun _ _ => ⟨⟨.ok, "", 0⟩, some []⟩) _ hl.copy rfl
  exact absurd (h.inBounds _ hl _ hs) (by decide)

end Kinetic.L3
