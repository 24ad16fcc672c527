import Kinetic.Core.Bytes
import Mathlib.Algebra.GroupWithZero.Nat
import Mathlib.Data.Stream.Init

/-!
# A descriptor with endless answers

The system's side of a connected descriptor for a caller that does not give up:
the results that its calls will have, one a call and never exhausted, the bytes
the peer sends, and those it has been sent. A result is what the system makes of
the request: a count stands for as many bytes as were asked for, up to itself and
to what one call transfers at most, so every sequence of results that the
requests allow is that of some stream.

`worth`, `retries` and `fatal` are all that a caller can go by.
-/
namespace Kinetic.Core

inductive Errno where
  | eintr
  | eagain
  | ewouldblock
  | other (code : Nat)
  deriving DecidableEq, Repr

/-- What one `read` or `write` returns: a byte count (0 is the end of the file),
or -1 with `errno`. -/
inductive SysResult where
  | count (n : Nat)
  | errno (e : Errno)
  deriving DecidableEq, Repr

/-- The most that one `read` or `write` transfers: 0x7ffff000. -/
def maxTransfer : Nat := 2147479552

namespace SysResult

/-- The bytes that the result stands for when enough are asked for. -/
def worth : SysResult → Nat
  | .count k => min k maxTransfer
  | .errno _ => 0

/-- The descriptor was not ready. -/
def retry : SysResult → Bool
  | .errno .eagain => true
  | .errno .ewouldblock => true
  | _ => false

/-- The end of the file, or an error that retrying does not help. -/
def fatal : SysResult → Bool
  | .count 0 => true
  | .errno (.other _) => true
  | _ => false

/-- The result as the system returns it for a request of `n` bytes. -/
def upTo (n : Nat) : SysResult → SysResult
  | .count k => .count (min (min k maxTransfer) n)
  | r => r

end SysResult

def worth (rs : List SysResult) : Nat := (rs.map SysResult.worth).sum

def retries (rs : List SysResult) : Nat := rs.countP SysResult.retry

@[simp] theorem worth_nil : worth [] = 0 := rfl
@[simp] theorem worth_cons (r : SysResult) (rs : List SysResult) :
    worth (r :: rs) = r.worth + worth rs := rfl
@[simp] theorem worth_append (rs rs' : List SysResult) :
    worth (rs ++ rs') = worth rs + worth rs' := by simp [worth]

@[simp] theorem retries_nil : retries [] = 0 := rfl
@[simp] theorem retries_cons (r : SysResult) (rs : List SysResult) :
    retries (r :: rs) = r.retry.toNat + retries rs := by
  cases h : r.retry <;> simp [retries, h, Nat.add_comm]
@[simp] theorem retries_append (rs rs' : List SysResult) :
    retries (rs ++ rs') = retries rs + retries rs' := by simp [retries]

theorem worth_replicate (m : Nat) (r : SysResult) : worth (List.replicate m r) = m * r.worth := by
  simp [worth]

theorem retries_replicate {r : SysResult} (h : r.retry = false) (m : Nat) :
    retries (List.replicate m r) = 0 := by
  simp [retries, List.countP_replicate, h]

theorem SysResult.of_retry {r : SysResult} (h : r.retry = true) : r.worth = 0 ∧ r.fatal = false := by
  rcases r with k | (_ | _ | _ | e)
  · cases h
  · cases h
  · exact ⟨rfl, rfl⟩
  · exact ⟨rfl, rfl⟩
  · cases h

theorem SysResult.counts {r : SysResult} (hf : r.fatal = false) (hi : r ≠ .errno .eintr) :
    1 ≤ r.worth + r.retry.toNat := by
  rcases r with (_ | k) | (_ | _ | _ | e)
  · cases hf
  · have hT : 0 < maxTransfer := by decide
    simp only [worth, retry]
    omega
  · exact absurd rfl hi
  · decide
  · decide
  · cases hf

theorem countP_le_worth {rs : List SysResult} (h : ∀ r ∈ rs, r.fatal = false) :
    rs.countP (· ≠ .errno .eintr) ≤ worth rs + retries rs := by
  induction rs with
  | nil => exact Nat.le_refl 0
  | cons r rs ih =>
    have hrs := ih fun r hr => h r (List.mem_cons_of_mem _ hr)
    rw [worth_cons, retries_cons]
    by_cases hi : r = .errno .eintr
    · rw [List.countP_cons_of_neg (by simp [hi])]
      omega
    · have := SysResult.counts (h r List.mem_cons_self) hi
      rw [List.countP_cons_of_pos (by simp [hi])]
      omega

/-! ## Streams -/

section
variable {α : Type*}

theorem take_add (s : Stream' α) (m k : Nat) : s.take (m + k) = s.take m ++ (s.drop m).take k := by
  induction k with
  | zero => simp
  | succ k ih =>
    rw [← Nat.add_assoc, Stream'.take_succ', ih, Stream'.take_succ', Stream'.get_drop,
      List.append_assoc]

theorem forall_take_succ {s : Stream' α} {p : α → Prop} {m : Nat} :
    (∀ a ∈ s.take (m + 1), p a) ↔ (∀ a ∈ s.take m, p a) ∧ p (s.get m) := by
  rw [Stream'.take_succ', List.forall_mem_append, List.forall_mem_singleton]

theorem take_eq_replicate {s : Stream' α} {a : α} (h : ∀ i, s.get i = a) (m : Nat) :
    s.take m = List.replicate m a := by
  induction m with
  | zero => rfl
  | succ m ih => rw [Stream'.take_succ', ih, h, List.replicate_succ']

theorem exists_le_countP_take {s : Stream' α} {p : α → Bool}
    (h : ∀ i, ∃ j, i ≤ j ∧ p (s.get j) = true) (c : Nat) : ∃ m, c ≤ (s.take m).countP p := by
  induction c with
  | zero => exact ⟨0, Nat.zero_le _⟩
  | succ c ih =>
    obtain ⟨m, hm⟩ := ih
    obtain ⟨j, hj, hp⟩ := h m
    refine ⟨j + 1, ?_⟩
    obtain ⟨d, rfl⟩ := Nat.exists_eq_add_of_le hj
    rw [Stream'.take_succ', List.countP_append, take_add, List.countP_append, List.countP_singleton,
      if_pos hp]
    omega

end

theorem worth_take_succ (s : Stream' SysResult) (m : Nat) :
    worth (s.take (m + 1)) = worth (s.take m) + (s.get m).worth := by
  rw [Stream'.take_succ', worth_append, worth_cons, worth_nil, Nat.add_zero]

theorem retries_take_succ (s : Stream' SysResult) (m : Nat) :
    retries (s.take (m + 1)) = retries (s.take m) + (s.get m).retry.toNat := by
  rw [Stream'.take_succ', retries_append, retries_cons, retries_nil, Nat.add_zero]

structure Descriptor where
  answers : Stream' SysResult
  incoming : Stream' UInt8
  sent : Bytes
  /-- Where each call's buffer began and how many bytes it asked for. -/
  asked : List (Nat × Nat)

namespace Descriptor

/-- `read(fd, buf + offset, n)`: the result and the bytes delivered. -/
def read (fd : Descriptor) (offset n : Nat) : SysResult × Bytes × Descriptor :=
  let got := min fd.answers.head.worth n
  (fd.answers.head.upTo n, fd.incoming.take got,
    { fd with
      answers := fd.answers.tail
      incoming := fd.incoming.drop got
      asked := fd.asked ++ [(offset, n)] })

/-- `write(fd, buf + offset, n)`: the result. -/
def write (fd : Descriptor) (buf : Bytes) (offset n : Nat) : SysResult × Descriptor :=
  (fd.answers.head.upTo n,
    { fd with
      answers := fd.answers.tail
      sent := fd.sent ++ (buf.drop offset).take (min fd.answers.head.worth n)
      asked := fd.asked ++ [(offset, n)] })

end Descriptor
end Kinetic.Core
