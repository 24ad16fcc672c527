import Kinetic.Core.Bytes

/-!
# A nonblocking byte transport

The operating system's side of a connected nonblocking descriptor, as far as
one call of the program can see it: what the next `fstat`, `write` and `read`
calls will answer, the bytes that will have arrived by then, and the bytes the
descriptor has accepted so far. The answers are lists, one answer a call; past
the end of a list `fstat` succeeds and the descriptor is not ready (`EAGAIN`),
so every finite behaviour of the transport is some `Socket`.

`send` accepts at most what it is given and `recv` delivers at most what is
asked for, in stream order: `Gave` and `Took` say so, and are all the rest of
the development uses of the two.
-/
namespace Kinetic.Core

/-- The answer to one `write` or `read` call: a byte count (0 is the end of
the file), or -1 with the given `errno` (`again`: `EAGAIN` or `EWOULDBLOCK`). -/
inductive IoResult where
  | count (n : Nat)
  | intr
  | again
  | error
  deriving DecidableEq, Repr

structure Socket where
  fd : Nat
  fstats : List Bool
  writes : List IoResult
  reads : List IoResult
  incoming : Bytes
  sent : Bytes
  deriving DecidableEq, Repr

namespace Socket

/-- A transport on which nothing has happened yet. -/
def opened (fd : Nat) : Socket := ⟨fd, [], [], [], [], []⟩

/-- `fstat(fd)`: whether it succeeds. -/
def fstat (s : Socket) : Bool × Socket :=
  match s.fstats with
  | [] => (true, s)
  | b :: rest => (b, { s with fstats := rest })

/-- `write(fd, buf)` (or `send`): a prefix of `buf` is accepted. -/
def send (s : Socket) (buf : Bytes) : IoResult × Socket :=
  match s.writes with
  | [] => (.again, s)
  | .count n :: rest =>
    (.count (min n buf.length), { s with writes := rest, sent := s.sent ++ buf.take n })
  | r :: rest => (r, { s with writes := rest })

/-- `read(fd, buf, n)`: the answer and the bytes delivered. Asking for bytes
none of which has arrived yet answers `EAGAIN`. -/
def recv (s : Socket) (n : Nat) : IoResult × Bytes × Socket :=
  match s.reads with
  | [] => (.again, [], s)
  | .count 0 :: rest => (.count 0, [], { s with reads := rest })
  | .count (k + 1) :: rest =>
    if s.incoming = [] then (.again, [], { s with reads := rest })
    else
      let got := s.incoming.take (min (k + 1) n)
      (.count got.length, got,
        { s with reads := rest, incoming := s.incoming.drop (min (k + 1) n) })
  | r :: rest => (r, [], { s with reads := rest })

/-! ## What a call changes -/

/-- `t` is `s` after delivering `got`: the bytes came off the front of the
stream, at the cost of some answer, and only the read side moved. -/
structure Took (s t : Socket) (got : Bytes) : Prop where
  stream : s.incoming = got ++ t.incoming
  reads : t.reads <:+ s.reads
  used : got ≠ [] → t.reads.length < s.reads.length
  frame : t = { s with reads := t.reads, incoming := t.incoming }

/-- `t` is `s` after accepting `out`: the bytes were appended to what had been
accepted and only the write side moved. -/
structure Gave (s t : Socket) (out : Bytes) : Prop where
  sent : t.sent = s.sent ++ out
  writes : t.writes <:+ s.writes
  fstats : t.fstats <:+ s.fstats
  frame : t = { s with fstats := t.fstats, writes := t.writes, sent := t.sent }

theorem Took.refl (s : Socket) : Took s s [] := ⟨rfl, List.suffix_refl _, by simp, rfl⟩

theorem Took.trans {s t u : Socket} {x y : Bytes} (h : Took s t x) (h' : Took t u y) :
    Took s u (x ++ y) := by
  refine ⟨by rw [h.stream, h'.stream, List.append_assoc], h'.reads.trans h.reads, ?_, ?_⟩
  · intro hne
    have := h.reads.length_le
    have := h'.reads.length_le
    by_cases hx : x = []
    · have := h'.used (by rintro rfl; exact hne (by rw [hx]; rfl))
      omega
    · have := h.used hx
      omega
  · rw [h'.frame, h.frame]

theorem Gave.refl (s : Socket) : Gave s s [] :=
  ⟨by simp, List.suffix_refl _, List.suffix_refl _, rfl⟩

theorem Gave.trans {s t u : Socket} {x y : Bytes} (h : Gave s t x) (h' : Gave t u y) :
    Gave s u (x ++ y) := by
  refine ⟨by rw [h'.sent, h.sent, List.append_assoc], h'.writes.trans h.writes,
    h'.fstats.trans h.fstats, ?_⟩
  rw [h'.frame, h.frame]

theorem fstat_gave (s : Socket) : Gave s (s.fstat).2 [] := by
  unfold fstat
  split
  · exact Gave.refl s
  · rename_i b rest h
    exact ⟨by simp, List.suffix_refl _, by rw [h]; exact List.suffix_cons _ _, rfl⟩

/-- A write appends the bytes it reports, in order, and uses up one answer. -/
theorem send_gave (s : Socket) (buf : Bytes) :
    ∃ n, n ≤ buf.length ∧ Gave s (s.send buf).2 (buf.take n) ∧
      (∀ k, (s.send buf).1 = .count k → k = n) ∧
      ((∀ k, (s.send buf).1 ≠ .count k) → n = 0) ∧
      ((s.send buf).1 ≠ .again → (s.send buf).2.writes.length < s.writes.length) := by
  unfold send
  split
  · exact ⟨0, by omega, by simpa using Gave.refl s, by simp, by simp, by simp⟩
  · rename_i n rest h
    refine ⟨min n buf.length, by omega, ⟨?_, by rw [h]; exact List.suffix_cons _ _,
      List.suffix_refl _, rfl⟩, ?_, ?_, by simp [h]⟩
    · rcases Nat.le_total n buf.length with hle | hle
      · rw [Nat.min_eq_left hle]
      · rw [Nat.min_eq_right hle, List.take_length, List.take_of_length_le hle]
    · intro k hk; cases hk; rfl
    · intro h; exact absurd rfl (h _)
  · rename_i r rest hc h
    exact ⟨0, by omega, ⟨by simp, by rw [h]; exact List.suffix_cons _ _, List.suffix_refl _, rfl⟩,
      fun k hk => absurd hk (hc k), fun _ => rfl, by simp [h]⟩

/-- A read takes the bytes it delivers off the front of the stream, and uses
up one answer. -/
theorem recv_took (s : Socket) (n : Nat) :
    Took s (s.recv n).2.2 (s.recv n).2.1 ∧ (s.recv n).2.1.length ≤ n ∧
      (∀ k, (s.recv n).1 = .count k → k = (s.recv n).2.1.length) ∧
      ((∀ k, (s.recv n).1 ≠ .count k) → (s.recv n).2.1 = []) ∧
      ((s.recv n).1 ≠ .again → (s.recv n).2.2.reads.length < s.reads.length) := by
  unfold recv
  split
  · exact ⟨Took.refl s, by simp⟩
  · rename_i rest h
    exact ⟨⟨rfl, by rw [h]; exact List.suffix_cons _ _, by simp, rfl⟩, by simp [h]⟩
  · rename_i k rest h
    have hs : rest <:+ s.reads := by rw [h]; exact List.suffix_cons _ _
    split
    · exact ⟨⟨rfl, hs, by simp, rfl⟩, by simp⟩
    · refine ⟨⟨by simp, hs, by simp [h], rfl⟩, ?_, ?_, ?_, by simp [h]⟩
      · rw [List.length_take]; omega
      · intro j hj; cases hj; rfl
      · intro h; exact absurd rfl (h _)
  · rename_i r rest h0 h1 h
    refine ⟨⟨rfl, by rw [h]; exact List.suffix_cons _ _, by simp, rfl⟩, by simp, ?_, by simp,
      by simp [h]⟩
    rintro (_ | k) hk
    · exact absurd hk h0
    · exact absurd hk (h1 k)

/-! ## Transports that only fragment -/

/-- The answer is a positive count, an interruption or "not ready". -/
def Fragment : IoResult → Prop
  | .count n => 0 < n
  | .intr => True
  | .again => True
  | .error => False

/-- Every read delivers a piece of the stream or has to be tried again. -/
def ReadsFragment (s : Socket) : Prop := ∀ r ∈ s.reads, Fragment r

theorem Took.readsFragment {s t : Socket} {x : Bytes} (h : Took s t x) (hs : s.ReadsFragment) :
    t.ReadsFragment := fun r hr => hs r (h.reads.subset hr)

theorem recv_fragment {s : Socket} (hs : s.ReadsFragment) {n : Nat} (hn : 0 < n) :
    (s.recv n).1 ≠ .error ∧ (s.recv n).1 ≠ .count 0 := by
  unfold recv
  split
  · simp
  · rename_i rest h
    have : Fragment (.count 0) := hs _ (by rw [h]; exact List.mem_cons_self)
    exact absurd this (by simp [Fragment])
  · rename_i k rest h
    split
    · simp
    · rename_i hne
      have := List.length_pos_iff.2 hne
      refine ⟨by simp, ?_⟩
      simp only [ne_eq, IoResult.count.injEq, List.length_take]
      omega
  · rename_i r rest h0 h1 h
    have hf : Fragment r := hs _ (by rw [h]; exact List.mem_cons_self)
    refine ⟨?_, h0⟩
    rintro rfl; exact hf

/-- Every read hands over what it can or is interrupted, and `n` bytes would
be handed over if they were there. -/
structure Eager (reads : List IoResult) (n : Nat) : Prop where
  ready : ∀ r ∈ reads, r = .intr ∨ ∃ k, r = .count (k + 1)
  enough : n ≤ reads.countP (· ≠ .intr)

theorem Eager.readsFragment {s : Socket} {n : Nat} (h : Eager s.reads n) : s.ReadsFragment := by
  intro r hr
  obtain rfl | ⟨k, rfl⟩ := h.ready r hr
  · exact trivial
  · exact Nat.succ_pos k

theorem Eager.bytewise {m n : Nat} (h : m ≤ n) : Eager (List.replicate n (.count 1)) m where
  ready := fun _ hr => .inr ⟨0, List.eq_of_mem_replicate hr⟩
  enough := by simpa [List.countP_replicate] using h

theorem Eager.recv {s : Socket} {n m : Nat} (h : Eager s.reads n) (hn : 0 < n) (hm : 0 < m) :
    ((s.recv m).1 = .again → (s.recv m).2.2.incoming = []) ∧
    ((s.recv m).1 ≠ .error ∧ (s.recv m).1 ≠ .count 0) ∧
    ((s.recv m).1 ≠ .again → Eager (s.recv m).2.2.reads (n - (s.recv m).2.1.length)) := by
  obtain ⟨hr, he⟩ := h
  unfold Socket.recv
  split
  · rename_i h; rw [h] at he; simp at he; omega
  · rename_i rest h
    have := hr (.count 0) (by rw [h]; exact List.mem_cons_self)
    simp at this
  · rename_i k rest h
    rw [h] at hr he
    rw [List.countP_cons_of_pos (by simp)] at he
    split
    · rename_i hi; simp [hi]
    · rename_i hi
      have := List.length_pos_iff.2 hi
      refine ⟨by simp, ⟨by simp, ?_⟩, fun _ => ⟨fun r h => hr r (List.mem_cons_of_mem _ h), ?_⟩⟩
      · simp only [ne_eq, IoResult.count.injEq, List.length_take]; omega
      · simp only [List.length_take]; omega
  · rename_i r rest h0 h1 h
    rw [h] at hr he
    obtain rfl | ⟨k, rfl⟩ := hr r List.mem_cons_self
    · rw [List.countP_cons_of_neg (by simp)] at he
      refine ⟨by simp, by simp, fun _ => ⟨fun r h => hr r (List.mem_cons_of_mem _ h), ?_⟩⟩
      simpa using he
    · exact absurd rfl (h1 k)

/-! ## Transports that have ended -/

/-- The end of the file, or an error. -/
def Broken (r : IoResult) : Prop := r = .count 0 ∨ r = .error

/-- No bytes come with the answer. -/
def Silent (r : IoResult) : Prop := ∀ k, r ≠ .count (k + 1)

/-- A transport that has reported its end or an error delivers nothing any more. -/
def Sticky (answers : List IoResult) : Prop := answers.Pairwise fun r r' => Broken r → Silent r'

theorem Sticky.after {used later : List IoResult} {r : IoResult} (h : Sticky (used ++ later))
    (hr : r ∈ used) (hb : Broken r) : ∀ r' ∈ later, Silent r' :=
  fun r' hr' => (List.pairwise_append.1 h).2.2 r hr r' hr' hb

theorem recv_silent {s : Socket} (h : ∀ r ∈ s.reads, Silent r) (n : Nat) :
    ∀ k, (s.recv n).1 ≠ .count (k + 1) := by
  unfold recv
  split
  · simp
  · simp
  · rename_i k rest hr
    exact absurd rfl (h _ (by rw [hr]; exact List.mem_cons_self) k)
  · rename_i r rest h0 h1 hr
    exact h1

theorem recv_broken {s : Socket} {n : Nat} (hn : 0 < n) (h : Broken (s.recv n).1) :
    ((s.recv n).1 :: (s.recv n).2.2.reads) <:+ s.reads := by
  unfold recv at h ⊢
  split at h
  · rcases h with h | h <;> cases h
  · rename_i rest hr
    simp [hr]
  · rename_i k rest hr
    split at h
    · rcases h with h | h <;> cases h
    · rename_i hne
      have := List.length_pos_iff.2 hne
      rcases h with h | h
      · have hz : (s.incoming.take (min (k + 1) n)).length = 0 := IoResult.count.inj h
        rw [List.length_take] at hz
        omega
      · cases h
  · rename_i r rest h0 h1 hr
    simp [hr]

/-- The transport takes at least a byte a call, for `n` calls. -/
structure Willing (s : Socket) (n : Nat) : Prop where
  fstats : s.fstats = []
  ready : ∀ r ∈ s.writes, ∃ m, r = .count (m + 1)
  enough : n ≤ s.writes.length

theorem Willing.bytewise {s : Socket} {m n : Nat} (hf : s.fstats = [])
    (hw : s.writes = List.replicate n (.count 1)) (h : m ≤ n) : s.Willing m where
  fstats := hf
  ready := fun r hr => ⟨0, List.eq_of_mem_replicate (hw ▸ hr)⟩
  enough := by rwa [hw, List.length_replicate]

theorem Willing.mono {s : Socket} {m n : Nat} (h : s.Willing n) (hle : m ≤ n) : s.Willing m :=
  ⟨h.fstats, h.ready, Nat.le_trans hle h.enough⟩

theorem Willing.fstat {s : Socket} {n : Nat} (h : s.Willing n) : s.fstat = (true, s) := by
  unfold Socket.fstat
  rw [h.fstats]

theorem Willing.send {s : Socket} {n : Nat} (h : s.Willing (n + 1)) {buf : Bytes} (hb : buf ≠ []) :
    ∃ j t, s.send buf = (.count (j + 1), t) ∧ j + 1 ≤ buf.length ∧ t.Willing n ∧
      t.writes.length < s.writes.length := by
  obtain ⟨hf, hr, he⟩ := h
  have hpos := List.length_pos_iff.2 hb
  match hw : s.writes with
  | [] => rw [hw] at he; simp at he
  | r :: rest =>
    rw [hw] at hr he
    obtain ⟨m, rfl⟩ := hr r List.mem_cons_self
    obtain ⟨j, hj⟩ := Nat.exists_eq_add_one.2 (show 0 < min (m + 1) buf.length by omega)
    refine ⟨j, { s with writes := rest, sent := s.sent ++ buf.take (m + 1) }, ?_, by omega,
      ⟨hf, fun r hr' => hr r (List.mem_cons_of_mem _ hr'), by simpa using he⟩, by simp⟩
    rw [Socket.send, hw, ← hj]

end Socket
end Kinetic.Core
