import Kinetic.Core.Socket

/-!
# `NonblockingStringReader` and `NonblockingStringWriter`

The two resumable loops under everything else: read exactly `size` bytes,
write exactly the bytes of `s`, keeping the progress made when the descriptor
is not ready. Each turn of a loop uses up one answer of the transport, so one
more turn than there are answers is all the fuel a call can need
(`readLoop_fuel`, `writeLoop_fuel`).
-/
open Kinetic.Core Kinetic.Core.Socket

namespace Kinetic.L1

/-- mirrors src/main/nonblocking_string.h:35-39 -/
inductive NonblockingStringStatus where
  | inProgress
  | done
  | failed
  deriving DecidableEq, Repr

/-- mirrors src/main/nonblocking_string.h:41-54, `buf` being the first
`bytes_read_` bytes of `buf_`. The string the reader stores its result in
belongs to its owner, which reads it off `buf`. -/
structure NonblockingStringReader where
  size : Nat
  buf : Bytes := []
  deriving DecidableEq, Repr

/-- mirrors src/main/nonblocking_string.h:56-66 -/
structure NonblockingStringWriter where
  s : Bytes
  bytesWritten : Nat := 0
  deriving DecidableEq, Repr

namespace NonblockingStringReader

def readLoop : Nat → NonblockingStringReader → Socket →
    NonblockingStringStatus × NonblockingStringReader × Socket
  | 0, r, k => (.inProgress, r, k)
  | fuel + 1, r, k =>
    if r.buf.length < r.size then
      match k.recv (r.size - r.buf.length) with
      | (.count 0, _, k') => (.failed, r, k')
      | (.count (_ + 1), got, k') => readLoop fuel { r with buf := r.buf ++ got } k'
      | (.intr, _, k') => readLoop fuel r k'
      | (.again, _, k') => (.inProgress, r, k')
      | (.error, _, k') => (.failed, r, k')
    else (.done, r, k)

/-- mirrors src/main/nonblocking_string.cc:41-70 -/
def read (r : NonblockingStringReader) (k : Socket) :
    NonblockingStringStatus × NonblockingStringReader × Socket :=
  r.readLoop (k.reads.length + 1) k

/-- The reader does not hold more than was asked for. -/
def Ok (r : NonblockingStringReader) : Prop := r.buf.length ≤ r.size

/-- What a call of `Read` does, on any transport: `got` moves from the stream
to the buffer, and the call is done exactly when the buffer is full. -/
structure Reads (r : NonblockingStringReader) (k : Socket) (st : NonblockingStringStatus)
    (r' : NonblockingStringReader) (k' : Socket) (got : Bytes) : Prop where
  took : Took k k' got
  buf : r'.buf = r.buf ++ got
  size : r'.size = r.size
  ok : r'.Ok
  full : st = .done ↔ r'.buf.length = r'.size

theorem Reads.after {r r₁ r₂ : NonblockingStringReader} {k k₁ k₂ : Socket}
    {st : NonblockingStringStatus} {x y : Bytes} (h : Reads r₁ k₁ st r₂ k₂ y)
    (ht : Took k k₁ x) (hb : r₁.buf = r.buf ++ x) (hs : r₁.size = r.size) :
    Reads r k st r₂ k₂ (x ++ y) :=
  ⟨ht.trans h.took, by rw [h.buf, hb, List.append_assoc], h.size.trans hs, h.ok, h.full⟩

theorem readLoop_spec (fuel : Nat) (r : NonblockingStringReader) (k : Socket) (hr : r.Ok)
    (hf : k.reads.length < fuel) :
    ∃ got, Reads r k (r.readLoop fuel k).1 (r.readLoop fuel k).2.1 (r.readLoop fuel k).2.2 got := by
  induction fuel generalizing r k with
  | zero => omega
  | succ fuel ih =>
    unfold readLoop
    split
    · rename_i hlt
      obtain ⟨ht, hle, hk, hn, hdec⟩ := k.recv_took (r.size - r.buf.length)
      split
      all_goals rename_i he; simp only [he] at ht hle hk hn hdec
      · rw [List.length_eq_zero_iff.1 (hk 0 rfl).symm] at ht
        exact ⟨[], ht, by simp, rfl, hr, by simp; omega⟩
      · rename_i got k'
        have hok : Ok { r with buf := r.buf ++ got } := by
          simp only [Ok, List.length_append]; omega
        obtain ⟨y, hy⟩ := ih _ k' hok (by have := hdec (by simp); omega)
        exact ⟨got ++ y, hy.after ht rfl rfl⟩
      · rename_i k'
        rw [hn (by simp)] at ht
        obtain ⟨y, hy⟩ := ih r k' hr (by have := hdec (by simp); omega)
        exact ⟨y, hy.after ht (by simp) rfl⟩
      · rw [hn (by simp)] at ht
        exact ⟨[], ht, by simp, rfl, hr, by simp; omega⟩
      · rw [hn (by simp)] at ht
        exact ⟨[], ht, by simp, rfl, hr, by simp; omega⟩
    · exact ⟨[], Took.refl k, by simp, rfl, hr, by simp only [true_iff]; unfold Ok at hr; omega⟩

theorem read_spec (r : NonblockingStringReader) (k : Socket) (hr : r.Ok) :
    ∃ got, Reads r k (r.read k).1 (r.read k).2.1 (r.read k).2.2 got :=
  readLoop_spec _ r k hr (Nat.lt_succ_self _)

theorem readLoop_took (fuel : Nat) (r : NonblockingStringReader) (k : Socket) :
    ∃ got, Socket.Took k (r.readLoop fuel k).2.2 got := by
  induction fuel generalizing r k with
  | zero => exact ⟨[], .refl k⟩
  | succ fuel ih =>
    have hk := (k.recv_took (r.size - r.buf.length)).1
    have hmore : ∀ r' k' got, Socket.Took k k' got →
        ∃ got, Socket.Took k (NonblockingStringReader.readLoop fuel r' k').2.2 got := by
      intro r' k' got h
      obtain ⟨more, h'⟩ := ih r' k'
      exact ⟨_, h.trans h'⟩
    unfold readLoop
    split
    · split
      all_goals rename_i he; simp only [he] at hk
      · exact ⟨_, hk⟩
      · exact hmore _ _ _ hk
      · exact hmore _ _ _ hk
      · exact ⟨_, hk⟩
      · exact ⟨_, hk⟩
    · exact ⟨[], .refl k⟩

/-- The loop never stops for lack of fuel. -/
theorem readLoop_fuel (f g : Nat) (r : NonblockingStringReader) (k : Socket)
    (hf : k.reads.length < f) (hg : k.reads.length < g) : r.readLoop f k = r.readLoop g k := by
  induction f generalizing g r k with
  | zero => omega
  | succ f ih =>
    obtain _ | g := g
    · omega
    unfold readLoop
    obtain ⟨-, -, -, -, hdec⟩ := k.recv_took (r.size - r.buf.length)
    split
    · split
      all_goals rename_i he; simp only [he] at hdec
      · rfl
      · rename_i k'
        have := hdec (by simp)
        exact ih _ _ k' (by omega) (by omega)
      · rename_i k'
        have := hdec (by simp)
        exact ih _ _ k' (by omega) (by omega)
      · rfl
      · rfl
    · rfl

theorem readLoop_fragment (fuel : Nat) (r : NonblockingStringReader) (k : Socket)
    (hk : k.ReadsFragment) : (r.readLoop fuel k).1 ≠ .failed := by
  induction fuel generalizing r k with
  | zero => simp [readLoop]
  | succ fuel ih =>
    unfold readLoop
    split
    · rename_i hlt
      obtain ⟨ht, -⟩ := k.recv_took (r.size - r.buf.length)
      have hnf := Socket.recv_fragment hk (n := r.size - r.buf.length) (by omega)
      split
      all_goals rename_i he; simp only [he] at ht hnf
      · exact absurd rfl hnf.2
      · exact ih _ _ (ht.readsFragment hk)
      · exact ih _ _ (ht.readsFragment hk)
      · simp
      · exact absurd rfl hnf.1
    · simp

theorem read_fragment (r : NonblockingStringReader) (k : Socket) (hk : k.ReadsFragment) :
    (r.read k).1 ≠ .failed := readLoop_fragment _ r k hk

/-- A transport that hands over at least one byte a read leaves nothing behind
unless the buffer is full. -/
theorem readLoop_eager (fuel : Nat) (r : NonblockingStringReader) (k : Socket) (n : Nat)
    (hf : k.reads.length < fuel) (hr : r.Ok) (hk : Eager k.reads n) (hn : r.size - r.buf.length ≤ n) :
    ((r.readLoop fuel k).1 = .inProgress → (r.readLoop fuel k).2.2.incoming = []) ∧
    ((r.readLoop fuel k).1 = .done →
      Eager (r.readLoop fuel k).2.2.reads (n - (r.size - r.buf.length))) := by
  induction fuel generalizing r k n with
  | zero => omega
  | succ fuel ih =>
    unfold readLoop
    split
    · rename_i hlt
      obtain ⟨ht, hle, hcount, hnone, hdec⟩ := k.recv_took (r.size - r.buf.length)
      obtain ⟨hag, hc, heg⟩ := Eager.recv hk (m := r.size - r.buf.length) (by omega) (by omega)
      split
      all_goals rename_i he; simp only [he] at ht hle hcount hnone hdec hag hc heg
      · exact absurd rfl hc.2
      · rename_i got k'
        have hok : Ok { r with buf := r.buf ++ got } := by
          simp only [Ok, List.length_append]; omega
        obtain ⟨h1, h2⟩ := ih { r with buf := r.buf ++ got } k' (n - got.length)
          (by have := hdec (by simp); omega) hok (heg (by simp))
          (by simp only [List.length_append]; omega)
        refine ⟨h1, fun hd => ?_⟩
        have := h2 hd
        simp only [List.length_append] at this
        rwa [show n - got.length - (r.size - (r.buf.length + got.length)) =
          n - (r.size - r.buf.length) by omega] at this
      · rw [hnone (by simp)] at heg
        exact ih r _ n (by have := hdec (by simp); omega) hr (by simpa using heg) hn
      · exact ⟨fun _ => hag trivial, by simp⟩
      · exact absurd rfl hc.1
    · rename_i hge
      rw [show r.size - r.buf.length = 0 by omega, Nat.sub_zero]
      exact ⟨by simp, fun _ => hk⟩

theorem read_eager (r : NonblockingStringReader) (k : Socket) (n : Nat) (hr : r.Ok)
    (hk : Eager k.reads n) (hn : r.size - r.buf.length ≤ n) :
    ((r.read k).1 = .inProgress → (r.read k).2.2.incoming = []) ∧
    ((r.read k).1 = .done → Eager (r.read k).2.2.reads (n - (r.size - r.buf.length))) :=
  readLoop_eager _ r k n (Nat.lt_succ_self _) hr hk hn

theorem readLoop_silent (fuel : Nat) (r : NonblockingStringReader) (k : Socket)
    (hk : ∀ a ∈ k.reads, Silent a) : (r.readLoop fuel k).2.1 = r := by
  induction fuel generalizing k with
  | zero => rfl
  | succ fuel ih =>
    have hs := Socket.recv_silent hk (r.size - r.buf.length)
    have ht := (k.recv_took (r.size - r.buf.length)).1.reads
    unfold readLoop
    split
    · split
      all_goals rename_i he; simp only [he] at hs ht
      · rfl
      · exact absurd rfl (hs _)
      · exact ih _ fun a ha => hk a (ht.subset ha)
      · rfl
      · rfl
    · rfl

/-- What fails a call has been an answer, the last that it took. -/
theorem readLoop_broken (fuel : Nat) (r : NonblockingStringReader) (k : Socket)
    (h : (r.readLoop fuel k).1 = .failed) :
    ∃ a, Broken a ∧ (a :: (r.readLoop fuel k).2.2.reads) <:+ k.reads := by
  induction fuel generalizing r k with
  | zero => cases h
  | succ fuel ih =>
    unfold readLoop at h ⊢
    split
    · rename_i hlt
      rw [if_pos hlt] at h
      have hb := k.recv_broken (n := r.size - r.buf.length) (by omega)
      have ht := (k.recv_took (r.size - r.buf.length)).1.reads
      split
      all_goals rename_i he; simp only [he] at h hb ht
      · exact ⟨.count 0, .inl rfl, hb (.inl rfl)⟩
      · obtain ⟨a, ha, hs⟩ := ih _ _ h
        exact ⟨a, ha, hs.trans ht⟩
      · obtain ⟨a, ha, hs⟩ := ih _ _ h
        exact ⟨a, ha, hs.trans ht⟩
      · cases h
      · exact ⟨.error, .inr rfl, hb (.inr rfl)⟩
    · rename_i hlt
      rw [if_neg hlt] at h
      cases h

end NonblockingStringReader

namespace NonblockingStringWriter

/-- The bytes not yet written. -/
def rest (w : NonblockingStringWriter) : Bytes := w.s.drop w.bytesWritten

@[simp] theorem rest_fresh (b : Bytes) : rest { s := b } = b := rfl

def writeLoop : Nat → NonblockingStringWriter → Socket →
    NonblockingStringStatus × NonblockingStringWriter × Socket
  | 0, w, k => (.inProgress, w, k)
  | fuel + 1, w, k =>
    if w.bytesWritten < w.s.length then
      match k.fstat with
      | (false, k') => (.failed, w, k')
      | (true, k') =>
        match k'.send w.rest with
        | (.count 0, k'') => (.failed, w, k'')
        | (.count (n + 1), k'') =>
          writeLoop fuel { w with bytesWritten := w.bytesWritten + (n + 1) } k''
        | (.intr, k'') => writeLoop fuel w k''
        | (.again, k'') => (.inProgress, w, k'')
        | (.error, k'') => (.failed, w, k'')
    else (.done, w, k)

/-- mirrors src/main/nonblocking_string.cc:75-125 -/
def write (w : NonblockingStringWriter) (k : Socket) :
    NonblockingStringStatus × NonblockingStringWriter × Socket :=
  w.writeLoop (k.writes.length + 1) k

/-- What a call of `Write` does, on any transport: `out` moves from the rest
to the transport, and nothing is left when the call is done. -/
structure Writes (w : NonblockingStringWriter) (k : Socket) (st : NonblockingStringStatus)
    (w' : NonblockingStringWriter) (k' : Socket) (out : Bytes) : Prop where
  gave : Gave k k' out
  rest : w.rest = out ++ w'.rest
  full : st = .done → w'.rest = []

theorem Writes.after {w w₁ w₂ : NonblockingStringWriter} {k k₁ k₂ : Socket}
    {st : NonblockingStringStatus} {x y : Bytes} (h : Writes w₁ k₁ st w₂ k₂ y)
    (hg : Gave k k₁ x) (hr : w.rest = x ++ w₁.rest) : Writes w k st w₂ k₂ (x ++ y) :=
  ⟨hg.trans h.gave, by rw [hr, h.rest, List.append_assoc], h.full⟩

theorem Writes.stuck {w : NonblockingStringWriter} {k k' : Socket} {st : NonblockingStringStatus}
    (hg : Gave k k' []) (hst : st ≠ .done) : Writes w k st w k' [] :=
  ⟨hg, rfl, fun h => absurd h hst⟩

theorem writeLoop_spec (fuel : Nat) (w : NonblockingStringWriter) (k : Socket)
    (hf : k.writes.length < fuel) :
    ∃ out, Writes w k (w.writeLoop fuel k).1 (w.writeLoop fuel k).2.1 (w.writeLoop fuel k).2.2
      out := by
  induction fuel generalizing w k with
  | zero => omega
  | succ fuel ih =>
    unfold writeLoop
    split
    · have hgf := k.fstat_gave
      split
      all_goals rename_i k₁ hfs; simp only [hfs] at hgf
      · exact ⟨[], Writes.stuck hgf (by simp)⟩
      obtain ⟨n, hn, hg, hk, hz, hdec⟩ := k₁.send_gave w.rest
      have hle := hgf.writes.length_le
      split
      all_goals rename_i he; simp only [he] at hg hk hz hdec
      · rw [← hk 0 rfl] at hg
        exact ⟨[], Writes.stuck (hgf.trans hg) (by simp)⟩
      · rename_i m k₂
        obtain rfl := hk (m + 1) rfl
        obtain ⟨y, hy⟩ := ih { w with bytesWritten := w.bytesWritten + (m + 1) } k₂
          (by have := hdec (by simp); omega)
        refine ⟨w.rest.take (m + 1) ++ y, hy.after (hgf.trans hg) ?_⟩
        show w.rest = _ ++ w.s.drop (w.bytesWritten + (m + 1))
        rw [← List.drop_drop, ← rest, List.take_append_drop]
      · rename_i k₂
        rw [hz (by simp)] at hg
        obtain ⟨y, hy⟩ := ih w k₂ (by have := hdec (by simp); omega)
        exact ⟨y, hy.after (hgf.trans hg) rfl⟩
      · rw [hz (by simp)] at hg
        exact ⟨[], Writes.stuck (hgf.trans hg) (by simp)⟩
      · rw [hz (by simp)] at hg
        exact ⟨[], Writes.stuck (hgf.trans hg) (by simp)⟩
    · rename_i hge
      have h0 : w.rest = [] := List.drop_eq_nil_of_le (by omega)
      exact ⟨[], Gave.refl k, rfl, fun _ => h0⟩

theorem write_spec (w : NonblockingStringWriter) (k : Socket) :
    ∃ out, Writes w k (w.write k).1 (w.write k).2.1 (w.write k).2.2 out :=
  writeLoop_spec _ w k (Nat.lt_succ_self _)

theorem writeLoop_s (fuel : Nat) (w : NonblockingStringWriter) (k : Socket) :
    (w.writeLoop fuel k).2.1.s = w.s := by
  induction fuel generalizing w k with
  | zero => rfl
  | succ fuel ih =>
    unfold writeLoop
    split
    · split
      · rfl
      split
      · rfl
      · exact ih _ _
      · exact ih _ _
      · rfl
      · rfl
    · rfl

theorem writeLoop_fuel (f g : Nat) (w : NonblockingStringWriter) (k : Socket)
    (hf : k.writes.length < f) (hg : k.writes.length < g) :
    w.writeLoop f k = w.writeLoop g k := by
  induction f generalizing g w k with
  | zero => omega
  | succ f ih =>
    obtain _ | g := g
    · omega
    unfold writeLoop
    split
    · have hgf := k.fstat_gave
      split
      · rfl
      rename_i k₁ hfs
      have hle := hgf.writes.length_le
      simp only [hfs] at hle
      obtain ⟨-, -, -, -, -, hdec⟩ := k₁.send_gave w.rest
      split
      all_goals rename_i he; simp only [he] at hdec
      · rfl
      · rename_i k'
        have := hdec (by simp)
        exact ih _ _ k' (by omega) (by omega)
      · rename_i k'
        have := hdec (by simp)
        exact ih _ _ k' (by omega) (by omega)
      · rfl
      · rfl
    · rfl

/-- A transport that takes at least a byte a call is written to at once. -/
theorem writeLoop_willing (fuel : Nat) (w : NonblockingStringWriter) (k : Socket) {n : Nat}
    (hf : k.writes.length < fuel) (hk : k.Willing n) (hn : w.rest.length ≤ n) :
    ∃ w' k', w.writeLoop fuel k = (.done, w', k') ∧ w'.s.length ≤ w'.bytesWritten ∧
      k'.Willing (n - w.rest.length) := by
  induction fuel generalizing w k n with
  | zero => omega
  | succ fuel ih =>
    have hlen : w.rest.length = w.s.length - w.bytesWritten := List.length_drop
    unfold writeLoop
    by_cases hlt : w.bytesWritten < w.s.length
    · obtain ⟨n, rfl⟩ := Nat.exists_eq_add_one.2 (show 0 < n by omega)
      obtain ⟨j, t, hs, hj, ht, hless⟩ := hk.send (List.length_pos_iff.1 (show 0 < w.rest.length by omega))
      have hlen' : rest { w with bytesWritten := w.bytesWritten + (j + 1) } = w.rest.drop (j + 1) :=
        List.drop_drop.symm
      obtain ⟨w', k', hrun, hfull, hk'⟩ := ih { w with bytesWritten := w.bytesWritten + (j + 1) } t
        (n := n) (by omega) ht (by rw [hlen', List.length_drop]; omega)
      refine ⟨w', k', ?_, hfull, hk'.mono ?_⟩
      · rw [if_pos hlt, hk.fstat]
        dsimp only
        rw [hs]
        exact hrun
      · rw [hlen', List.length_drop]
        omega
    · exact ⟨w, k, by rw [if_neg hlt], by omega, hk.mono (Nat.sub_le _ _)⟩

theorem write_willing {w : NonblockingStringWriter} {k : Socket} {n : Nat} (hk : k.Willing n)
    (hn : w.rest.length ≤ n) :
    ∃ w' k', w.write k = (.done, w', k') ∧ w'.s.length ≤ w'.bytesWritten ∧
      k'.Willing (n - w.rest.length) :=
  writeLoop_willing _ w k (Nat.lt_succ_self _) hk hn

end NonblockingStringWriter
end Kinetic.L1
