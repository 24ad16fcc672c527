import Kinetic.L1Wire.ReaderWriter
import Kinetic.L1Wire.RoundTrip

/-!
# SSL connections

The other branch of the string reader and writer, and `SslByteStream`. OpenSSL
takes the count it is to transfer as an `int`: a positive one it serves as a
descriptor would, up to that count, any other it rejects. The loops hand it what
is missing, a `size_t`.

An `Ssl` is the transport below together with every count handed over so far,
each with the number of bytes that were missing then; `Legal` is what the loops
take for granted of these.
-/
open Kinetic.Core Kinetic.Core.Socket

namespace Kinetic.L1

structure Ssl (κ : Type*) where
  conn : κ
  handed : List (Nat × Int) := []

namespace Ssl

variable {κ ρ : Type*}

/-- `SSL_read` or `SSL_write` with a count: `serve` is what the transport does
with a positive one, `reject` what becomes of another. -/
def call (serve : Nat → κ → ρ × κ) (reject : κ → ρ × κ) (missing : Nat) (count : Int)
    (c : Ssl κ) : ρ × Ssl κ :=
  match if 0 < count then serve count.toNat c.conn else reject c.conn with
  | (r, k) => (r, { conn := k, handed := c.handed ++ [(missing, count)] })

/-- The counts handed over are positive and no more than was missing. -/
def Legal (c : Ssl κ) : Prop := ∀ p ∈ c.handed, 0 < p.2 ∧ p.2 ≤ p.1

variable {serve : Nat → κ → ρ × κ} {reject : κ → ρ × κ} {missing : Nat} {c : Ssl κ}

theorem call_small (hpos : 0 < missing) (hlt : missing < 2 ^ 31) :
    call serve reject missing (narrow missing) c = ((serve missing c.conn).1,
      { conn := (serve missing c.conn).2, handed := c.handed ++ [(missing, (missing : Int))] }) := by
  rw [call, narrow_of_lt hlt, if_pos (by omega), Int.toNat_natCast]

variable (serve reject c) in
theorem call_large (hle : 2 ^ 31 ≤ missing) :
    (∃ m h, m + 2 ^ 31 ≤ missing ∧ call serve reject missing (narrow missing) c =
      ((serve m c.conn).1, { conn := (serve m c.conn).2, handed := h })) ∨
    ∃ h, call serve reject missing (narrow missing) c =
      ((reject c.conn).1, { conn := (reject c.conn).2, handed := h }) := by
  by_cases hp : 0 < narrow missing
  · have hm := narrow_of_le hle hp
    exact .inl ⟨(narrow missing).toNat, _, hm, by rw [call, if_pos hp]⟩
  · exact .inr ⟨_, by rw [call, if_neg hp]⟩

theorem Legal.call (h : c.Legal) (hpos : 0 < missing) (hlt : missing < 2 ^ 31) :
    (call serve reject missing (narrow missing) c).2.Legal := by
  rw [call_small hpos hlt]
  intro p hp
  rcases List.mem_append.1 hp with hp | hp
  · exact h p hp
  · rw [List.mem_singleton.1 hp]
    exact ⟨Int.natCast_pos.2 hpos, Int.le_refl _⟩

end Ssl

def Ssl.Like {κ : Type*} (c : Ssl κ) (k : κ) : Prop := c.conn = k ∧ c.Legal

theorem Ssl.Like.call {κ ρ : Type*} (serve : Nat → κ → ρ × κ) (reject : κ → ρ × κ) {c : Ssl κ} {k : κ}
    {m : Nat} (h : c.Like k) (hpos : 0 < m) (hlt : m < 2 ^ 31) :
    (c.call serve reject m (narrow m)).1 = (serve m k).1 ∧
      (c.call serve reject m (narrow m)).2.Like (serve m k).2 := by
  obtain ⟨rfl, hl⟩ := h
  exact ⟨by rw [call_small hpos hlt], by rw [call_small hpos hlt], hl.call hpos hlt⟩

/-- Call until the answer is not `kInProgress`, the transport moving on before
each call. -/
def untilSettled {τ ρ κ : Type*} (call : ρ → κ → NonblockingStringStatus × ρ × κ)
    (turn : τ → κ → κ) : List τ → ρ → κ → NonblockingStringStatus × ρ × κ
  | [], r, k => (.inProgress, r, k)
  | t :: ts, r, k =>
    match call r (turn t k) with
    | (.inProgress, r', k') => untilSettled call turn ts r' k'
    | (.done, r', k') => (.done, r', k')
    | (.failed, r', k') => (.failed, r', k')

structure Alike {ρ κ κ' : Type*} (R : κ → κ' → Prop) (out : NonblockingStringStatus × ρ × κ)
    (out' : NonblockingStringStatus × ρ × κ') : Prop where
  status : out.1 = out'.1
  state : out.2.1 = out'.2.1
  conn : R out.2.2 out'.2.2

theorem untilSettled_alike {τ ρ κ κ' : Type*} {R : κ → κ' → Prop} {I : ρ → Prop}
    {call : ρ → κ → NonblockingStringStatus × ρ × κ}
    {call' : ρ → κ' → NonblockingStringStatus × ρ × κ'} {turn : τ → κ → κ} {turn' : τ → κ' → κ'}
    (hturn : ∀ t k k', R k k' → R (turn t k) (turn' t k'))
    (hcall : ∀ r k k', I r → R k k' → Alike R (call r k) (call' r k') ∧ I (call' r k').2.1)
    (ts : List τ) {r : ρ} {k : κ} {k' : κ'} (hr : I r) (hk : R k k') :
    Alike R (untilSettled call turn ts r k) (untilSettled call' turn' ts r k') := by
  induction ts generalizing r k k' with
  | nil => exact ⟨rfl, rfl, hk⟩
  | cons t ts ih =>
    obtain ⟨⟨hst, hr', hk'⟩, hI⟩ := hcall r _ _ hr (hturn t k k' hk)
    unfold untilSettled
    generalize call r (turn t k) = out at hst hr' hk' ⊢
    generalize call' r (turn' t k') = out' at hst hr' hk' hI ⊢
    obtain ⟨st, r₁, k₁⟩ := out
    obtain ⟨st', r₁', k₁'⟩ := out'
    obtain rfl : st = st' := hst
    obtain rfl : r₁ = r₁' := hr'
    cases st with
    | inProgress => exact ih hI hk'
    | done => exact ⟨rfl, rfl, hk'⟩
    | failed => exact ⟨rfl, rfl, hk'⟩

/-! ## The string reader -/

def serveRead (n : Nat) (k : Socket) : (IoResult × Bytes) × Socket :=
  match k.recv n with
  | (r, got, k) => ((r, got), k)

/-- A read that is rejected: an error, with the `errno` there happens to be. -/
def rejectRead (k : Socket) : (IoResult × Bytes) × Socket :=
  match k.recv 0 with
  | (.count _, _, k) => ((.error, []), k)
  | (r, _, k) => ((r, []), k)

/-- `SSL_read` on a nonblocking transport, for `missing` bytes: a `size_t` where
an `int` is expected. -/
def sslRead (missing : Nat) (c : Ssl Socket) : (IoResult × Bytes) × Ssl Socket :=
  c.call serveRead rejectRead missing (narrow missing)

theorem Ssl.Like.sslRead {c : Ssl Socket} {k : Socket} {m : Nat} (hpos : 0 < m) (hlt : m < 2 ^ 31)
    (h : c.Like k) : (sslRead m c).1 = (serveRead m k).1 ∧ (sslRead m c).2.Like (serveRead m k).2 := by
  unfold L1.sslRead
  exact h.call serveRead rejectRead hpos hlt

theorem sslRead_large {c : Ssl Socket} {m : Nat} (hle : 2 ^ 31 ≤ m) :
    (sslRead m c).1.2.length + 2 ^ 31 ≤ m := by
  unfold sslRead
  rcases Ssl.call_large serveRead rejectRead c hle with
    ⟨m', h, hm, he⟩ | ⟨h, he⟩
  · rw [he]
    have := (c.conn.recv_took m').2.1
    exact Nat.le_trans (Nat.add_le_add_right this _) hm
  · rw [he]
    have hnone : (rejectRead c.conn).1.2 = [] := by
      unfold rejectRead
      split <;> rfl
    rw [show ((rejectRead c.conn).1, _).1.2 = [] from hnone]
    simpa using hle

namespace NonblockingStringReader

/-- The loop over either call, `call missing` being the one made for `missing` bytes. -/
def readLoopOver {κ : Type*} (call : Nat → κ → (IoResult × Bytes) × κ) :
    Nat → NonblockingStringReader → κ → NonblockingStringStatus × NonblockingStringReader × κ
  | 0, r, k => (.inProgress, r, k)
  | fuel + 1, r, k =>
    if r.buf.length < r.size then
      match call (r.size - r.buf.length) k with
      | ((.count 0, _), k') => (.failed, r, k')
      | ((.count (_ + 1), got), k') => readLoopOver call fuel { r with buf := r.buf ++ got } k'
      | ((.intr, _), k') => readLoopOver call fuel r k'
      | ((.again, _), k') => (.inProgress, r, k')
      | ((.error, _), k') => (.failed, r, k')
    else (.done, r, k)

/-- mirrors src/main/nonblocking_string.cc:41-70, with an SSL connection. -/
def readSsl (r : NonblockingStringReader) (c : Ssl Socket) :
    NonblockingStringStatus × NonblockingStringReader × Ssl Socket :=
  r.readLoopOver sslRead (c.conn.reads.length + 1) c

theorem readLoop_eq (fuel : Nat) (r : NonblockingStringReader) (k : Socket) :
    r.readLoop fuel k = r.readLoopOver serveRead fuel k := by
  induction fuel generalizing r k with
  | zero => rfl
  | succ fuel ih =>
    unfold readLoop readLoopOver serveRead
    split
    · generalize k.recv (r.size - r.buf.length) = out
      obtain ⟨res, got, k'⟩ := out
      rcases res with (_ | n) | _ | _ | _
      · rfl
      · exact ih { r with buf := r.buf ++ got } k'
      · exact ih r k'
      · rfl
      · rfl
    · rfl

/-- Two calls that do the same for up to `r.size` bytes make the same loop. -/
theorem readLoopOver_alike {κ κ' : Type*} {call : Nat → κ → (IoResult × Bytes) × κ}
    {call' : Nat → κ' → (IoResult × Bytes) × κ'} {R : κ → κ' → Prop} (fuel : Nat)
    (r : NonblockingStringReader) (k : κ) (k' : κ')
    (hcall : ∀ m k k', 0 < m → m ≤ r.size → R k k' →
      (call m k).1 = (call' m k').1 ∧ R (call m k).2 (call' m k').2) (hk : R k k') :
    Alike R (r.readLoopOver call fuel k) (r.readLoopOver call' fuel k') := by
  induction fuel generalizing r k k' with
  | zero => exact ⟨rfl, rfl, hk⟩
  | succ fuel ih =>
    unfold readLoopOver
    split
    · obtain ⟨hres, hR⟩ := hcall (r.size - r.buf.length) k k' (by omega) (by omega) hk
      generalize call (r.size - r.buf.length) k = out at hres hR ⊢
      generalize call' (r.size - r.buf.length) k' = out' at hres hR ⊢
      obtain ⟨⟨res, got⟩, k₁⟩ := out
      obtain ⟨res', k₁'⟩ := out'
      obtain rfl : (res, got) = res' := hres
      rcases res with (_ | n) | _ | _ | _
      · exact ⟨rfl, rfl, hR⟩
      · exact ih { r with buf := r.buf ++ got } k₁ k₁' hcall hR
      · exact ih r k₁ k₁' hcall hR
      · exact ⟨rfl, rfl, hR⟩
      · exact ⟨rfl, rfl, hR⟩
    · exact ⟨rfl, rfl, hk⟩

theorem readSsl_small (r : NonblockingStringReader) {c : Ssl Socket} {k : Socket}
    (h : r.size < 2 ^ 31) (hc : c.Like k) : Alike Ssl.Like (r.readSsl c) (r.read k) := by
  unfold readSsl read
  rw [readLoop_eq, hc.1]
  exact readLoopOver_alike _ r c k (fun m c k hpos hle hR => hR.sslRead hpos (by omega)) hc

theorem readLoopOver_short {κ : Type*} {call : Nat → κ → (IoResult × Bytes) × κ} {T : Nat}
    (hT : 0 < T) (hcall : ∀ m k, T ≤ m → (call m k).1.2.length + T ≤ m) (fuel : Nat)
    (r : NonblockingStringReader) (k : κ) (h : T ≤ r.size - r.buf.length) :
    (r.readLoopOver call fuel k).1 ≠ .done ∧
      T ≤ (r.readLoopOver call fuel k).2.1.size - (r.readLoopOver call fuel k).2.1.buf.length := by
  induction fuel generalizing r k with
  | zero => exact ⟨by simp [readLoopOver], h⟩
  | succ fuel ih =>
    have hgot := hcall _ k h
    unfold readLoopOver
    rw [if_pos (by omega)]
    generalize call (r.size - r.buf.length) k = out at hgot ⊢
    obtain ⟨⟨res, got⟩, k'⟩ := out
    rcases res with (_ | n) | _ | _ | _
    · exact ⟨by simp, h⟩
    · refine ih { r with buf := r.buf ++ got } k' ?_
      simp only [List.length_append] at hgot ⊢
      omega
    · exact ih r k' h
    · exact ⟨by simp, h⟩
    · exact ⟨by simp, h⟩

theorem readSsl_large (r : NonblockingStringReader) (c : Ssl Socket)
    (h : 2 ^ 31 ≤ r.size - r.buf.length) :
    (r.readSsl c).1 ≠ .done ∧
      2 ^ 31 ≤ (r.readSsl c).2.1.size - (r.readSsl c).2.1.buf.length := by
  have hcall : ∀ m k, 2 ^ 31 ≤ m → (sslRead m k).1.2.length + 2 ^ 31 ≤ m :=
    fun _ _ hle => sslRead_large hle
  have hT : 0 < 2 ^ 31 := by omega
  unfold readSsl
  exact readLoopOver_short hT hcall _ r c h

end NonblockingStringReader

/-! ## The string writer -/

def serveWrite (b : Bytes) (n : Nat) (k : Socket) : IoResult × Socket := k.send (b.take n)

def rejectWrite (k : Socket) : IoResult × Socket :=
  match k.send [] with
  | (.count _, k) => (.error, k)
  | (r, k) => (r, k)

/-- `SSL_write` on a nonblocking transport, of all of `b`. -/
def sslWrite (b : Bytes) (c : Ssl Socket) : IoResult × Ssl Socket :=
  c.call (serveWrite b) rejectWrite b.length (narrow b.length)

def sslFstat (c : Ssl Socket) : Bool × Ssl Socket :=
  match c.conn.fstat with
  | (ok, k) => (ok, { c with conn := k })

theorem Ssl.Like.sslWrite {c : Ssl Socket} {k : Socket} {b : Bytes} (hpos : b ≠ [])
    (hlt : b.length < 2 ^ 31) (h : c.Like k) :
    (sslWrite b c).1 = (k.send b).1 ∧ (sslWrite b c).2.Like (k.send b).2 := by
  have hcall := h.call (serveWrite b) rejectWrite (List.length_pos_iff.2 hpos) hlt
  have hall : serveWrite b b.length k = k.send b := by rw [serveWrite, List.take_length]
  rw [hall] at hcall
  unfold L1.sslWrite
  exact hcall

theorem Ssl.Like.sslFstat {c : Ssl Socket} {k : Socket} (h : c.Like k) :
    (sslFstat c).1 = k.fstat.1 ∧ (sslFstat c).2.Like k.fstat.2 := by
  obtain ⟨rfl, hl⟩ := h
  exact ⟨rfl, rfl, hl⟩

theorem sslWrite_large {c : Ssl Socket} {b : Bytes} (hle : 2 ^ 31 ≤ b.length) {n : Nat}
    (hn : (sslWrite b c).1 = .count n) : n + 2 ^ 31 ≤ b.length := by
  unfold sslWrite at hn
  rcases Ssl.call_large (serveWrite b) rejectWrite c hle with
    ⟨m, h, hm, he⟩ | ⟨h, he⟩
  · rw [he] at hn
    obtain ⟨j, hj, -, hcount, -⟩ := c.conn.send_gave (b.take m)
    have hnj : n = j := hcount n hn
    rw [List.length_take] at hj
    omega
  · rw [he] at hn
    have hnone : ∀ n, (rejectWrite c.conn).1 ≠ .count n := by
      intro n
      unfold rejectWrite
      split
      · simp
      · rename_i hne _
        exact hne n
    exact absurd hn (hnone n)

namespace NonblockingStringWriter

/-- The loop over either call. -/
def writeLoopOver {κ : Type*} (fstat : κ → Bool × κ) (call : Bytes → κ → IoResult × κ) :
    Nat → NonblockingStringWriter → κ → NonblockingStringStatus × NonblockingStringWriter × κ
  | 0, w, k => (.inProgress, w, k)
  | fuel + 1, w, k =>
    if w.bytesWritten < w.s.length then
      match fstat k with
      | (false, k') => (.failed, w, k')
      | (true, k') =>
        match call w.rest k' with
        | (.count 0, k'') => (.failed, w, k'')
        | (.count (n + 1), k'') =>
          writeLoopOver fstat call fuel { w with bytesWritten := w.bytesWritten + (n + 1) } k''
        | (.intr, k'') => writeLoopOver fstat call fuel w k''
        | (.again, k'') => (.inProgress, w, k'')
        | (.error, k'') => (.failed, w, k'')
    else (.done, w, k)

/-- mirrors src/main/nonblocking_string.cc:75-125, with an SSL connection. -/
def writeSsl (w : NonblockingStringWriter) (c : Ssl Socket) :
    NonblockingStringStatus × NonblockingStringWriter × Ssl Socket :=
  w.writeLoopOver sslFstat sslWrite (c.conn.writes.length + 1) c

theorem writeLoop_eq (fuel : Nat) (w : NonblockingStringWriter) (k : Socket) :
    w.writeLoop fuel k = w.writeLoopOver Socket.fstat (fun b k => k.send b) fuel k := by
  induction fuel generalizing w k with
  | zero => rfl
  | succ fuel ih =>
    unfold writeLoop writeLoopOver
    split
    · generalize k.fstat = out
      obtain ⟨_ | _, k₁⟩ := out
      · rfl
      dsimp only
      generalize k₁.send w.rest = out
      obtain ⟨res, k₂⟩ := out
      rcases res with (_ | n) | _ | _ | _
      · rfl
      · exact ih { w with bytesWritten := w.bytesWritten + (n + 1) } k₂
      · exact ih w k₂
      · rfl
      · rfl
    · rfl

theorem rest_length (w : NonblockingStringWriter) : w.rest.length = w.s.length - w.bytesWritten :=
  List.length_drop

theorem writeLoopOver_alike {κ κ' : Type*} {fstat : κ → Bool × κ} {fstat' : κ' → Bool × κ'}
    {call : Bytes → κ → IoResult × κ} {call' : Bytes → κ' → IoResult × κ'} {R : κ → κ' → Prop}
    (fuel : Nat) (w : NonblockingStringWriter) (k : κ) (k' : κ')
    (hfstat : ∀ k k', R k k' → (fstat k).1 = (fstat' k').1 ∧ R (fstat k).2 (fstat' k').2)
    (hcall : ∀ b k k', b ≠ [] → b.length ≤ w.s.length → R k k' →
      (call b k).1 = (call' b k').1 ∧ R (call b k).2 (call' b k').2) (hk : R k k') :
    Alike R (w.writeLoopOver fstat call fuel k) (w.writeLoopOver fstat' call' fuel k') := by
  induction fuel generalizing w k k' with
  | zero => exact ⟨rfl, rfl, hk⟩
  | succ fuel ih =>
    unfold writeLoopOver
    split
    · have hlen := w.rest_length
      obtain ⟨hok, hR⟩ := hfstat k k' hk
      generalize fstat k = out at hok hR ⊢
      generalize fstat' k' = out' at hok hR ⊢
      obtain ⟨ok, k₁⟩ := out
      obtain ⟨ok', k₁'⟩ := out'
      obtain rfl : ok = ok' := hok
      cases ok with
      | false => exact ⟨rfl, rfl, hR⟩
      | true =>
        dsimp only at hR ⊢
        have hne : w.rest ≠ [] := List.length_pos_iff.1 (by omega)
        obtain ⟨hres, hR'⟩ := hcall w.rest k₁ k₁' hne (by omega) hR
        generalize call w.rest k₁ = out at hres hR' ⊢
        generalize call' w.rest k₁' = out' at hres hR' ⊢
        obtain ⟨res, k₂⟩ := out
        obtain ⟨res', k₂'⟩ := out'
        obtain rfl : res = res' := hres
        rcases res with (_ | n) | _ | _ | _
        · exact ⟨rfl, rfl, hR'⟩
        · exact ih { w with bytesWritten := w.bytesWritten + (n + 1) } k₂ k₂' hcall hR'
        · exact ih w k₂ k₂' hcall hR'
        · exact ⟨rfl, rfl, hR'⟩
        · exact ⟨rfl, rfl, hR'⟩
    · exact ⟨rfl, rfl, hk⟩

theorem writeSsl_small (w : NonblockingStringWriter) {c : Ssl Socket} {k : Socket}
    (h : w.s.length < 2 ^ 31) (hc : c.Like k) : Alike Ssl.Like (w.writeSsl c) (w.write k) := by
  unfold writeSsl write
  rw [writeLoop_eq, hc.1]
  exact writeLoopOver_alike _ w c k (fun _ _ hR => hR.sslFstat)
    (fun b _ _ hne hle hR => hR.sslWrite hne (by omega)) hc

theorem writeLoopOver_short {κ : Type*} {fstat : κ → Bool × κ} {call : Bytes → κ → IoResult × κ}
    {T : Nat} (hT : 0 < T)
    (hcall : ∀ b k n, T ≤ b.length → (call b k).1 = .count n → n + T ≤ b.length) (fuel : Nat)
    (w : NonblockingStringWriter) (k : κ) (h : T ≤ w.s.length - w.bytesWritten) :
    (w.writeLoopOver fstat call fuel k).1 ≠ .done ∧
      T ≤ (w.writeLoopOver fstat call fuel k).2.1.s.length -
        (w.writeLoopOver fstat call fuel k).2.1.bytesWritten := by
  induction fuel generalizing w k with
  | zero => exact ⟨by simp [writeLoopOver], h⟩
  | succ fuel ih =>
    have hlen := w.rest_length
    unfold writeLoopOver
    rw [if_pos (by omega)]
    generalize fstat k = out
    obtain ⟨_ | _, k₁⟩ := out
    · exact ⟨by simp, h⟩
    have hn := fun n => hcall w.rest k₁ n (by omega)
    dsimp only
    generalize call w.rest k₁ = out at hn ⊢
    obtain ⟨res, k₂⟩ := out
    rcases res with (_ | n) | _ | _ | _
    · exact ⟨by simp, h⟩
    · have := hn (n + 1) rfl
      exact ih { w with bytesWritten := w.bytesWritten + (n + 1) } k₂ (by dsimp only; omega)
    · exact ih w k₂ h
    · exact ⟨by simp, h⟩
    · exact ⟨by simp, h⟩

theorem writeSsl_large (w : NonblockingStringWriter) (c : Ssl Socket)
    (h : 2 ^ 31 ≤ w.s.length - w.bytesWritten) :
    (w.writeSsl c).1 ≠ .done ∧
      2 ^ 31 ≤ (w.writeSsl c).2.1.s.length - (w.writeSsl c).2.1.bytesWritten := by
  have hcall : ∀ b k n, 2 ^ 31 ≤ b.length → (sslWrite b k).1 = .count n → n + 2 ^ 31 ≤ b.length :=
    fun _ _ _ hle hn => sslWrite_large hle hn
  have hT : 0 < 2 ^ 31 := by omega
  unfold writeSsl
  exact writeLoopOver_short hT hcall _ w c h

end NonblockingStringWriter

end Kinetic.L1
