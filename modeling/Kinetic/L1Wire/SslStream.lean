import Kinetic.L1Wire.Ssl

/-!
# `SslByteStream`

The blocking byte stream over SSL against the plain one, which is
`ReaderWriter`, and with the string reader and writer of `Ssl` what becomes of
one size over both: the same for a size that an `int` holds (`*Agree.of_lt`), and
not for any other.
-/
open Kinetic.Core Kinetic.Core.Socket

namespace Kinetic.L1

/-- The loop of `SslByteStream::Read` and of `Write` for the `n` bytes from
`bytes` on, `call offset n` being what it calls for them.
mirrors src/main/byte_stream.cc:68-80, 92-104 -/
def sslLoop {σ : Type*} (call : Nat → Nat → σ → SysResult × σ) (bytes n : Nat) (s : σ) : Bool × σ :=
  if n = 0 then (true, s)
  else
    match call bytes n s with
    | (.count (k + 1), s) => sslLoop call (bytes + (k + 1)) (n - (k + 1)) s
    | (_, s) => (false, s)
termination_by n

/-- `SSL_read` or `SSL_write` on a blocking transport: `call` with an `int` where
`n` is a `size_t`. Nothing is known of the descriptor's `errno` when the count is
rejected, and nothing asks for it. -/
def sslCall {σ : Type*} (call : Nat → Nat → σ → SysResult × σ) (offset n : Nat) (c : Ssl σ) :
    SysResult × Ssl σ :=
  c.call (call offset) (fun s => (.errno (.other 0), s)) n (narrow n)

namespace PlainByteStream

/-- mirrors src/main/byte_stream.cc:34-38 -/
def read (fuel n : Nat) (fd : Descriptor) : Option Bool × Reading :=
  match ReaderWriter.read fuel n fd with
  | ⟨ret, _, buf, fd⟩ => (ret, ⟨buf, fd⟩)

/-- mirrors src/main/byte_stream.cc:40-43 -/
def write (fuel : Nat) (buf : Bytes) (fd : Descriptor) : Option Bool × Descriptor :=
  ReaderWriter.write fuel buf fd

end PlainByteStream

namespace SslByteStream

/-- mirrors src/main/byte_stream.cc:58-83 -/
def read (n : Nat) (c : Ssl Reading) : Bool × Ssl Reading :=
  if n = 0 then (true, c) else sslLoop (sslCall ReaderWriter.readCall) 0 n c

/-- mirrors src/main/byte_stream.cc:85-107 -/
def write (buf : Bytes) (c : Ssl Descriptor) : Bool × Ssl Descriptor :=
  if buf.length = 0 then (true, c)
  else sslLoop (sslCall (ReaderWriter.writeCall buf)) 0 buf.length c

/-- mirrors src/main/byte_stream.cc:109-121, into a new buffer: `none` is `NULL`. -/
def readValue (n : Nat) (c : Ssl Reading) : Option Bytes × Ssl Reading :=
  match read n { c with conn := { c.conn with buf := [] } } with
  | (false, c) => (none, c)
  | (true, c) => (some c.conn.buf, c)

end SslByteStream

/-! ## The two loops -/

/-- Every answer is a piece, the end of the file or an error. -/
def Steady (answers : Stream' SysResult) : Prop :=
  ∀ i, (answers.get i).retry = false ∧ answers.get i ≠ .errno .eintr

theorem Steady.tail {answers : Stream' SysResult} (h : Steady answers) : Steady answers.tail :=
  fun i => h (i + 1)

section
variable {σ : Type*} {call : Nat → Nat → σ → SysResult × σ} {answers : σ → Stream' SysResult}
  {n : Nat} {moved : Nat → σ → Prop}

theorem Serves.sslLoop_small (h : Serves call answers n moved) (hn : n < 2 ^ 31) (m : Nat)
    {bytes : Nat} {c : Ssl σ} {s : σ} (hm : bytes + m = n) (hs : Steady (answers s)) (hc : c.Like s) :
    ∃ fuel o, o.ok = (sslLoop (sslCall call) bytes m c).1 ∧
      (transferLoop call n fuel bytes 0 s).1 = some o ∧
      (sslLoop (sslCall call) bytes m c).2.Like (transferLoop call n fuel bytes 0 s).2 := by
  have hT : 0 < socketTimeout := by decide
  induction m using Nat.strongRecOn generalizing bytes c s with
  | ind m ih =>
    rw [sslLoop]
    by_cases h0 : m = 0
    · have hplain : transferLoop call n 1 bytes 0 s = (some .all, s) := by
        rw [transferLoop, if_neg (by omega), if_neg (by omega)]
      rw [if_pos h0]
      exact ⟨1, .all, rfl, by rw [hplain], by rw [hplain]; exact hc⟩
    rw [if_neg h0]
    have hb : bytes < n := by omega
    have hnm : n - bytes = m := by omega
    obtain ⟨hres, hlike⟩ := hc.call (call bytes) (fun s => (.errno (.other 0), s))
      (Nat.pos_of_ne_zero h0) (show m < 2 ^ 31 by omega)
    have hplain := h.result bytes m s
    have hnext := h.next bytes m s
    have hfatal := h.fatal hb hT (s := s)
    have hturn := h.turn hb hT (s := s)
    have hhead := hs 0
    rw [show (answers s).get 0 = (answers s).head from rfl] at hhead
    rw [hnm] at hfatal hturn
    change (sslCall call bytes m c).1 = _ at hres
    change (sslCall call bytes m c).2.Like _ at hlike
    rw [hplain] at hres
    generalize sslCall call bytes m c = out at hres hlike ⊢
    obtain ⟨res, c'⟩ := out
    obtain rfl : res = _ := hres
    rcases hr : (answers s).head with (_ | k) | (_ | _ | _ | e)
    all_goals rw [hr] at hhead hfatal hturn
    · exact ⟨1, .eof, rfl, by rw [hfatal rfl], by rw [hfatal rfl]; exact hlike⟩
    · have hpos : 0 < min (min (k + 1) maxTransfer) m := by
        have : 0 < maxTransfer := by decide
        omega
      obtain ⟨j, hj⟩ := Nat.exists_eq_add_one.2 hpos
      obtain ⟨fuel, o, hok, hrun, hlike'⟩ := ih (m - (j + 1)) (by omega)
        (show bytes + (j + 1) + (m - (j + 1)) = n by omega) (by rw [hnext]; exact hs.tail) hlike
      have hone : transferLoop call n (fuel + 1) bytes 0 s =
          transferLoop call n fuel (bytes + (j + 1)) 0 (call bytes m s).2 := by
        rw [hturn rfl]
        simp only [SysResult.worth, SysResult.retry, hj]
        rfl
      refine ⟨fuel + 1, o, ?_, by rw [hone, hrun], ?_⟩
      · simp only [SysResult.upTo, hj]
        exact hok
      · simp only [SysResult.upTo, hj, hone]
        exact hlike'
    · exact absurd rfl hhead.2
    · cases hhead.1
    · cases hhead.1
    · exact ⟨1, .failed (.other e), rfl, by rw [hfatal rfl], by rw [hfatal rfl]; exact hlike⟩

theorem Serves.sslCall_large (h : Serves call answers n moved) {offset m k : Nat} {c : Ssl σ}
    (hle : 2 ^ 31 ≤ m) (hk : (sslCall call offset m c).1 = .count k) : k + 2 ^ 31 ≤ m := by
  unfold sslCall at hk
  rcases Ssl.call_large (call offset) (fun s => (.errno (.other 0), s)) c hle with
    ⟨m', _, hm', he⟩ | ⟨_, he⟩
  · rw [he, h.result] at hk
    generalize (answers c.conn).head = r at hk
    cases r with
    | errno e => cases hk
    | count j =>
      have : min (min j maxTransfer) m' = k := SysResult.count.inj hk
      omega
  · rw [he] at hk
    cases hk

end

theorem sslLoop_short {σ : Type*} {call : Nat → Nat → σ → SysResult × σ} {T : Nat} (hT : 0 < T)
    (hcall : ∀ offset m s k, T ≤ m → (call offset m s).1 = .count k → k + T ≤ m) (m : Nat)
    {bytes : Nat} {s : σ} (hm : T ≤ m) : (sslLoop call bytes m s).1 = false := by
  induction m using Nat.strongRecOn generalizing bytes s with
  | ind m ih =>
    rw [sslLoop, if_neg (by omega)]
    have hk := fun k => hcall bytes m s k hm
    split
    · rename_i k s' he
      have := hk (k + 1) (by rw [he])
      exact ih (m - (k + 1)) (by omega) (by omega)
    · rfl

theorem transferLoop_unique {σ : Type*} {call : Nat → Nat → σ → SysResult × σ} {n f g : Nat} {s : σ}
    {o o' : Transfer} (h : (transferLoop call n f 0 0 s).1 = some o)
    (h' : (transferLoop call n g 0 0 s).1 = some o') : o = o' := by
  have hf := transferLoop_more call n f g 0 0 (s := s) (by rw [h]; simp)
  have hg := transferLoop_more call n g f 0 0 (s := s) (by rw [h']; simp)
  rw [Nat.add_comm, hf] at hg
  rw [hg, h'] at h
  exact (Option.some.inj h).symm

/-! ## One size over both -/

/-- More bytes arrive, and answers are there for the next call. -/
def arrive (t : ReadTurn) (k : Socket) : Socket :=
  { k with incoming := k.incoming ++ t.arrives, reads := t.reads }

def getReady (t : WriteTurn) (k : Socket) : Socket := { k with fstats := t.fstats, writes := t.writes }

/-- The transport below the connection moves on. -/
def Ssl.turn {τ κ : Type*} (turn : τ → κ → κ) (t : τ) (c : Ssl κ) : Ssl κ :=
  { c with conn := turn t c.conn }

theorem Ssl.Like.turn {τ κ : Type*} (turn : τ → κ → κ) (t : τ) {c : Ssl κ} {k : κ} (h : c.Like k) :
    (c.turn turn t).Like (turn t k) := ⟨congrArg (turn t) h.1, h.2⟩

theorem Ssl.like_fresh {κ : Type*} (k : κ) : Ssl.Like { conn := k } k :=
  ⟨rfl, fun _ hp => absurd hp List.not_mem_nil⟩

/-- A string reader of this size delivers the same over both, and every count it
hands over is legal. -/
def ReaderAgrees (n : Nat) : Prop := ∀ (fd : Nat) (turns : List ReadTurn),
  Alike Ssl.Like
    (untilSettled NonblockingStringReader.readSsl (Ssl.turn arrive) turns { size := n }
      { conn := opened fd })
    (untilSettled NonblockingStringReader.read arrive turns { size := n } (opened fd))

/-- So does a string writer of this many bytes. -/
def WriterAgrees (n : Nat) : Prop := ∀ (s : Bytes), s.length = n → ∀ (fd : Nat) (turns : List WriteTurn),
  Alike Ssl.Like
    (untilSettled NonblockingStringWriter.writeSsl (Ssl.turn getReady) turns { s := s }
      { conn := opened fd })
    (untilSettled NonblockingStringWriter.write getReady turns { s := s } (opened fd))

/-- `Read` of this size comes to the same over both, with the same bytes, and
`ReadValue` to these bytes. -/
def ReadAgrees (n : Nat) : Prop := ∀ (fd : Descriptor), Steady fd.answers →
  ∃ fuel, (PlainByteStream.read fuel n fd).1 = some (SslByteStream.read n { conn := ⟨[], fd⟩ }).1 ∧
    (SslByteStream.read n { conn := ⟨[], fd⟩ }).2.Like (PlainByteStream.read fuel n fd).2 ∧
    (SslByteStream.readValue n { conn := ⟨[], fd⟩ }).1 =
      if (PlainByteStream.read fuel n fd).1 = some true then some (PlainByteStream.read fuel n fd).2.buf
      else none

/-- So does `Write` of this many bytes. -/
def WriteAgrees (n : Nat) : Prop := ∀ (buf : Bytes), buf.length = n → ∀ (fd : Descriptor),
  Steady fd.answers →
  ∃ fuel, (PlainByteStream.write fuel buf fd).1 = some (SslByteStream.write buf { conn := fd }).1 ∧
    (SslByteStream.write buf { conn := fd }).2.Like (PlainByteStream.write fuel buf fd).2

/-! ### Sizes that fit -/

theorem ReaderAgrees.of_lt {n : Nat} (h : n < 2 ^ 31) : ReaderAgrees n := by
  intro fd turns
  have hstep : ∀ (r : NonblockingStringReader) (c : Ssl Socket) (k : Socket), r.size = n ∧ r.Ok →
      c.Like k → Alike Ssl.Like (r.readSsl c) (r.read k) ∧
        (r.read k).2.1.size = n ∧ (r.read k).2.1.Ok := by
    rintro r c k ⟨hn, hok⟩ hc
    obtain ⟨got, hr⟩ := r.read_spec k hok
    exact ⟨r.readSsl_small (by omega) hc, hr.size.trans hn, hr.ok⟩
  exact untilSettled_alike (fun t _ _ hk => hk.turn arrive t) hstep turns ⟨rfl, Nat.zero_le n⟩
    (Ssl.like_fresh _)

theorem WriterAgrees.of_lt {n : Nat} (h : n < 2 ^ 31) : WriterAgrees n := by
  rintro s rfl fd turns
  have hstep : ∀ (w : NonblockingStringWriter) (c : Ssl Socket) (k : Socket), w.s = s → c.Like k →
      Alike Ssl.Like (w.writeSsl c) (w.write k) ∧ (w.write k).2.1.s = s := by
    rintro w c k rfl hc
    exact ⟨w.writeSsl_small h hc, w.writeLoop_s _ k⟩
  exact untilSettled_alike (fun t _ _ hk => hk.turn getReady t) hstep turns rfl (Ssl.like_fresh _)

theorem Serves.alike {σ : Type*} {call : Nat → Nat → σ → SysResult × σ}
    {answers : σ → Stream' SysResult} {n : Nat} {moved : Nat → σ → Prop}
    (h : Serves call answers n moved) (hn : n < 2 ^ 31) {s : σ} (hs : Steady (answers s)) :
    ∃ fuel, (transferLoop call n fuel 0 0 s).1.map Transfer.ok =
        some (sslLoop (sslCall call) 0 n { conn := s }).1 ∧
      (sslLoop (sslCall call) 0 n { conn := s }).2.Like (transferLoop call n fuel 0 0 s).2 := by
  obtain ⟨fuel, o, hok, hrun, hlike⟩ :=
    h.sslLoop_small hn n (Nat.zero_add n) hs (Ssl.like_fresh s)
  exact ⟨fuel, by rw [hrun, ← hok]; rfl, hlike⟩

theorem SslByteStream.read_eq (n : Nat) (c : Ssl Reading) :
    SslByteStream.read n c = sslLoop (sslCall ReaderWriter.readCall) 0 n c := by
  unfold SslByteStream.read
  split
  · rename_i h
    rw [sslLoop, if_pos h]
  · rfl

theorem SslByteStream.write_eq (buf : Bytes) (c : Ssl Descriptor) :
    SslByteStream.write buf c = sslLoop (sslCall (ReaderWriter.writeCall buf)) 0 buf.length c := by
  unfold SslByteStream.write
  split
  · rename_i h
    rw [sslLoop, if_pos h]
  · rfl

theorem ReadAgrees.of_lt {n : Nat} (h : n < 2 ^ 31) : ReadAgrees n := by
  intro fd hs
  obtain ⟨fuel, hret, hlike⟩ := (ReaderWriter.read_serves n fd).alike h (s := ⟨[], fd⟩) hs
  rw [← SslByteStream.read_eq] at hret hlike
  have hplain : (PlainByteStream.read fuel n fd).1 =
      some (SslByteStream.read n { conn := ⟨[], fd⟩ }).1 := hret
  refine ⟨fuel, hplain, hlike, ?_⟩
  rw [hplain, ← show _ = (PlainByteStream.read fuel n fd).2 from hlike.1]
  unfold SslByteStream.readValue
  dsimp only
  generalize SslByteStream.read n { conn := ⟨[], fd⟩ } = out
  obtain ⟨ok, c⟩ := out
  cases ok <;> rfl

theorem WriteAgrees.of_lt {n : Nat} (h : n < 2 ^ 31) : WriteAgrees n := by
  rintro buf rfl fd hs
  obtain ⟨fuel, hret, hlike⟩ := (ReaderWriter.write_serves buf fd).alike h (s := fd) hs
  rw [← SslByteStream.write_eq] at hret hlike
  exact ⟨fuel, hret, hlike⟩

/-! ### Sizes that do not -/

theorem untilSettled_one {τ ρ κ : Type*} (call : ρ → κ → NonblockingStringStatus × ρ × κ)
    (turn : τ → κ → κ) (t : τ) (r : ρ) (k : κ) :
    (untilSettled call turn [t] r k).1 = (call r (turn t k)).1 := by
  unfold untilSettled
  split
  all_goals rename_i he; rw [he]
  rfl

/-- `n` bytes that arrive, one a read. -/
def bytewise (n : Nat) : ReadTurn := ⟨List.replicate n 0, List.replicate n (.count 1)⟩

theorem read_bytewise (fd n : Nat) :
    (untilSettled NonblockingStringReader.read arrive [bytewise n] { size := n } (opened fd)).1 =
      .done := by
  rw [untilSettled_one]
  have heager : Eager (arrive (bytewise n) (opened fd)).reads n := .bytewise (Nat.le_refl n)
  have hin : (arrive (bytewise n) (opened fd)).incoming = List.replicate n 0 := rfl
  generalize arrive (bytewise n) (opened fd) = k at heager hin ⊢
  have hok : NonblockingStringReader.Ok { size := n } := Nat.zero_le n
  obtain ⟨got, hr⟩ := NonblockingStringReader.read_spec { size := n } k hok
  have hempty := (NonblockingStringReader.read_eager { size := n } k n hok heager (Nat.sub_le _ _)).1
  have hlen := congrArg List.length hr.took.stream
  rw [hin, List.length_replicate, List.length_append] at hlen
  cases hst : (NonblockingStringReader.read { size := n } k).1 with
  | done => rfl
  | failed => exact absurd hst (NonblockingStringReader.read_fragment _ k heager.readsFragment)
  | inProgress =>
    rw [hempty hst, List.length_nil, Nat.add_zero] at hlen
    have hfull := hr.full.2 (by rw [hr.buf, hr.size, List.nil_append, ← hlen])
    rw [← hst, hfull]

theorem not_readerAgrees {n : Nat} (h : 2 ^ 31 ≤ n) : ¬ ReaderAgrees n := by
  intro hall
  have hst := (hall 0 [bytewise n]).status
  rw [read_bytewise, untilSettled_one] at hst
  exact (NonblockingStringReader.readSsl_large { size := n } _ h).1 hst

theorem write_bytewise (fd : Nat) (s : Bytes) :
    (untilSettled NonblockingStringWriter.write getReady [⟨[], List.replicate s.length (.count 1)⟩]
      { s := s } (opened fd)).1 = .done := by
  rw [untilSettled_one]
  have hw : (getReady ⟨[], List.replicate s.length (.count 1)⟩ (opened fd)).Willing s.length :=
    .bytewise rfl rfl (Nat.le_refl _)
  obtain ⟨w', k', hrun, -⟩ := NonblockingStringWriter.write_willing hw (w := { s := s }) (Nat.le_refl _)
  rw [hrun]

theorem not_writerAgrees {n : Nat} (h : 2 ^ 31 ≤ n) : ¬ WriterAgrees n := by
  intro hall
  have hlen : (List.replicate n (0 : UInt8)).length = n := List.length_replicate
  have hst := (hall _ hlen 0 [⟨[], List.replicate (List.replicate n (0 : UInt8)).length (.count 1)⟩]).status
  rw [write_bytewise, untilSettled_one] at hst
  exact (NonblockingStringWriter.writeSsl_large { s := List.replicate n 0 } _
    (by rw [hlen]; exact h)).1 hst

theorem ends_bytewise {answers : Stream' SysResult} (h : ∀ i, answers.get i = .count 1) (n : Nat) :
    ∃ m, Ends n answers m .all := by
  have hone : (SysResult.count 1).worth = 1 := rfl
  refine ends_all_iff.2 ⟨n, ?_, ?_, ?_⟩
  all_goals rw [take_eq_replicate h]
  · rw [worth_replicate, hone, Nat.mul_one]
  · rw [retries_replicate rfl]
    decide
  · intro r hr
    rw [List.eq_of_mem_replicate hr]
    rfl

/-- A descriptor that moves a byte a call. -/
def bytewiseDescriptor : Descriptor := ⟨Stream'.const (.count 1), Stream'.const 0, [], []⟩

theorem steady_bytewise : Steady bytewiseDescriptor.answers := fun _ => ⟨rfl, by simp [bytewiseDescriptor]⟩

theorem Serves.differ {σ : Type*} {call : Nat → Nat → σ → SysResult × σ}
    {answers : σ → Stream' SysResult} {n : Nat} {moved : Nat → σ → Prop}
    (h : Serves call answers n moved) {s : σ} (hm : moved 0 s)
    (hs : ∀ i, (answers s).get i = .count 1) (hn : 2 ^ 31 ≤ n) (fuel : Nat) :
    (transferLoop call n fuel 0 0 s).1.map Transfer.ok ≠
      some (sslLoop (sslCall call) 0 n { conn := s }).1 := by
  have hcall : ∀ offset m (c : Ssl σ) k, 2 ^ 31 ≤ m → (sslCall call offset m c).1 = .count k →
      k + 2 ^ 31 ≤ m := fun _ _ _ _ hle hk => h.sslCall_large hle hk
  have hT : 0 < 2 ^ 31 := by omega
  have hssl : (sslLoop (sslCall call) 0 n { conn := s }).1 = false := sslLoop_short hT hcall n hn
  rw [hssl]
  intro hret
  obtain ⟨o, ho, hok⟩ := Option.map_eq_some_iff.1 hret
  obtain ⟨g, hg⟩ := (h.outcome hm).2 (ends_bytewise hs n)
  rw [transferLoop_unique ho hg] at hok
  cases hok

theorem not_readAgrees {n : Nat} (h : 2 ^ 31 ≤ n) : ¬ ReadAgrees n := by
  intro hall
  obtain ⟨fuel, hret, -⟩ := hall bytewiseDescriptor steady_bytewise
  rw [SslByteStream.read_eq] at hret
  exact (ReaderWriter.read_serves n bytewiseDescriptor).differ (s := ⟨[], bytewiseDescriptor⟩)
    ⟨rfl, rfl, [], rfl, by simp⟩ (fun _ => rfl) h fuel hret

theorem not_writeAgrees {n : Nat} (h : 2 ^ 31 ≤ n) : ¬ WriteAgrees n := by
  intro hall
  have hlen : (List.replicate n (0 : UInt8)).length = n := List.length_replicate
  obtain ⟨fuel, hret, -⟩ := hall _ hlen bytewiseDescriptor steady_bytewise
  rw [SslByteStream.write_eq] at hret
  exact (ReaderWriter.write_serves _ bytewiseDescriptor).differ (s := bytewiseDescriptor)
    ⟨by simp [bytewiseDescriptor], [], rfl, by simp⟩ (fun _ => rfl) (by rw [hlen]; exact h) fuel hret

/-- **The transports agree on the sizes that an `int` holds**, readers, writers
and both directions of the byte stream, and on no other. -/
theorem ssl_agrees_iff (n : Nat) :
    (ReaderAgrees n ↔ n < 2 ^ 31) ∧ (WriterAgrees n ↔ n < 2 ^ 31) ∧
      (ReadAgrees n ↔ n < 2 ^ 31) ∧ (WriteAgrees n ↔ n < 2 ^ 31) := by
  refine ⟨⟨fun h => ?_, .of_lt⟩, ⟨fun h => ?_, .of_lt⟩, ⟨fun h => ?_, .of_lt⟩, ⟨fun h => ?_, .of_lt⟩⟩
  all_goals refine Nat.lt_of_not_le fun hle => ?_
  · exact not_readerAgrees hle h
  · exact not_writerAgrees hle h
  · exact not_readAgrees hle h
  · exact not_writeAgrees hle h

/-- The first size that an `int` does not hold: its bytes arrive one by one, the
plain reader has them all, and the reader over SSL never is done. -/
theorem ssl_two_gib :
    (untilSettled NonblockingStringReader.read arrive [bytewise (2 ^ 31)] { size := 2 ^ 31 }
      (opened 3)).1 = .done ∧
    (untilSettled NonblockingStringReader.readSsl (Ssl.turn arrive) [bytewise (2 ^ 31)]
      { size := 2 ^ 31 } { conn := opened 3 }).1 ≠ .done ∧
    ¬ ∀ n < 2 ^ 32, ReaderAgrees n ∧ WriterAgrees n ∧ ReadAgrees n ∧ WriteAgrees n := by
  have hT : 2 ^ 31 ≤ 2 ^ 31 := Nat.le_refl _
  refine ⟨read_bytewise 3 _, ?_, fun h => ?_⟩
  · rw [untilSettled_one]
    exact (NonblockingStringReader.readSsl_large { size := 2 ^ 31 } _ hT).1
  · exact not_readerAgrees hT (h (2 ^ 31) (by omega)).1

end Kinetic.L1
