import Kinetic.Core.Descriptor

/-!
# `ReaderWriter`

The blocking loops under `PlainByteStream`: transfer exactly `n` bytes, going on
after an interruption, and after a wait while the descriptor is not ready, at
most `socketTimeout` times. `Read` and `Write` are one loop over the call they
make (`transferLoop`), which is decided by its results alone (`Ends`); what a
call moves in the meantime is kept beside (`Moves`).

The loop need not end: `fuel` is the number of turns it is watched for.
-/
open Kinetic.Core

namespace Kinetic.L1

/-- mirrors src/main/reader_writer.cc:24 -/
def socketTimeout : Nat := 20000

/-- The ways out of the loop: "Peer is slow", "Unexpected EOF", "Failed to". -/
inductive Transfer where
  | all
  | slow
  | eof
  | failed (errno : Errno)
  deriving DecidableEq, Repr

/-- The loop of `Read` and of `Write`, `call offset n` being the system call.
mirrors src/main/reader_writer.cc:31-57 -/
def transferLoop {σ : Type*} (call : Nat → Nat → σ → SysResult × σ) (n : Nat) :
    Nat → Nat → Nat → σ → Option Transfer × σ
  | 0, _, _, s => (none, s)
  | fuel + 1, bytes, waits, s =>
    if bytes < n ∧ waits < socketTimeout then
      match call bytes (n - bytes) s with
      | (.errno .eintr, s) => transferLoop call n fuel bytes waits s
      | (.errno .eagain, s) => transferLoop call n fuel bytes (waits + 1) s
      | (.errno .ewouldblock, s) => transferLoop call n fuel bytes (waits + 1) s
      | (.errno (.other e), s) => (some (.failed (.other e)), s)
      | (.count 0, s) => (some .eof, s)
      | (.count (k + 1), s) => transferLoop call n fuel (bytes + (k + 1)) waits s
    else if waits ≥ socketTimeout then (some .slow, s)
    else (some .all, s)

/-! ## What decides the loop -/

/-- A transfer of `n` bytes is still going on after these results. -/
structure Going (n : Nat) (rs : List SysResult) : Prop where
  short : worth rs < n
  patient : retries rs < socketTimeout
  alive : ∀ r ∈ rs, r.fatal = false

/-- A transfer of `n` bytes comes out like this after the first `m` results, and
no sooner. -/
inductive Ends (n : Nat) (answers : Stream' SysResult) : Nat → Transfer → Prop
  | nothing : n = 0 → Ends n answers 0 .all
  | all {m k : Nat} : Going n (answers.take m) → answers.get m = .count (k + 1) →
      n ≤ worth (answers.take (m + 1)) → Ends n answers (m + 1) .all
  | slow {m : Nat} : Going n (answers.take m) → (answers.get m).retry = true →
      retries (answers.take m) + 1 = socketTimeout → Ends n answers (m + 1) .slow
  | eof {m : Nat} : Going n (answers.take m) → answers.get m = .count 0 →
      Ends n answers (m + 1) .eof
  | failed {m e : Nat} : Going n (answers.take m) → answers.get m = .errno (.other e) →
      Ends n answers (m + 1) (.failed (.other e))

/-- The calls answer what the stream of results says, and whatever has been
moved, a call moves what it reports. -/
structure Serves {σ : Type*} (call : Nat → Nat → σ → SysResult × σ)
    (answers : σ → Stream' SysResult) (n : Nat) (moved : Nat → σ → Prop) : Prop where
  result : ∀ offset m s, (call offset m s).1 = (answers s).head.upTo m
  next : ∀ offset m s, answers (call offset m s).2 = (answers s).tail
  moves : ∀ bytes s, moved bytes s → bytes < n →
    moved (bytes + min (answers s).head.worth (n - bytes)) (call bytes (n - bytes) s).2

section
variable {σ : Type*} {call : Nat → Nat → σ → SysResult × σ} {answers : σ → Stream' SysResult}
  {n : Nat} {moved : Nat → σ → Prop}

theorem Serves.turn (h : Serves call answers n moved) {bytes waits : Nat} {s : σ} (hb : bytes < n)
    (hw : waits < socketTimeout) (hr : (answers s).head.fatal = false) (fuel : Nat) :
    transferLoop call n (fuel + 1) bytes waits s =
      transferLoop call n fuel (bytes + min (answers s).head.worth (n - bytes))
        (waits + (answers s).head.retry.toNat) (call bytes (n - bytes) s).2 := by
  have hres := h.result bytes (n - bytes) s
  rw [transferLoop, if_pos ⟨hb, hw⟩]
  generalize call bytes (n - bytes) s = out at hres ⊢
  obtain ⟨res, s'⟩ := out
  obtain rfl : res = _ := hres
  generalize (answers s).head = r at hr ⊢
  rcases r with (_ | k) | (_ | _ | _ | e)
  · cases hr
  · have hpos : 0 < min (min (k + 1) maxTransfer) (n - bytes) := by
      have : 0 < maxTransfer := by decide
      omega
    obtain ⟨j, hj⟩ := Nat.exists_eq_add_one.2 hpos
    simp [SysResult.upTo, SysResult.worth, SysResult.retry, hj]
  · simp [SysResult.upTo, SysResult.worth, SysResult.retry]
  · simp [SysResult.upTo, SysResult.worth, SysResult.retry]
  · simp [SysResult.upTo, SysResult.worth, SysResult.retry]
  · cases hr

theorem Serves.fatal (h : Serves call answers n moved) {bytes waits : Nat} {s : σ} (hb : bytes < n)
    (hw : waits < socketTimeout) (hr : (answers s).head.fatal = true) (fuel : Nat) :
    transferLoop call n (fuel + 1) bytes waits s =
      (some (match (answers s).head with | .errno e => .failed e | .count _ => .eof),
        (call bytes (n - bytes) s).2) := by
  have hres := h.result bytes (n - bytes) s
  rw [transferLoop, if_pos ⟨hb, hw⟩]
  generalize call bytes (n - bytes) s = out at hres ⊢
  obtain ⟨res, s'⟩ := out
  obtain rfl : res = _ := hres
  generalize (answers s).head = r at hr ⊢
  rcases r with (_ | k) | (_ | _ | _ | e)
  · simp [SysResult.upTo]
  · cases hr
  · cases hr
  · cases hr
  · cases hr
  · simp [SysResult.upTo]

theorem Serves.going (h : Serves call answers n moved) (m bytes waits : Nat) {s : σ}
    (hb : bytes + worth ((answers s).take m) < n)
    (hw : waits + retries ((answers s).take m) < socketTimeout)
    (hf : ∀ r ∈ (answers s).take m, r.fatal = false) (hm : moved bytes s) :
    ∃ s', answers s' = (answers s).drop m ∧ moved (bytes + worth ((answers s).take m)) s' ∧
      ∀ fuel, transferLoop call n (m + fuel) bytes waits s =
        transferLoop call n fuel (bytes + worth ((answers s).take m))
          (waits + retries ((answers s).take m)) s' := by
  induction m generalizing bytes waits s with
  | zero => exact ⟨s, rfl, hm, fun fuel => by rw [Nat.zero_add]; rfl⟩
  | succ m ih =>
    have hnext := h.next bytes (n - bytes) s
    rw [Stream'.take_succ] at hb hw hf ⊢
    rw [worth_cons] at hb ⊢
    rw [retries_cons] at hw ⊢
    have hmin : min (answers s).head.worth (n - bytes) = (answers s).head.worth := by omega
    have hmoved := h.moves bytes s hm (by omega)
    rw [hmin] at hmoved
    obtain ⟨s', ha, hm', hrun⟩ := ih (bytes + (answers s).head.worth)
      (waits + (answers s).head.retry.toNat) (s := (call bytes (n - bytes) s).2)
      (by rw [hnext]; omega) (by rw [hnext]; omega)
      (by rw [hnext]; exact fun r hr => hf r (List.mem_cons_of_mem _ hr)) hmoved
    rw [hnext] at ha hm' hrun
    rw [← Nat.add_assoc, ← Nat.add_assoc]
    refine ⟨s', ha, hm', fun fuel => ?_⟩
    rw [Nat.add_right_comm, h.turn (by omega) (by omega) (hf _ List.mem_cons_self), hmin, hrun]

theorem Serves.sofar (h : Serves call answers n moved) (fuel bytes waits : Nat) {s : σ}
    (hm : moved bytes s) (hb : bytes ≤ n) :
    ∃ b, b ≤ n ∧ moved b (transferLoop call n fuel bytes waits s).2 := by
  induction fuel generalizing bytes waits s with
  | zero => exact ⟨bytes, hb, hm⟩
  | succ fuel ih =>
    by_cases hgo : bytes < n ∧ waits < socketTimeout
    · have hmoved := h.moves bytes s hm hgo.1
      cases hr : (answers s).head.fatal with
      | true =>
        rw [h.fatal hgo.1 hgo.2 hr]
        exact ⟨_, by omega, hmoved⟩
      | false =>
        rw [h.turn hgo.1 hgo.2 hr]
        exact ih _ _ hmoved (by omega)
    · rw [transferLoop, if_neg hgo]
      split <;> exact ⟨bytes, hb, hm⟩

variable (call n) in
theorem transferLoop_more (fuel more bytes waits : Nat) {s : σ}
    (h : (transferLoop call n fuel bytes waits s).1 ≠ none) :
    transferLoop call n (fuel + more) bytes waits s = transferLoop call n fuel bytes waits s := by
  induction fuel generalizing bytes waits s with
  | zero => exact absurd rfl h
  | succ fuel ih =>
    rw [Nat.add_right_comm]
    unfold transferLoop at h ⊢
    split
    · rename_i hgo
      rw [if_pos hgo] at h
      split
      all_goals rename_i hc; simp only [hc] at h
      · exact ih _ _ h
      · exact ih _ _ h
      · exact ih _ _ h
      · rfl
      · rfl
      · exact ih _ _ h
    · rfl

theorem Serves.next_turn (h : Serves call answers n moved) {m : Nat} {s : σ} (hm : moved 0 s)
    (hg : Going n ((answers s).take m)) :
    ∃ s', answers s' = (answers s).drop (m + 1) ∧
      moved (min n (worth ((answers s).take (m + 1)))) s' ∧
      (((answers s).get m).fatal = true → ∀ fuel, transferLoop call n (m + (fuel + 1)) 0 0 s =
        (some (match (answers s).get m with | .errno e => .failed e | .count _ => .eof), s')) ∧
      (((answers s).get m).fatal = false → ∀ fuel, transferLoop call n (m + (fuel + 1)) 0 0 s =
        transferLoop call n fuel (min n (worth ((answers s).take (m + 1))))
          (retries ((answers s).take (m + 1))) s') := by
  obtain ⟨hshort, hpatient, halive⟩ := hg
  obtain ⟨s₁, ha, hm₁, hrun⟩ := h.going m 0 0
    (by rw [Nat.zero_add]; exact hshort) (by rw [Nat.zero_add]; exact hpatient) halive hm
  rw [Nat.zero_add] at hm₁
  simp only [Nat.zero_add] at hrun
  have hhead : (answers s₁).head = (answers s).get m := by rw [ha, Stream'.head_drop]
  have hmoved := h.moves _ s₁ hm₁ hshort
  have hworth : worth ((answers s).take m) + min ((answers s).get m).worth
      (n - worth ((answers s).take m)) = min n (worth ((answers s).take (m + 1))) := by
    rw [worth_take_succ]
    omega
  have hretries := (retries_take_succ (answers s) m).symm
  rw [hhead, hworth] at hmoved
  refine ⟨_, ?_, hmoved, fun hr fuel => ?_, fun hr fuel => ?_⟩
  · rw [h.next, ha, Stream'.tail_drop']
  · rw [hrun, h.fatal hshort hpatient (by rw [hhead, hr]), hhead]
  · rw [hrun, h.turn hshort hpatient (by rw [hhead, hr]), hhead, hworth, hretries]

/-- **The loop ends as its results say**, having taken no more of them. -/
theorem Serves.ends (h : Serves call answers n moved) {m : Nat} {o : Transfer} {s : σ}
    (hm : moved 0 s) (he : Ends n (answers s) m o) :
    ∃ s', answers s' = (answers s).drop m ∧ moved (min n (worth ((answers s).take m))) s' ∧
      ∀ more, transferLoop call n (m + 1 + more) 0 0 s = (some o, s') := by
  cases he with
  | nothing h0 =>
    have hT : 0 < socketTimeout := by decide
    subst h0
    refine ⟨s, rfl, by simpa using hm, fun more => ?_⟩
    rw [Nat.zero_add, Nat.add_comm, transferLoop, if_neg (by omega), if_neg (by omega)]
  | @all m k hg hk hn =>
    obtain ⟨s', ha, hm', -, hgo⟩ := h.next_turn hm hg
    refine ⟨s', ha, hm', fun more => ?_⟩
    have hw : retries ((answers s).take (m + 1)) < socketTimeout := by
      rw [retries_take_succ, hk]
      exact hg.patient
    rw [show m + 1 + 1 + more = m + (more + 1 + 1) by omega, hgo (by rw [hk]; rfl), transferLoop,
      if_neg (by omega), if_neg (by omega)]
  | @slow m hg hr hlast =>
    obtain ⟨s', ha, hm', -, hgo⟩ := h.next_turn hm hg
    refine ⟨s', ha, hm', fun more => ?_⟩
    have hw : retries ((answers s).take (m + 1)) = socketTimeout := by
      rw [retries_take_succ, hr, ← hlast, Bool.toNat_true]
    rw [show m + 1 + 1 + more = m + (more + 1 + 1) by omega, hgo (SysResult.of_retry hr).2, transferLoop,
      if_neg (by omega), if_pos (by omega)]
  | @eof m hg hk =>
    obtain ⟨s', ha, hm', hend, -⟩ := h.next_turn hm hg
    refine ⟨s', ha, hm', fun more => ?_⟩
    rw [show m + 1 + 1 + more = m + (more + 1 + 1) by omega, hend (by rw [hk]; rfl), hk]
  | @failed m e hg hk =>
    obtain ⟨s', ha, hm', hend, -⟩ := h.next_turn hm hg
    refine ⟨s', ha, hm', fun more => ?_⟩
    rw [show m + 1 + 1 + more = m + (more + 1 + 1) by omega, hend (by rw [hk]; rfl), hk]

end

theorem Going.next {n m : Nat} {answers : Stream' SysResult} (h : Going n (answers.take m)) :
    Going n (answers.take (m + 1)) ∨ ∃ o, Ends n answers (m + 1) o := by
  have hgo : worth (answers.take m) + (answers.get m).worth < n →
      retries (answers.take m) + (answers.get m).retry.toNat < socketTimeout →
      (answers.get m).fatal = false → Going n (answers.take (m + 1)) := by
    intro hw hr hf
    exact ⟨by rw [worth_take_succ]; exact hw, by rw [retries_take_succ]; exact hr,
      forall_take_succ.2 ⟨h.alive, hf⟩⟩
  have hshort := h.short
  have hpatient := h.patient
  by_cases hretry : (answers.get m).retry = true ∧
      retries (answers.take m) + 1 = socketTimeout
  · exact .inr ⟨_, .slow h hretry.1 hretry.2⟩
  rcases hr : answers.get m with (_ | k) | (_ | _ | _ | e)
  all_goals rw [hr] at hgo hretry
  · exact .inr ⟨_, .eof h hr⟩
  · by_cases hn : n ≤ worth (answers.take (m + 1))
    · exact .inr ⟨_, .all h hr hn⟩
    · rw [worth_take_succ, hr] at hn
      exact .inl (hgo (by omega) (by simpa [SysResult.retry] using hpatient) rfl)
  · exact .inl (hgo (by simpa [SysResult.worth] using hshort) (by simpa [SysResult.retry] using hpatient) rfl)
  · refine .inl (hgo (by simpa [SysResult.worth] using hshort) ?_ rfl)
    simp [SysResult.retry] at hretry ⊢
    omega
  · refine .inl (hgo (by simpa [SysResult.worth] using hshort) ?_ rfl)
    simp [SysResult.retry] at hretry ⊢
    omega
  · exact .inr ⟨_, .failed h hr⟩

theorem ends_or_going (n : Nat) (answers : Stream' SysResult) (m : Nat) :
    (∃ m' ≤ m, ∃ o, Ends n answers m' o) ∨ Going n (answers.take m) := by
  induction m with
  | zero =>
    rcases Nat.eq_zero_or_pos n with h0 | hpos
    · exact .inl ⟨0, Nat.le_refl 0, _, .nothing h0⟩
    · exact .inr ⟨hpos, show 0 < socketTimeout by decide, by simp⟩
  | succ m ih =>
    rcases ih with ⟨m', hle, he⟩ | hg
    · exact .inl ⟨m', Nat.le_succ_of_le hle, he⟩
    · exact hg.next.symm.imp_left fun ho => ⟨m + 1, Nat.le_refl _, ho⟩

/-- It ends unless interruptions are all there is from some point on. -/
theorem exists_ends {n : Nat} {answers : Stream' SysResult}
    (h : ∀ i, ∃ j, i ≤ j ∧ answers.get j ≠ .errno .eintr) : ∃ m o, Ends n answers m o := by
  obtain ⟨m, hm⟩ := exists_le_countP_take (p := (· ≠ .errno .eintr)) (s := answers)
    (fun i => by simpa using h i) (n + socketTimeout)
  rcases ends_or_going n answers m with ⟨m', -, o, he⟩ | hg
  · exact ⟨m', o, he⟩
  · have := countP_le_worth hg.alive
    have := hg.short
    have := hg.patient
    omega

section
variable {σ : Type*} {call : Nat → Nat → σ → SysResult × σ} {answers : σ → Stream' SysResult}
  {n : Nat} {moved : Nat → σ → Prop}

/-- How the loop ends, if it has, and what it has taken and moved by then. -/
theorem Serves.ended (h : Serves call answers n moved) {fuel : Nat} {o : Transfer} {s : σ}
    (hm : moved 0 s) (ho : (transferLoop call n fuel 0 0 s).1 = some o) :
    ∃ m, Ends n (answers s) m o ∧
      answers (transferLoop call n fuel 0 0 s).2 = (answers s).drop m ∧
      moved (min n (worth ((answers s).take m))) (transferLoop call n fuel 0 0 s).2 := by
  rcases ends_or_going n (answers s) fuel with ⟨m, -, o', he⟩ | hg
  · obtain ⟨s', ha, hm', hrun⟩ := h.ends hm he
    have hsame := transferLoop_more call n fuel (m + 1) 0 0 (s := s) (by rw [ho]; simp)
    rw [Nat.add_comm, hrun] at hsame
    rw [← hsame] at ho ⊢
    obtain rfl := Option.some.inj ho
    exact ⟨m, he, ha, hm'⟩
  · obtain ⟨s', -, -, hrun⟩ := h.going fuel 0 0
      (by rw [Nat.zero_add]; exact hg.short) (by rw [Nat.zero_add]; exact hg.patient) hg.alive hm
    rw [← Nat.add_zero fuel, hrun] at ho
    cases ho

/-- **The loop ends so if and only if the results say so.** -/
theorem Serves.outcome (h : Serves call answers n moved) {o : Transfer} {s : σ} (hm : moved 0 s) :
    (∃ fuel, (transferLoop call n fuel 0 0 s).1 = some o) ↔ ∃ m, Ends n (answers s) m o := by
  constructor
  · rintro ⟨fuel, ho⟩
    obtain ⟨m, he, -⟩ := h.ended hm ho
    exact ⟨m, he⟩
  · rintro ⟨m, he⟩
    obtain ⟨s', -, -, hrun⟩ := h.ends hm he
    exact ⟨m + 1, by rw [← Nat.add_zero (m + 1), hrun]⟩

end

/-! ## Read and Write -/

/-- The value returned. -/
def Transfer.ok : Transfer → Bool
  | .all => true
  | _ => false

/-- `*err`, where it is set. -/
def Transfer.err : Transfer → Option Errno
  | .failed e => some e
  | _ => none

/-- What `Read` has put into its buffer, and the descriptor. -/
structure Reading where
  buf : Bytes
  fd : Descriptor

/-- What `Read` returns, if it has by then, and what it leaves. -/
structure ReadResult where
  ret : Option Bool
  err : Option Errno
  buf : Bytes
  fd : Descriptor

namespace ReaderWriter

def readCall (offset n : Nat) (s : Reading) : SysResult × Reading :=
  match s.fd.read offset n with
  | (r, got, fd) => (r, { buf := s.buf.take offset ++ got, fd })

/-- mirrors src/main/reader_writer.cc:30-57 -/
def read (fuel n : Nat) (fd : Descriptor) : ReadResult :=
  match transferLoop readCall n fuel 0 0 ⟨[], fd⟩ with
  | (o, s) => ⟨o.map Transfer.ok, o.bind Transfer.err, s.buf, s.fd⟩

def writeCall (buf : Bytes) (offset n : Nat) (fd : Descriptor) : SysResult × Descriptor :=
  fd.write buf offset n

/-- mirrors src/main/reader_writer.cc:59-89, `buf` being the `n` bytes at `buf`. -/
def write (fuel : Nat) (buf : Bytes) (fd : Descriptor) : Option Bool × Descriptor :=
  match transferLoop (writeCall buf) buf.length fuel 0 0 fd with
  | (o, fd) => (o.map Transfer.ok, fd)

end ReaderWriter

/-- The calls made, after those of `fd`, ask for exactly what is missing of `n` bytes. -/
def Asked (n : Nat) (fd fd' : Descriptor) : Prop :=
  ∃ new, fd'.asked = fd.asked ++ new ∧ ∀ p ∈ new, p.1 + p.2 = n ∧ 0 < p.2

theorem Asked.call {n : Nat} {fd fd' fd'' : Descriptor} (h : Asked n fd fd') {bytes : Nat}
    (hb : bytes < n) (ha : fd''.asked = fd'.asked ++ [(bytes, n - bytes)]) : Asked n fd fd'' := by
  obtain ⟨new, hnew, hall⟩ := h
  refine ⟨new ++ [(bytes, n - bytes)], by rw [ha, hnew, List.append_assoc], fun p hp => ?_⟩
  rcases List.mem_append.1 hp with hp | hp
  · exact hall p hp
  · rw [List.mem_singleton.1 hp]
    dsimp only
    omega

structure HasRead (n : Nat) (fd : Descriptor) (b : Nat) (s : Reading) : Prop where
  buf : s.buf = fd.incoming.take b
  incoming : s.fd.incoming = fd.incoming.drop b
  asked : Asked n fd s.fd

structure HasWritten (buf : Bytes) (fd : Descriptor) (b : Nat) (fd' : Descriptor) : Prop where
  sent : fd'.sent = fd.sent ++ buf.take b
  asked : Asked buf.length fd fd'

theorem ReaderWriter.read_serves (n : Nat) (fd : Descriptor) :
    Serves ReaderWriter.readCall (fun s => s.fd.answers) n (HasRead n fd) where
  result := fun _ _ _ => rfl
  next := fun _ _ _ => rfl
  moves := by
    intro bytes s h hb
    refine ⟨?_, ?_, h.asked.call hb rfl⟩
    · show s.buf.take bytes ++ s.fd.incoming.take _ = _
      rw [h.buf, h.incoming, Stream'.take_take, Nat.min_self, take_add]
    · show s.fd.incoming.drop _ = _
      rw [h.incoming, Stream'.drop_drop]

theorem ReaderWriter.write_serves (buf : Bytes) (fd : Descriptor) :
    Serves (ReaderWriter.writeCall buf) Descriptor.answers buf.length (HasWritten buf fd) where
  result := fun _ _ _ => rfl
  next := fun _ _ _ => rfl
  moves := by
    intro bytes fd' h hb
    refine ⟨?_, h.asked.call hb rfl⟩
    show fd'.sent ++ (buf.drop bytes).take _ = _
    rw [h.sent, List.append_assoc, List.take_add]

/-- What it means that a transfer of `n` bytes on `fd` is exact: `ret fuel` is
what the call has returned, if it has, when watched for `fuel` turns, `after
fuel` the descriptor then, and `moved fuel b` says that `b` bytes have moved. -/
structure Exact (n : Nat) (fd : Descriptor) (ret : Nat → Option Bool) (after : Nat → Descriptor)
    (moved : Nat → Nat → Prop) : Prop where
  /-- It returns true when `n` bytes have come before anything ends it. -/
  true_iff : (∃ fuel, ret fuel = some true) ↔ ∃ m, n ≤ worth (fd.answers.take m) ∧
    retries (fd.answers.take m) < socketTimeout ∧ ∀ r ∈ fd.answers.take m, r.fatal = false
  /-- It returns false when something ends it before. -/
  false_iff : (∃ fuel, ret fuel = some false) ↔ ∃ m, Going n (fd.answers.take m) ∧
    ((fd.answers.get m).fatal = true ∨
      (fd.answers.get m).retry = true ∧ retries (fd.answers.take m) + 1 = socketTimeout)
  whole : ∀ fuel, ret fuel = some true → moved fuel n
  short : ∀ fuel, ret fuel = some false → ∃ b < n, moved fuel b
  sofar : ∀ fuel, ∃ b ≤ n, moved fuel b
  requests : ∀ fuel, Asked n fd (after fuel)
  /-- The last permitted retry is the last result taken. -/
  gives_up : ∀ m, Going n (fd.answers.take m) → (fd.answers.get m).retry = true →
    retries (fd.answers.take m) + 1 = socketTimeout →
    ∃ fuel, ret fuel = some false ∧ (after fuel).answers = fd.answers.drop (m + 1)
  ends : (∀ i, ∃ j, i ≤ j ∧ fd.answers.get j ≠ .errno .eintr) → ∃ fuel, ret fuel ≠ none

theorem Ends.all_worth {n m : Nat} {answers : Stream' SysResult} (h : Ends n answers m .all) :
    n ≤ worth (answers.take m) := by
  cases h with
  | nothing h0 => omega
  | all _ _ hn => exact hn

theorem Ends.worth_lt {n m : Nat} {answers : Stream' SysResult} {o : Transfer}
    (h : Ends n answers m o) (ho : o.ok = false) : worth (answers.take m) < n := by
  have hlast : ∀ {m}, Going n (answers.take m) → (answers.get m).worth = 0 →
      worth (answers.take (m + 1)) < n := by
    intro m hg hw
    rw [worth_take_succ, hw]
    exact hg.short
  cases h with
  | nothing _ => cases ho
  | all _ _ _ => cases ho
  | slow hg hr _ => exact hlast hg (SysResult.of_retry hr).1
  | eof hg hr => exact hlast hg (by rw [hr]; exact Nat.zero_min _)
  | failed hg hr => exact hlast hg (by rw [hr]; rfl)

theorem ends_all_iff {n : Nat} {answers : Stream' SysResult} :
    (∃ m, Ends n answers m .all) ↔ ∃ m, n ≤ worth (answers.take m) ∧
      retries (answers.take m) < socketTimeout ∧ ∀ r ∈ answers.take m, r.fatal = false := by
  constructor
  · rintro ⟨m, he⟩
    cases he with
    | nothing h0 => exact ⟨0, by omega, show 0 < socketTimeout by decide, by simp⟩
    | @all m k hg hk hn =>
      refine ⟨m + 1, hn, ?_, forall_take_succ.2 ⟨hg.alive, by rw [hk]; rfl⟩⟩
      rw [retries_take_succ, hk]
      exact hg.patient
  · rintro ⟨m, hn, hw, hf⟩
    rcases ends_or_going n answers m with ⟨m', hle, o, he⟩ | hg
    · obtain ⟨d, rfl⟩ := Nat.exists_eq_add_of_le hle
      rw [take_add, List.forall_mem_append] at hf
      rw [take_add, retries_append] at hw
      -- none of the first m results ends it badly
      cases he with
      | nothing h0 => exact ⟨_, .nothing h0⟩
      | all hg hk hn' => exact ⟨_, .all hg hk hn'⟩
      | slow hg hr hlast =>
        rw [retries_take_succ, hr, Bool.toNat_true] at hw
        omega
      | eof hg hr =>
        have hlast := (forall_take_succ.1 hf.1).2
        rw [hr] at hlast
        cases hlast
      | @failed _ e hg hr =>
        have hlast := (forall_take_succ.1 hf.1).2
        rw [hr] at hlast
        cases hlast
    · exact absurd hg.short (Nat.not_lt.2 hn)

theorem ends_not_ok_iff {n : Nat} {answers : Stream' SysResult} :
    (∃ m o, Ends n answers m o ∧ o.ok = false) ↔ ∃ m, Going n (answers.take m) ∧
      ((answers.get m).fatal = true ∨
        (answers.get m).retry = true ∧ retries (answers.take m) + 1 = socketTimeout) := by
  constructor
  · rintro ⟨m, o, he, ho⟩
    cases he with
    | nothing _ => cases ho
    | all _ _ _ => cases ho
    | slow hg hr hlast => exact ⟨_, hg, .inr ⟨hr, hlast⟩⟩
    | eof hg hr => exact ⟨_, hg, .inl (by rw [hr]; rfl)⟩
    | failed hg hr => exact ⟨_, hg, .inl (by rw [hr]; rfl)⟩
  · rintro ⟨m, hg, hf | ⟨hr, hlast⟩⟩
    · rcases hr : answers.get m with (_ | k) | (_ | _ | _ | e)
      · exact ⟨_, _, .eof hg hr, rfl⟩
      · rw [hr] at hf; cases hf
      · rw [hr] at hf; cases hf
      · rw [hr] at hf; cases hf
      · rw [hr] at hf; cases hf
      · exact ⟨_, _, .failed hg hr, rfl⟩
    · exact ⟨_, _, .slow hg hr hlast, rfl⟩

theorem Transfer.ok_iff {o : Transfer} : o.ok = true ↔ o = .all := by
  cases o <;> simp [Transfer.ok]

/-- The loop is exact, whatever call it makes. -/
theorem Serves.exact {σ : Type*} {call : Nat → Nat → σ → SysResult × σ} (fdOf : σ → Descriptor)
    {n : Nat} {moved : Nat → σ → Prop} {s : σ}
    (h : Serves call (fun s => (fdOf s).answers) n moved) (hm : moved 0 s)
    (hasked : ∀ b s', moved b s' → Asked n (fdOf s) (fdOf s')) :
    Exact n (fdOf s) (fun fuel => (transferLoop call n fuel 0 0 s).1.map Transfer.ok)
      (fun fuel => fdOf (transferLoop call n fuel 0 0 s).2)
      (fun fuel b => moved b (transferLoop call n fuel 0 0 s).2) where
  true_iff := by
    rw [← ends_all_iff, ← h.outcome hm]
    simp only [Option.map_eq_some_iff, Transfer.ok_iff, exists_eq_right]
  false_iff := by
    rw [← ends_not_ok_iff]
    simp only [Option.map_eq_some_iff]
    constructor
    · rintro ⟨fuel, o, ho, hok⟩
      obtain ⟨m, he⟩ := (h.outcome hm).1 ⟨fuel, ho⟩
      exact ⟨m, o, he, hok⟩
    · rintro ⟨m, o, he, hok⟩
      obtain ⟨fuel, ho⟩ := (h.outcome hm).2 ⟨m, he⟩
      exact ⟨fuel, o, ho, hok⟩
  whole := by
    intro fuel hr
    obtain ⟨o, ho, hok⟩ := Option.map_eq_some_iff.1 hr
    obtain rfl := Transfer.ok_iff.1 hok
    obtain ⟨m, he, -, hm'⟩ := h.ended hm ho
    rwa [Nat.min_eq_left he.all_worth] at hm'
  short := by
    intro fuel hr
    obtain ⟨o, ho, hok⟩ := Option.map_eq_some_iff.1 hr
    obtain ⟨m, he, -, hm'⟩ := h.ended hm ho
    exact ⟨_, Nat.lt_of_le_of_lt (Nat.min_le_right ..) (he.worth_lt hok), hm'⟩
  sofar := fun fuel => h.sofar fuel 0 0 hm (Nat.zero_le n)
  requests := by
    intro fuel
    obtain ⟨b, -, hb⟩ := h.sofar fuel 0 0 hm (Nat.zero_le n)
    exact hasked b _ hb
  gives_up := by
    intro m hg hr hlast
    obtain ⟨s', ha, -, hrun⟩ := h.ends hm (.slow hg hr hlast)
    refine ⟨m + 1 + 1 + 0, ?_, ?_⟩
    · rw [hrun]; rfl
    · rw [hrun]; exact ha
  ends := by
    intro hi
    obtain ⟨m, o, he⟩ := exists_ends (n := n) hi
    obtain ⟨fuel, ho⟩ := (h.outcome hm).2 ⟨m, he⟩
    exact ⟨fuel, by rw [ho]; simp⟩

theorem Exact.imp {n : Nat} {fd : Descriptor} {ret : Nat → Option Bool} {after : Nat → Descriptor}
    {moved moved' : Nat → Nat → Prop} (h : Exact n fd ret after moved)
    (hi : ∀ fuel b, moved fuel b → moved' fuel b) : Exact n fd ret after moved' where
  true_iff := h.true_iff
  false_iff := h.false_iff
  whole := fun fuel hr => hi _ _ (h.whole fuel hr)
  short := fun fuel hr => (h.short fuel hr).imp fun _ hb => ⟨hb.1, hi _ _ hb.2⟩
  sofar := fun fuel => (h.sofar fuel).imp fun _ hb => ⟨hb.1, hi _ _ hb.2⟩
  requests := h.requests
  gives_up := h.gives_up
  ends := h.ends

/-- **Blocking transfers are exact.** `Read` and `Write` return true if and only
if `n` bytes come before any end of the file, any other error and the last
permitted retry, and these bytes have then moved in order; they ask for what is
missing and no more, return false on the last permitted retry, and end unless
interruptions are all there is from some point on. -/
theorem transfers_exact :
    (∀ (n : Nat) (fd : Descriptor), Exact n fd
      (fun fuel => (ReaderWriter.read fuel n fd).ret) (fun fuel => (ReaderWriter.read fuel n fd).fd)
      fun fuel b => (ReaderWriter.read fuel n fd).buf = fd.incoming.take b ∧
        (ReaderWriter.read fuel n fd).fd.incoming = fd.incoming.drop b) ∧
    (∀ (buf : Bytes) (fd : Descriptor), Exact buf.length fd
      (fun fuel => (ReaderWriter.write fuel buf fd).1) (fun fuel => (ReaderWriter.write fuel buf fd).2)
      fun fuel b => (ReaderWriter.write fuel buf fd).2.sent = fd.sent ++ buf.take b) := by
  constructor
  · intro n fd
    have h := (ReaderWriter.read_serves n fd).exact Reading.fd (s := ⟨[], fd⟩)
      ⟨rfl, rfl, [], (List.append_nil _).symm, by simp⟩ fun _ _ hr => hr.asked
    exact h.imp fun _ _ hr => ⟨hr.buf, hr.incoming⟩
  · intro buf fd
    have h := (ReaderWriter.write_serves buf fd).exact id (s := fd)
      ⟨by simp, [], (List.append_nil _).symm, by simp⟩ fun _ _ hw => hw.asked
    exact h.imp fun _ _ hw => hw.sent

end Kinetic.L1
