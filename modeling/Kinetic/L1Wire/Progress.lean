import Kinetic.L1Wire.Packet

/-!
# Writers and readers that get on

A writer that stops for want of room has something left to write
(`write_pending`), and a writer with something left to write, called when the
descriptor is writable, either gets a byte out or fails (`write_progress`). It fails
on no other account than the transport's (`write_sound`). A reader in the middle of
a packet, called when the descriptor is readable, takes a byte (`read_progress`).
-/
namespace Kinetic.Core.Socket

/-- Signals apart, the next `write` does not answer `EAGAIN`. -/
def Writable : List IoResult → Prop
  | [] => False
  | .intr :: rest => Writable rest
  | .again :: _ => False
  | _ :: _ => True

instance decidableWritable : (writes : List IoResult) → Decidable (Writable writes)
  | [] => .isFalse id
  | .intr :: rest => decidableWritable rest
  | .again :: _ => .isFalse id
  | .count _ :: _ => .isTrue trivial
  | .error :: _ => .isTrue trivial

/-- Signals apart, the next `read` delivers a byte, if there is one. -/
def Readable : List IoResult → Prop
  | [] => False
  | .intr :: rest => Readable rest
  | .count n :: _ => 0 < n
  | .again :: _ => False
  | .error :: _ => False

instance decidableReadable : (reads : List IoResult) → Decidable (Readable reads)
  | [] => .isFalse id
  | .intr :: rest => decidableReadable rest
  | .count n :: _ => inferInstanceAs (Decidable (0 < n))
  | .again :: _ => .isFalse id
  | .error :: _ => .isFalse id

/-- The transport reports no error to a writer. -/
structure Sound (s : Socket) : Prop where
  fstats : false ∉ s.fstats
  writes : ∀ r ∈ s.writes, r ≠ .count 0 ∧ r ≠ .error

theorem Gave.sound {s t : Socket} {out : Bytes} (h : Gave s t out) (hs : Sound s) : Sound t :=
  ⟨fun hm => hs.fstats (h.fstats.subset hm), fun r hr => hs.writes r (h.writes.subset hr)⟩

theorem Sound.fstat {s : Socket} (h : Sound s) : s.fstat.1 = true := by
  unfold Socket.fstat
  split
  · rfl
  · rename_i b rest hf
    cases b with
    | true => rfl
    | false => exact absurd (by rw [hf]; exact List.mem_cons_self) h.fstats

theorem fstat_same (s : Socket) : s.fstat.2.writes = s.writes ∧ s.fstat.2.sent = s.sent := by
  unfold fstat
  split <;> exact ⟨rfl, rfl⟩

theorem Gave.length_le {s t : Socket} {out : Bytes} (h : Gave s t out) :
    s.sent.length ≤ t.sent.length := by
  rw [h.sent, List.length_append]
  omega

end Kinetic.Core.Socket

open Kinetic.Core Kinetic.Core.Socket

namespace Kinetic.L1

namespace NonblockingStringWriter

theorem writeLoop_pending (fuel : Nat) (w : NonblockingStringWriter) (k : Socket)
    (hf : k.writes.length < fuel) (h : (w.writeLoop fuel k).1 = .inProgress) :
    (w.writeLoop fuel k).2.1.rest ≠ [] := by
  induction fuel generalizing w k with
  | zero => omega
  | succ fuel ih =>
    unfold writeLoop at h ⊢
    split
    · rename_i hlt
      rw [if_pos hlt] at h
      have hne : w.rest ≠ [] := by
        intro he
        have := List.drop_eq_nil_iff.1 he
        omega
      have hle := k.fstat_gave.writes.length_le
      split
      all_goals rename_i k₁ hfs; simp only [hfs] at h hle
      · cases h
      obtain ⟨-, -, -, -, -, hdec⟩ := k₁.send_gave w.rest
      split
      all_goals rename_i he; simp only [he] at h hdec
      · cases h
      · have := hdec (by simp)
        exact ih _ _ (by omega) h
      · have := hdec (by simp)
        exact ih _ _ (by omega) h
      · exact hne
      · cases h
    · rename_i hlt
      rw [if_neg hlt] at h
      cases h

theorem write_pending {w : NonblockingStringWriter} {k : Socket} (h : (w.write k).1 = .inProgress) :
    (w.write k).2.1.rest ≠ [] :=
  writeLoop_pending _ w k (Nat.lt_succ_self _) h

theorem writeLoop_sent (fuel : Nat) (w : NonblockingStringWriter) (k : Socket)
    (hf : k.writes.length < fuel) :
    k.sent.length ≤ (w.writeLoop fuel k).2.2.sent.length := by
  obtain ⟨out, h⟩ := writeLoop_spec fuel w k hf
  exact h.gave.length_le

theorem writeLoop_progress (fuel : Nat) (w : NonblockingStringWriter) (k : Socket)
    (hf : k.writes.length < fuel) (hw : Writable k.writes) (hne : w.rest ≠ []) :
    (w.writeLoop fuel k).1 = .failed ∨ k.sent.length < (w.writeLoop fuel k).2.2.sent.length := by
  induction fuel generalizing w k with
  | zero => omega
  | succ fuel ih =>
    have hlt : w.bytesWritten < w.s.length := by
      by_contra hge
      exact hne (List.drop_eq_nil_of_le (by omega))
    obtain ⟨hkw, hks⟩ := k.fstat_same
    unfold writeLoop
    rw [if_pos hlt]
    cases hfs : k.fstat with
    | mk b k₁ =>
    rw [hfs] at hkw hks
    dsimp only at hkw hks
    rw [← hkw] at hf hw
    rw [← hks]
    cases b with
    | false => exact .inl rfl
    | true =>
      dsimp only
      cases hrs : k₁.writes with
      | nil => rw [hrs] at hw; exact absurd hw id
      | cons r rest =>
        rw [hrs] at hf hw
        rw [Socket.send, hrs]
        cases r with
        | again => exact absurd hw id
        | error => exact .inl rfl
        | intr => exact ih w { k₁ with writes := rest } (by simpa using hf) hw hne
        | count n =>
          have hpos := List.length_pos_iff.2 hne
          dsimp only
          cases hm : min n w.rest.length with
          | zero => exact .inl rfl
          | succ m =>
            refine .inr (Nat.lt_of_lt_of_le ?_ (writeLoop_sent fuel _
              { k₁ with writes := rest, sent := k₁.sent ++ w.rest.take n } (by simpa using hf)))
            simp only [List.length_append, List.length_take]
            omega

/-- **A writer on a writable descriptor** gets a byte out, or fails. -/
theorem write_progress {w : NonblockingStringWriter} {k : Socket} (hw : Writable k.writes)
    (hne : w.rest ≠ []) :
    (w.write k).1 = .failed ∨ k.sent.length < (w.write k).2.2.sent.length :=
  writeLoop_progress _ w k (Nat.lt_succ_self _) hw hne

theorem writeLoop_sound (fuel : Nat) (w : NonblockingStringWriter) (k : Socket)
    (hk : Sound k) : (w.writeLoop fuel k).1 ≠ .failed := by
  induction fuel generalizing w k with
  | zero => simp [writeLoop]
  | succ fuel ih =>
    unfold writeLoop
    split
    · rename_i hlt
      have hpos : 0 < w.rest.length := by
        rw [rest, List.length_drop]
        omega
      have hs := hk.fstat
      have hk₁ := k.fstat_gave.sound hk
      cases hfs : k.fstat with
      | mk b k₁ =>
      rw [hfs] at hs hk₁
      dsimp only at hs hk₁
      subst hs
      dsimp only
      cases hrs : k₁.writes with
      | nil => rw [Socket.send, hrs]; simp
      | cons r rest =>
        have hr := hk₁.writes r (by rw [hrs]; exact List.mem_cons_self)
        have hrest : ∀ q ∈ rest, q ≠ .count 0 ∧ q ≠ .error := fun q hq =>
          hk₁.writes q (by rw [hrs]; exact List.mem_cons_of_mem _ hq)
        rw [Socket.send, hrs]
        cases r with
        | again => simp
        | error => exact absurd rfl hr.2
        | intr => exact ih _ _ ⟨hk₁.fstats, hrest⟩
        | count n =>
          dsimp only
          cases hm : min n w.rest.length with
          | zero =>
            rcases Nat.eq_zero_or_pos n with rfl | hn'
            · exact absurd rfl hr.1
            · omega
          | succ m => exact ih _ _ ⟨hk₁.fstats, hrest⟩
    · simp

end NonblockingStringWriter

namespace NonblockingStringReader

theorem readLoop_progress (fuel : Nat) (r : NonblockingStringReader) (k : Socket)
    (hf : k.reads.length < fuel) (hk : Readable k.reads) (hin : k.incoming ≠ [])
    (hlt : r.buf.length < r.size) :
    (r.readLoop fuel k).2.2.incoming.length < k.incoming.length := by
  induction fuel generalizing k with
  | zero => omega
  | succ fuel ih =>
    unfold readLoop
    rw [if_pos hlt]
    cases hrs : k.reads with
    | nil => rw [hrs] at hk; exact absurd hk id
    | cons a rest =>
      rw [hrs] at hf hk
      rw [Socket.recv, hrs]
      cases a with
      | again => exact absurd hk id
      | error => exact absurd hk id
      | intr => exact ih { k with reads := rest } (by simpa using hf) hk hin
      | count n =>
        obtain ⟨n, rfl⟩ := Nat.exists_eq_add_one.2 (show 0 < n from hk)
        have hpos := List.length_pos_iff.2 hin
        dsimp only
        rw [if_neg hin]
        cases hg : (k.incoming.take (min (n + 1) (r.size - r.buf.length))).length with
        | zero =>
          rw [List.length_take] at hg
          omega
        | succ m =>
          obtain ⟨got, ht⟩ := readLoop_took fuel
            { r with buf := r.buf ++ k.incoming.take (min (n + 1) (r.size - r.buf.length)) }
            { k with
              reads := rest
              incoming := k.incoming.drop (min (n + 1) (r.size - r.buf.length)) }
          have hle := congrArg List.length ht.stream
          simp only [List.length_append, List.length_drop] at hle
          rw [List.length_take] at hg
          dsimp only
          omega

theorem read_progress {r : NonblockingStringReader} {k : Socket} (hk : Readable k.reads)
    (hin : k.incoming ≠ []) (hlt : r.buf.length < r.size) :
    (r.read k).2.2.incoming.length < k.incoming.length :=
  readLoop_progress _ r k (Nat.lt_succ_self _) hk hin hlt

end NonblockingStringReader

namespace NonblockingPacketReader

theorem read_progress (lib : Lib) {c : ReadState} (h : Pending lib c) (hk : Readable c.socket.reads)
    (hin : c.socket.incoming ≠ []) :
    (read lib c).2.socket.incoming.length < c.socket.incoming.length := by
  have hread : (readString c).2.socket.incoming.length < c.socket.incoming.length :=
    NonblockingStringReader.read_progress hk hin h.short
  unfold read readLoop
  split
  all_goals rename_i c' he; simp only [he] at hread
  · exact hread
  · exact hread
  · have hsock : (transition lib (store c')).2.socket = c'.socket := by simp
    split
    · rw [store_socket]; exact hread
    · split
      all_goals rename_i c'' hw; rw [hw] at hsock
      · rw [← hsock] at hread; exact hread
      · obtain ⟨got, ht⟩ := readLoop_took lib 5 c''
        have hle := congrArg List.length ht.stream
        rw [List.length_append, hsock] at hle
        omega

end NonblockingPacketReader

namespace NonblockingPacketWriter

variable (lib : Lib)

theorem writeLoop_pending (fuel : Nat) (w : NonblockingPacketWriter) (k : Socket)
    (hf : w.state.rank < fuel) (h : (writeLoop lib fuel w k).1 = .inProgress) :
    (writeLoop lib fuel w k).2.1.writer.rest ≠ [] := by
  induction fuel generalizing w k with
  | zero => omega
  | succ fuel ih =>
    have hp := NonblockingStringWriter.write_pending (w := w.writer) (k := k)
    unfold writeLoop at h ⊢
    split
    all_goals rename_i sw k₁ he; simp only [he] at h hp
    · exact hp trivial
    · cases h
    · split
      all_goals rename_i hs; simp only [hs, if_true, if_false] at h
      · split at h <;> cases h
      · have hr := transition_rank lib { w with writer := sw } hs
        split
        all_goals rename_i w' ht; simp only [ht] at h hr
        · cases h
        · have := hr trivial
          exact ih w' k₁ (by omega) h

theorem write_pending {w : NonblockingPacketWriter} {k : Socket}
    (h : (w.write lib k).1 = .inProgress) : (w.write lib k).2.1.writer.rest ≠ [] := by
  unfold write at h ⊢
  split
  all_goals rename_i k' hf; simp only [hf] at h
  · cases h
  · exact writeLoop_pending lib 6 w k' (by cases w.state <;> decide) h

/-- **A packet on a writable descriptor** gets a byte out, or fails. -/
theorem write_progress {w : NonblockingPacketWriter} {k : Socket} (hw : Writable k.writes)
    (hne : w.writer.rest ≠ []) :
    (w.write lib k).1 = .failed ∨ k.sent.length < (w.write lib k).2.2.sent.length := by
  obtain ⟨hkw, hks⟩ := k.fstat_same
  unfold write
  cases hfs : k.fstat with
  | mk b k₁ =>
  rw [hfs] at hkw hks
  dsimp only at hkw hks
  rw [← hks]
  cases b with
  | false => exact .inl rfl
  | true =>
    have hp := NonblockingStringWriter.write_progress (k := k₁) (by rw [hkw]; exact hw) hne
    dsimp only
    unfold writeLoop
    split
    all_goals rename_i sw k₂ he; simp only [he] at hp
    · exact .inr (hp.resolve_left (by simp))
    · exact .inl rfl
    · have hlt := hp.resolve_left (by simp)
      split
      · have := k₂.fstat_same.2
        split
        all_goals rename_i k₃ hf; simp only [hf] at this
        · exact .inl rfl
        · exact .inr (by rw [this]; exact hlt)
      · split
        · exact .inl rfl
        · obtain ⟨out, ho⟩ := writeLoop_spec lib 5 _ k₂
          exact .inr (Nat.lt_of_lt_of_le hlt ho.gave.length_le)

theorem transition_message (w : NonblockingPacketWriter) :
    (transition lib w).2.message = w.message := by
  unfold transition
  split
  · unfold transitionFromMagic
    split <;> rfl
  all_goals rfl

theorem writeLoop_message (fuel : Nat) (w : NonblockingPacketWriter) (k : Socket) :
    (writeLoop lib fuel w k).2.1.message = w.message := by
  induction fuel generalizing w k with
  | zero => rfl
  | succ fuel ih =>
    unfold writeLoop
    split
    · rfl
    · rfl
    · rename_i sw k' _
      split
      · split <;> rfl
      · have ht := transition_message lib { w with writer := sw }
        split
        all_goals rename_i w' hw; simp only [hw] at ht
        · exact ht
        · exact (ih w' k').trans ht

theorem write_message (w : NonblockingPacketWriter) (k : Socket) :
    (w.write lib k).2.1.message = w.message := by
  unfold write
  split
  · rfl
  · exact writeLoop_message lib 6 w _

theorem writeLoop_sound (fuel : Nat) (w : NonblockingPacketWriter) (k : Socket)
    (hi : lib.serializeToString w.message = true) (hk : Sound k) :
    (writeLoop lib fuel w k).1 ≠ .failed := by
  induction fuel generalizing w k with
  | zero => simp [writeLoop]
  | succ fuel ih =>
    have hw := NonblockingStringWriter.writeLoop_sound (k.writes.length + 1) w.writer k hk
    obtain ⟨out, hg, -⟩ := w.writer.write_spec k
    have hk' := hg.sound hk
    unfold writeLoop
    rw [show w.writer.writeLoop (k.writes.length + 1) k = w.writer.write k from rfl] at hw
    split
    all_goals rename_i sw k₁ he; simp only [he] at hw hk'
    · simp
    · exact absurd rfl hw
    · split
      · have hf := hk'.fstat
        split
        all_goals rename_i k₂ hfs; simp only [hfs] at hf
        · cases hf
        · simp
      · have ht : (transition lib { w with writer := sw }).1 = true := by
          unfold transition
          split
          · unfold transitionFromMagic
            rw [if_pos hi]
          all_goals rfl
        have hm := transition_message lib { w with writer := sw }
        split
        all_goals rename_i w' hw'; simp only [hw'] at ht hm
        · cases ht
        · exact ih w' k₁ (by rw [hm]; exact hi) hk'

/-- **A writer fails** only if the transport does, or its message cannot be
serialized. -/
theorem write_sound {w : NonblockingPacketWriter} {k : Socket}
    (hi : lib.serializeToString w.message = true) (hk : Sound k) : (w.write lib k).1 ≠ .failed := by
  have hf := hk.fstat
  have hk' := k.fstat_gave.sound hk
  unfold write
  split
  all_goals rename_i k₁ hfs; simp only [hfs] at hf hk'
  · cases hf
  · exact writeLoop_sound lib 6 w k₁ hi hk'

end NonblockingPacketWriter
end Kinetic.L1
