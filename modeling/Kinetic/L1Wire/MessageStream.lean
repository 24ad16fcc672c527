import Kinetic.L1Wire.RoundTrip

/-!
# MessageStream

The blocking implementation of the same framing: nine header bytes at once, the
magic byte checked behind them, the message parsed before the value is read. It
works on any byte stream (`ByteStream`); what it makes of the bytes is what
`NonblockingPacketWriter` writes and what `NonblockingPacketReader` reads.
-/
open Kinetic.Core Kinetic.Core.Socket

namespace Kinetic.L1

/-- mirrors include/kinetic/byte_stream.h:29-36, for a stream with states in
`σ` and incoming values in `ω`: `none` is false or `NULL`. -/
structure ByteStream (σ : Type*) (ω : Type) where
  read : Nat → σ → Option Bytes × σ
  write : Bytes → σ → Bool × σ
  readValue : Nat → σ → Option ω × σ
  writeValue : Bytes → σ → Bool × σ

/-- mirrors include/kinetic/message_stream.h:32-36 -/
inductive MessageStreamReadStatus where
  | success
  | internalError
  | tooLarge
  deriving DecidableEq, Repr

/-- What `ReadMessage` returns, what it leaves in `*message` and `*value`, and
the stream. -/
structure ReadMessageResult (σ : Type*) (ω : Type) where
  status : MessageStreamReadStatus
  message : Message
  value : Option ω
  stream : σ

namespace MessageStream

variable {σ : Type*} {ω : Type}

/-- mirrors src/main/message_stream.cc:156-173: `message_size` and `value_size`. -/
def readHeader (bs : ByteStream σ ω) (s : σ) : Option (Nat × Nat) × σ :=
  match bs.read 9 s with
  | (none, s) => (none, s)
  | (some header, s) =>
    if header.take 1 ≠ magicString then (none, s)
    else (some (fromBe32 ((header.drop 1).take 4), fromBe32 ((header.drop 5).take 4)), s)

/-- mirrors src/main/message_stream.cc:37-76. `ParseFromArray` takes the size as
an `int`, which a size below 2^31 is. -/
def readMessage (lib : Lib) (maxMessageSizeBytes : Nat) (bs : ByteStream σ ω) (message : Message)
    (value : Option ω) (s : σ) : ReadMessageResult σ ω :=
  match readHeader bs s with
  | (none, s) => ⟨.internalError, message, value, s⟩
  | (some (messageSize, valueSize), s) =>
    if messageSize > maxMessageSizeBytes then ⟨.tooLarge, message, value, s⟩
    else
      match bs.read messageSize s with
      | (none, s) => ⟨.internalError, message, value, s⟩
      | (some messageBytes, s) =>
        match lib.parseMessage messageBytes with
        | (false, message) => ⟨.internalError, message, value, s⟩
        | (true, message) =>
          match bs.readValue valueSize s with
          | (none, s) => ⟨.internalError, message, none, s⟩
          | (some value, s) => ⟨.success, message, some value, s⟩

/-- mirrors src/main/message_stream.cc:175-183 -/
def writeHeader (bs : ByteStream σ ω) (messageSize valueSize : Nat) (s : σ) : Bool × σ :=
  bs.write (magicString ++ be32 messageSize ++ be32 valueSize) s

/-- mirrors src/main/message_stream.cc:78-103; `byteSize` is `ByteSize()`. -/
def writeMessage (lib : Lib) (byteSize : Message → Nat) (bs : ByteStream σ ω) (message : Message)
    (value : Bytes) (s : σ) : Nat × σ :=
  match writeHeader bs (byteSize message) value.length s with
  | (false, s) => (1, s)
  | (true, s) =>
    if lib.serializeToString message then
      match bs.write (lib.serializeMessage message) s with
      | (false, s) => (3, s)
      | (true, s) =>
        match bs.writeValue value s with
        | (false, s) => (4, s)
        | (true, s) => (0, s)
    else (2, s)

end MessageStream

/-- The stream accepts all bytes; `sent` are those it has accepted. -/
structure Accepts {σ : Type*} (bs : ByteStream σ Bytes) (sent : σ → Bytes) : Prop where
  write : ∀ b s, (bs.write b s).1 = true ∧ sent (bs.write b s).2 = sent s ++ b
  writeValue : ∀ b s, (bs.writeValue b s).1 = true ∧ sent (bs.writeValue b s).2 = sent s ++ b

/-- The stream delivers exactly the bytes that are asked for, or fails if they
are not there; `left` are those not delivered yet. -/
structure Delivers {σ : Type*} (bs : ByteStream σ Bytes) (left : σ → Bytes) : Prop where
  read : ∀ n s, n ≤ (left s).length →
    (bs.read n s).1 = some ((left s).take n) ∧ left (bs.read n s).2 = (left s).drop n
  ended : ∀ n s, (left s).length < n → (bs.read n s).1 = none
  readValue : ∀ n s, n ≤ (left s).length →
    (bs.readValue n s).1 = some ((left s).take n) ∧ left (bs.readValue n s).2 = (left s).drop n
  valueEnded : ∀ n s, (left s).length < n → (bs.readValue n s).1 = none

namespace MessageStream

variable {σ : Type*} {lib : Lib} {bs : ByteStream σ Bytes} {s : σ}

/-! ## Writing -/

theorem writeMessage_accepted {sent : σ → Bytes} (ha : Accepts bs sent) {byteSize : Message → Nat}
    {m : Message} (hb : byteSize m = (lib.serializeMessage m).length)
    (hi : lib.serializeToString m = true) (v : Bytes) (s : σ) :
    (writeMessage lib byteSize bs m v s).1 = 0 ∧
      sent (writeMessage lib byteSize bs m v s).2 = sent s ++ encode lib m v := by
  unfold writeMessage writeHeader
  obtain ⟨h1, h1'⟩ := ha.write (magicString ++ be32 (byteSize m) ++ be32 v.length) s
  split
  all_goals rename_i s₁ he₁; simp only [he₁] at h1 h1'
  · cases h1
  rw [if_pos hi]
  obtain ⟨h2, h2'⟩ := ha.write (lib.serializeMessage m) s₁
  split
  all_goals rename_i s₂ he₂; simp only [he₂] at h2 h2'
  · cases h2
  obtain ⟨h3, h3'⟩ := ha.writeValue v s₂
  split
  all_goals rename_i s₃ he₃; simp only [he₃] at h3 h3'
  · cases h3
  refine ⟨rfl, ?_⟩
  rw [h3', h2', h1', hb]
  simp only [encode, frame, List.append_assoc]

theorem writeMessage_uninitialized {sent : σ → Bytes} (ha : Accepts bs sent)
    {byteSize : Message → Nat} {m : Message} (hi : lib.serializeToString m = false) (v : Bytes) (s : σ) :
    (writeMessage lib byteSize bs m v s).1 = 2 := by
  unfold writeMessage writeHeader
  obtain ⟨h1, -⟩ := ha.write (magicString ++ be32 (byteSize m) ++ be32 v.length) s
  split
  all_goals rename_i s₁ he₁; simp only [he₁] at h1
  · cases h1
  rw [if_neg (by simp [hi])]

/-! ## Reading -/

section
variable {left : σ → Bytes}

theorem read_some (hd : Delivers bs left) {n : Nat} {b rest : Bytes} (hb : b.length = n)
    (hs : left s = b ++ rest) : ∃ t, bs.read n s = (some b, t) ∧ left t = rest := by
  obtain ⟨h, h'⟩ := hd.read n s (by rw [hs, List.length_append]; omega)
  rw [hs, List.take_left' hb] at h
  rw [hs, List.drop_left' hb] at h'
  exact ⟨_, Prod.ext h rfl, h'⟩

theorem readValue_some (hd : Delivers bs left) {n : Nat} {b rest : Bytes} (hb : b.length = n)
    (hs : left s = b ++ rest) : ∃ t, bs.readValue n s = (some b, t) ∧ left t = rest := by
  obtain ⟨h, h'⟩ := hd.readValue n s (by rw [hs, List.length_append]; omega)
  rw [hs, List.take_left' hb] at h
  rw [hs, List.drop_left' hb] at h'
  exact ⟨_, Prod.ext h rfl, h'⟩

theorem split_at (n : Nat) (b : Bytes) : b.length < n ∨ ∃ x rest, x.length = n ∧ b = x ++ rest := by
  rcases Nat.lt_or_ge b.length n with hlt | hge
  · exact .inl hlt
  · exact .inr ⟨b.take n, b.drop n, by rw [List.length_take]; omega, (List.take_append_drop n b).symm⟩

theorem readHeader_some (hd : Delivers bs left) {ml vl rest : Bytes} (hml : ml.length = 4)
    (hvl : vl.length = 4) (hs : left s = magicString ++ (ml ++ (vl ++ rest))) :
    ∃ t, readHeader bs s = (some (fromBe32 ml, fromBe32 vl), t) ∧ left t = rest := by
  have h9 : (magicString ++ (ml ++ vl)).length = 9 := by simp [magicString, hml, hvl]
  have h5 : (magicString ++ ml).length = 5 := by simp [magicString, hml]
  have hs' : left s = magicString ++ (ml ++ vl) ++ rest := by
    rw [hs]; simp only [List.append_assoc]
  obtain ⟨t, ht, hl⟩ := read_some hd h9 hs'
  refine ⟨t, ?_, hl⟩
  unfold readHeader
  rw [ht]
  dsimp only
  have h1 : (magicString ++ (ml ++ vl)).take 1 = magicString := List.take_left' rfl
  have h1' : (magicString ++ (ml ++ vl)).drop 1 = ml ++ vl := List.drop_left' rfl
  rw [if_neg (not_not.2 h1), h1', List.take_left' hml, ← List.append_assoc, List.drop_left' h5,
    List.take_of_length_le (Nat.le_of_eq hvl)]

theorem readHeader_eq_some (hd : Delivers bs left) {sizes : Nat × Nat} {t : σ}
    (h : readHeader bs s = (some sizes, t)) :
    ∃ ml vl : Bytes, ml.length = 4 ∧ vl.length = 4 ∧ sizes = (fromBe32 ml, fromBe32 vl) ∧
      left s = magicString ++ (ml ++ (vl ++ left t)) := by
  rcases split_at 9 (left s) with hlt | ⟨header, rest, h9, hs⟩
  · have hn := hd.ended 9 s hlt
    unfold readHeader at h
    split at h
    all_goals rename_i he; simp only [he] at hn
    · cases h
    · cases hn
  · obtain ⟨x, tail, hx, rfl⟩ := (split_at 1 header).resolve_left (by omega)
    obtain ⟨ml, vl, hml, rfl⟩ := (split_at 4 tail).resolve_left (by simp at h9; omega)
    have hvl : vl.length = 4 := by simp only [List.length_append] at h9; omega
    obtain ⟨t', ht, hl⟩ := read_some hd h9 hs
    have hm : x = magicString := by
      by_contra hne
      unfold readHeader at h
      rw [ht] at h
      dsimp only at h
      rw [List.take_left' hx, if_pos hne] at h
      cases h
    subst hm
    have hs' : left s = magicString ++ (ml ++ (vl ++ rest)) := by
      rw [hs]; simp only [List.append_assoc]
    obtain ⟨t'', ht', hl'⟩ := readHeader_some hd hml hvl hs'
    rw [ht'] at h
    cases h
    exact ⟨ml, vl, hml, hvl, rfl, by rw [hl', hs]; simp only [List.append_assoc]⟩

variable {maxSize : Nat} {message : Message} {value : Option Bytes}

theorem readMessage_frame (hd : Delivers bs left) {msg v rest : Bytes} (hm : msg.length < 2 ^ 32)
    (hv : v.length < 2 ^ 32) (hs : left s = frame msg v ++ rest) (hmax : msg.length ≤ maxSize)
    {m : Message} (hp : lib.parseMessage msg = (true, m)) :
    ∃ t, readMessage lib maxSize bs message value s = ⟨.success, m, some v, t⟩ ∧ left t = rest := by
  have hs' : left s =
      magicString ++ (be32 msg.length ++ (be32 v.length ++ (msg ++ (v ++ rest)))) := by
    rw [hs, frame]; simp only [List.append_assoc]
  obtain ⟨t₁, h₁, hl₁⟩ := readHeader_some hd (be32_length msg.length) (be32_length v.length) hs'
  rw [fromBe32_be32 _ hm, fromBe32_be32 _ hv] at h₁
  obtain ⟨t₂, h₂, hl₂⟩ := read_some hd rfl hl₁
  obtain ⟨t₃, h₃, hl₃⟩ := readValue_some hd rfl hl₂
  refine ⟨t₃, ?_, hl₃⟩
  unfold readMessage
  rw [h₁]
  dsimp only
  rw [if_neg (Nat.not_lt.2 hmax), h₂]
  dsimp only
  rw [hp]
  dsimp only
  rw [h₃]

theorem readMessage_success (hd : Delivers bs left)
    (h : (readMessage lib maxSize bs message value s).status = .success) :
    ∃ (msg v : Bytes) (m : Message) (t : σ), msg.length < 2 ^ 32 ∧ v.length < 2 ^ 32 ∧
      left s = frame msg v ++ left t ∧ lib.parseMessage msg = (true, m) ∧
      readMessage lib maxSize bs message value s = ⟨.success, m, some v, t⟩ := by
  unfold readMessage at h
  split at h
  · cases h
  rename_i size vsize s₁ h₁
  obtain ⟨ml, vl, hml, hvl, hsz, hs⟩ := readHeader_eq_some hd h₁
  cases hsz
  split at h
  · cases h
  rename_i hmax
  rcases split_at (fromBe32 ml) (left s₁) with hlt | ⟨msg, rest, hmsg, hs₁⟩
  · have hn := hd.ended _ _ hlt
    split at h
    all_goals rename_i he; simp only [he] at hn
    · cases h
    · cases hn
  obtain ⟨s₂, h₂, hl₂⟩ := read_some hd hmsg hs₁
  rw [h₂] at h
  dsimp only at h
  split at h
  · cases h
  rename_i m hp
  rcases split_at (fromBe32 vl) (left s₂) with hlt | ⟨v, rest', hv, hs₂⟩
  · have hn := hd.valueEnded _ _ hlt
    split at h
    all_goals rename_i he; simp only [he] at hn
    · cases h
    · cases hn
  have hframed := NonblockingPacketReader.framed_of_pieces hml hvl hmsg hv
  have hstream : left s = frame msg v ++ rest' := by
    rw [← hframed.bytes, hs, hs₁, ← hl₂, hs₂]
    simp only [List.append_assoc]
  have hle : msg.length ≤ maxSize := by rw [hmsg]; exact Nat.not_lt.1 hmax
  obtain ⟨t, ht, hl⟩ := readMessage_frame hd hframed.msg_lt hframed.v_lt hstream hle hp
  exact ⟨msg, v, m, t, hframed.msg_lt, hframed.v_lt, by rw [hl, hstream], hp, ht⟩

end

end MessageStream

/-! ## The other implementation -/

namespace NonblockingStringWriter

theorem write_ready {b : Bytes} {n j : Nat} {k : Socket} (hb : b.length ≤ n) (hf : k.fstats = [])
    (hw : k.writes = List.replicate (j + 1) (.count n)) :
    ∃ w k', write { s := b } k = (.done, w, k') ∧ w.s.length ≤ w.bytesWritten ∧ k'.fstats = [] ∧
      ∃ i, j ≤ i ∧ k'.writes = List.replicate i (.count n) := by
  have hfs : k.fstat = (true, k) := by unfold Socket.fstat; rw [hf]
  unfold write
  rw [hw, List.length_replicate]
  by_cases h0 : b = []
  · subst h0
    exact ⟨_, _, rfl, Nat.le_refl _, hf, j + 1, Nat.le_succ j, hw⟩
  have hpos := List.length_pos_iff.2 h0
  have hs : k.send (rest { s := b }) = (.count b.length, { k with
      writes := List.replicate j (.count n), sent := k.sent ++ b.take n }) := by
    unfold Socket.send
    rw [hw, List.replicate_succ, rest_fresh]
    dsimp only
    rw [Nat.min_eq_right hb]
  obtain ⟨l, hl⟩ := Nat.exists_eq_add_one.2 hpos
  rw [hl] at hs
  have hdone : writeLoop (j + 1 + 1) { s := b } k = (.done, { s := b, bytesWritten := 0 + (l + 1) },
      { k with writes := List.replicate j (.count n), sent := k.sent ++ b.take n }) := by
    unfold writeLoop
    rw [if_pos hpos, hfs]
    dsimp only
    rw [hs]
    dsimp only
    unfold writeLoop
    rw [if_neg (by dsimp only; omega)]
  exact ⟨_, _, hdone, by dsimp only; omega, hf, j, Nat.le_refl j, rfl⟩

theorem write_finished {w : NonblockingStringWriter} (h : w.s.length ≤ w.bytesWritten) (k : Socket) :
    w.write k = (.done, w, k) := by
  unfold write writeLoop
  rw [if_neg (by omega)]

end NonblockingStringWriter

namespace NonblockingPacketWriter

/-- The transport takes these pieces, one after another. -/
def Takes : List Bytes → Socket → Prop
  | [], _ => True
  | b :: bs, k => ∃ sw k', NonblockingStringWriter.write { s := b } k = (.done, sw, k') ∧
      sw.s.length ≤ sw.bytesWritten ∧ k'.fstats = [] ∧ Takes bs k'

theorem takes_ready {n : Nat} {bs : List Bytes} {j : Nat} {k : Socket} (hb : ∀ b ∈ bs, b.length ≤ n)
    (hj : bs.length ≤ j) (hf : k.fstats = []) (hk : k.writes = List.replicate j (.count n)) :
    Takes bs k := by
  induction bs generalizing j k with
  | nil => exact trivial
  | cons b bs ih =>
    rw [List.length_cons] at hj
    obtain ⟨l, rfl⟩ := Nat.exists_eq_add_one.2 (show 0 < j by omega)
    obtain ⟨sw, k', hr, hfull, hf', i, hi, hk'⟩ :=
      NonblockingStringWriter.write_ready (hb b List.mem_cons_self) hf hk
    exact ⟨sw, k', hr, hfull, hf', ih (fun b hb' => hb b (List.mem_cons_of_mem _ hb')) (by omega) hf' hk'⟩

theorem takes_willing {bs : List Bytes} {k : Socket} (hk : k.Willing bs.flatten.length) :
    Takes bs k := by
  induction bs generalizing k with
  | nil => exact trivial
  | cons b bs ih =>
    rw [List.flatten_cons, List.length_append] at hk
    obtain ⟨sw, k', hr, hfull, hk'⟩ := NonblockingStringWriter.write_willing hk (w := { s := b })
      (Nat.le_add_right _ _)
    rw [NonblockingStringWriter.rest_fresh, Nat.add_sub_cancel_left] at hk'
    exact ⟨sw, k', hr, hfull, hk'.fstats, ih hk'⟩

theorem writeLoop_takes (lib : Lib) (w w' : NonblockingPacketWriter) {b : Bytes} {bs : List Bytes}
    {fuel : Nat} {k : Socket} (hw : w.writer = { s := b }) (hs : w.state ≠ .finished)
    (ht : ∀ sw, transition lib { w with writer := sw } = (true, w')) (hk : Takes (b :: bs) k) :
    ∃ k', writeLoop lib (fuel + 1) w k = writeLoop lib fuel w' k' ∧ Takes bs k' := by
  obtain ⟨sw, k', hr, -, -, hk'⟩ := hk
  refine ⟨k', ?_, hk'⟩
  rw [writeLoop, hw, hr]
  dsimp only
  rw [if_neg hs, ht sw]

/-- Where the pieces of a packet are taken, it is written in one call. -/
theorem write_takes {lib : Lib} {m : Message} {v : Bytes} (hi : lib.serializeToString m = true)
    {k : Socket} (hf : k.fstats = [])
    (hk : Takes [magicString, be32 (lib.serializeMessage m).length, be32 v.length,
      lib.serializeMessage m, v] k) : (write lib (create m v) k).1 = .done := by
  have hfs : k.fstat = (true, k) := by unfold Socket.fstat; rw [hf]
  have hstart : write lib (create m v) k = writeLoop lib 6 (create m v) k := by
    unfold write
    rw [hfs]
  obtain ⟨msg, hmsg⟩ : ∃ msg, lib.serializeMessage m = msg := ⟨_, rfl⟩
  rw [hmsg] at hk
  let w₁ : NonblockingPacketWriter := ⟨m, v, .messageLength, { s := be32 msg.length }, msg⟩
  let w₂ : NonblockingPacketWriter := ⟨m, v, .valueLength, { s := be32 v.length }, msg⟩
  let w₃ : NonblockingPacketWriter := ⟨m, v, .message, { s := msg }, msg⟩
  let w₄ : NonblockingPacketWriter := ⟨m, v, .value, { s := v }, msg⟩
  obtain ⟨k₁, h₁, hk₁⟩ := writeLoop_takes lib (create m v) w₁ rfl (by simp [create])
    (fun sw => by simp [transition, create, transitionFromMagic, hi, w₁, hmsg]) hk
  obtain ⟨k₂, h₂, hk₂⟩ := writeLoop_takes lib w₁ w₂ rfl (by simp [w₁]) (fun _ => rfl) hk₁
  obtain ⟨k₃, h₃, hk₃⟩ := writeLoop_takes lib w₂ w₃ rfl (by simp [w₂]) (fun _ => rfl) hk₂
  obtain ⟨k₄, h₄, hk₄⟩ := writeLoop_takes lib w₃ w₄ rfl (by simp [w₃]) (fun _ => rfl) hk₃
  obtain ⟨sw, k₅, h₅, hfull, hf₅, -⟩ := hk₄
  have hfs₅ : k₅.fstat = (true, k₅) := by unfold Socket.fstat; rw [hf₅]
  rw [hstart, h₁, h₂, h₃, h₄]
  -- the value is written, and nothing is left for the last state
  have hlast : writeLoop lib 2 w₄ k₄ = (.done, ⟨m, v, .finished, sw, msg⟩, k₅) := by
    rw [writeLoop, h₅]
    dsimp only [w₄, transition, transitionFromValue]
    rw [if_neg (by simp), writeLoop, NonblockingStringWriter.write_finished hfull]
    dsimp only
    rw [if_pos rfl, hfs₅]
  rw [hlast]

theorem write_ready {lib : Lib} {m : Message} {v : Bytes} (hi : lib.serializeToString m = true) {n : Nat}
    (hn : (encode lib m v).length ≤ n) {k : Socket} (hf : k.fstats = [])
    (hk : k.writes = List.replicate 5 (.count n)) : (write lib (create m v) k).1 = .done := by
  rw [encode, frame_length] at hn
  refine write_takes hi hf (takes_ready (fun b hb => ?_) (by simp) hf hk)
  simp only [List.mem_cons, List.not_mem_nil, or_false] at hb
  rcases hb with rfl | rfl | rfl | rfl | rfl
  · rw [magicString, List.length_singleton]; omega
  · rw [be32_length]; omega
  · rw [be32_length]; omega
  · omega
  · omega

/-- A message that cannot be serialized does not get past the magic byte. -/
theorem write_uninitialized {lib : Lib} {w : NonblockingPacketWriter}
    (hi : lib.serializeToString w.message = false) (hs : w.state = .magic) (k : Socket) :
    (w.write lib k).1 ≠ .done ∧
      ((w.write lib k).1 = .inProgress →
        (w.write lib k).2.1 = { w with writer := (w.write lib k).2.1.writer }) := by
  unfold write
  split
  · simp
  unfold writeLoop
  split
  · simp
  · simp
  · rw [if_neg (by simp [hs])]
    simp [transition, hs, transitionFromMagic, hi]

theorem writeCalls_uninitialized {lib : Lib} {w : NonblockingPacketWriter}
    (hi : lib.serializeToString w.message = false) (hs : w.state = .magic) (turns : List WriteTurn)
    (k : Socket) : (writeCalls lib turns w k).1 ≠ .done := by
  induction turns generalizing w k with
  | nil => simp [writeCalls]
  | cons t ts ih =>
    obtain ⟨hnd, hip⟩ := write_uninitialized hi hs { k with fstats := t.fstats, writes := t.writes }
    unfold writeCalls
    split
    all_goals rename_i w' k' he; simp only [he] at hnd hip
    · rw [hip trivial]
      exact ih (w := { w with writer := w'.writer }) hi hs _
    · exact absurd rfl hnd
    · simp

end NonblockingPacketWriter

/-! ## Agreement -/

open NonblockingPacketReader MessageStream

/-- The length that a header declares for the message. -/
def declaredLength (b : Bytes) : Nat := fromBe32 ((b.drop 1).take 4)

theorem declaredLength_frame (msg v rest : Bytes) :
    declaredLength (frame msg v ++ rest) = msg.length % 2 ^ 32 := by
  have : (frame msg v ++ rest).drop 1 = be32 msg.length ++ (be32 v.length ++ (msg ++ (v ++ rest))) := by
    rw [frame]
    simp only [List.append_assoc]
    exact List.drop_left' rfl
  unfold declaredLength
  rw [this, List.take_left' (be32_length _), fromBe32_be32_mod]

/-- The stream has been handed over: a reader that is still in the middle of a
packet has had all of it, and was not told before that it had ended. -/
def HandedOver (lib : Lib) (stream : Bytes) (c : ReadState) : Prop :=
  Pending lib c → c.packet.consumed = stream

/-- It has, where reads only fragment and nothing that arrived is held back. -/
theorem handedOver {lib : Lib} {turns : List ReadTurn} {c : ReadState} (h : Pending lib c)
    (h0 : c.packet.consumed = []) (h1 : c.socket.incoming = [])
    (hf : ∀ t ∈ turns, ∀ a ∈ t.reads, Fragment a)
    (hall : (readCalls lib turns c).1 = .inProgress → (readCalls lib turns c).2.socket.incoming = []) :
    HandedOver lib (arrivals turns) (readCalls lib turns c).2 := by
  intro hp
  obtain ⟨⟨later, hacc, hlater⟩, ho⟩ := readCalls_spec lib turns c h
  have hst : (readCalls lib turns c).1 = .inProgress := by
    generalize readCalls lib turns c = r at ho hp
    obtain ⟨st, d⟩ := r
    cases ho with
    | pending _ => rfl
    | broken _ hn => exact absurd hf hn
    | badMagic hb hc => exact absurd hc (not_badMagic hp hb)
    | badMessage hfr _ => exact absurd hfr (not_framed hp)
    | complete hfr _ _ => exact absurd hfr (not_framed hp)
  rw [h0, h1, hall hst, hlater hst] at hacc
  simpa using hacc.symm

/-- **The two framings agree.** Over streams that accept all bytes both write
the same ones, or neither serializes the message; on any stream, whole or cut
off, one reads a packet exactly when the other does, and then the same message
and value from the same bytes. -/
theorem framings_agree (lib : Lib) {σ : Type*} (bs : ByteStream σ Bytes) :
    (∀ (sent : σ → Bytes), Accepts bs sent → ∀ (byteSize : Message → Nat) (m : Message) (v : Bytes),
      byteSize m = (lib.serializeMessage m).length →
      (lib.serializeMessage m).length < 2 ^ 31 → v.length < 2 ^ 32 →
      ∀ (s : σ) (fd : Nat) (turns : List WriteTurn),
      let r := writeMessage lib byteSize bs m v s
      let c := writeCalls lib turns (NonblockingPacketWriter.create m v) (opened fd)
      (lib.serializeToString m = true → r.1 = 0 ∧ ∃ bytes, sent r.2 = sent s ++ bytes ∧
        c.2.2.sent <+: bytes ∧ (c.1 = .done → c.2.2.sent = bytes) ∧
        ∀ n, bytes.length ≤ n → (writeCalls lib [⟨[], List.replicate 5 (.count n)⟩]
          (NonblockingPacketWriter.create m v) (opened fd)).1 = .done) ∧
      (lib.serializeToString m = false → r.1 ≠ 0 ∧ c.1 ≠ .done)) ∧
    (∀ (left : σ → Bytes), Delivers bs left → ∀ (maxSize : Nat) (s : σ),
      (9 ≤ (left s).length → declaredLength (left s) < 2 ^ 31 ∧ declaredLength (left s) ≤ maxSize) →
      ∀ (message m₀ : Message) (value v₀ : Option Bytes) (fd : Nat) (turns : List ReadTurn),
      arrivals turns = left s →
      let r := readMessage lib maxSize bs message value s
      let c := readCalls lib turns (freshRead m₀ v₀ fd)
      HandedOver lib (left s) c.2 →
      (r.status = .success ↔ c.1 = .done) ∧
      (r.status = .success → r.message = c.2.response ∧ r.value = c.2.value ∧
        left s = c.2.packet.consumed ++ left r.stream)) := by
  constructor
  · intro sent ha byteSize m v hb _ _ s fd turns r c
    obtain ⟨out, hout, hrem, hfull⟩ :=
      writeCalls_spec lib turns (NonblockingPacketWriter.create m v) (opened fd)
    rw [NonblockingPacketWriter.remaining_create] at hrem
    have hout' : c.2.2.sent = out := hout
    refine ⟨fun hi => ?_, fun hi => ?_⟩
    · obtain ⟨h0, hs⟩ := writeMessage_accepted ha hb hi v s
      refine ⟨h0, _, hs, ?_, fun hd => ?_, fun n hn => ?_⟩
      · rw [hout', hrem]; exact List.prefix_append _ _
      · rw [hfull hd, List.append_nil] at hrem
        rw [hout', hrem]
      · have hd := NonblockingPacketWriter.write_ready hi hn
          (k := { opened fd with fstats := [], writes := List.replicate 5 (.count n) }) rfl rfl
        unfold writeCalls
        split
        all_goals rename_i he; simp only [he] at hd
        · cases hd
        · rfl
        · cases hd
    · exact ⟨by rw [show r.1 = 2 from writeMessage_uninitialized ha hi v s]; decide,
        NonblockingPacketWriter.writeCalls_uninitialized hi rfl turns _⟩
  · intro left hd maxSize s hmax message m₀ value v₀ fd turns harr r c hover
    obtain ⟨⟨later, hacc, -⟩, ho⟩ :=
      readCalls_spec lib turns (freshRead m₀ v₀ fd) (pending_create lib m₀ v₀ (opened fd))
    have hstream : left s = c.2.packet.consumed ++ (c.2.socket.incoming ++ later) := by
      rw [← harr]; exact hacc
    have hsame : r.status = .success → c.1 = .done ∧ r.message = c.2.response ∧
        r.value = c.2.value ∧ left s = c.2.packet.consumed ++ left r.stream := by
      intro hr
      obtain ⟨msg, v, m, t, hm, hv, hs, hp, ht⟩ := readMessage_success hd hr
      have hr' : r = ⟨.success, m, some v, t⟩ := ht
      rcases ho.on_frame hm hv (by rw [hp]) (hstream.symm.trans hs) with
        ⟨hdone, hcons, -, hresp, hval⟩ | ⟨-, hpend, hlt, -⟩
      · have hcons' : c.2.packet.consumed = frame msg v := hcons
        rw [hp] at hresp
        exact ⟨hdone, by rw [hr']; exact congrArg Prod.snd hresp, by rw [hr']; exact hval.symm,
          by rw [hr', hcons']; exact hs⟩
      · have hlen : c.2.packet.consumed.length < (frame msg v).length := hlt
        rw [hover hpend, hs, List.length_append] at hlen
        omega
    refine ⟨⟨fun hr => (hsame hr).1, fun hc => ?_⟩, fun hr => (hsame hr).2⟩
    change Outcome lib _ c.1 c.2 at ho
    rw [hc] at ho
    cases ho with
    | complete hfr hp _ =>
      rw [hfr.bytes] at hstream
      have hdecl := hmax (by rw [hstream, List.length_append, frame_length]; omega)
      rw [hstream, declaredLength_frame, Nat.mod_eq_of_lt hfr.msg_lt] at hdecl
      obtain ⟨t, ht, -⟩ := readMessage_frame hd hfr.msg_lt
        hfr.v_lt hstream hdecl.2 hp
      exact congrArg ReadMessageResult.status ht

/-- A stream in memory: the bytes left and the bytes written. -/
def arrayStream : ByteStream (Bytes × Bytes) Bytes where
  read n s := if n ≤ s.1.length then (some (s.1.take n), (s.1.drop n, s.2)) else (none, s)
  write b s := (true, (s.1, s.2 ++ b))
  readValue n s := if n ≤ s.1.length then (some (s.1.take n), (s.1.drop n, s.2)) else (none, s)
  writeValue b s := (true, (s.1, s.2 ++ b))

theorem arrayStream_accepts : Accepts arrayStream Prod.snd :=
  ⟨fun _ _ => ⟨rfl, rfl⟩, fun _ _ => ⟨rfl, rfl⟩⟩

theorem arrayStream_delivers : Delivers arrayStream Prod.fst := by
  have hsome : ∀ n (s : Bytes × Bytes), n ≤ s.1.length →
      arrayStream.read n s = (some (s.1.take n), (s.1.drop n, s.2)) := fun n s h => if_pos h
  have hnone : ∀ n (s : Bytes × Bytes), s.1.length < n → arrayStream.read n s = (none, s) :=
    fun n s h => if_neg (Nat.not_le.2 h)
  exact ⟨fun n s h => by rw [hsome n s h]; exact ⟨rfl, rfl⟩, fun n s h => by rw [hnone n s h],
    fun n s h => by rw [show arrayStream.readValue n s = _ from hsome n s h]; exact ⟨rfl, rfl⟩,
    fun n s h => by rw [show arrayStream.readValue n s = _ from hnone n s h]⟩

/-- A packet of two bytes of value with three bytes behind it, arriving in two
pieces, and the same without its last byte. -/
theorem framings_agree_array :
    let lib : Lib := ⟨fun _ => true, fun _ => [], fun _ => (true, {}), fun _ => [],
      fun _ => (true, {}), fun _ _ => []⟩
    ((readMessage lib 0 arrayStream {} none ([0x46, 0, 0, 0, 0, 0, 0, 0, 2, 97, 98, 1, 2, 3], [])).status =
        .success ↔
      (readCalls lib [⟨[0x46, 0, 0, 0], [.count 9, .again]⟩,
        ⟨[0, 0, 0, 0, 2, 97, 98, 1, 2, 3], [.count 9, .count 9, .count 9]⟩] (freshRead {} none 3)).1 = .done) ∧
    ((readMessage lib 0 arrayStream {} none ([0x46, 0, 0, 0, 0, 0, 0, 0, 2, 97], [])).status =
        .success ↔
      (readCalls lib [⟨[0x46, 0, 0, 0, 0, 0, 0, 0, 2, 97], List.replicate 5 (.count 9)⟩]
        (freshRead {} none 3)).1 = .done) := by
  intro lib
  constructor
  · refine ((framings_agree lib arrayStream).2 Prod.fst arrayStream_delivers 0 (_, []) (by decide) {} {}
      none none 3 [⟨[0x46, 0, 0, 0], [.count 9, .again]⟩,
        ⟨[0, 0, 0, 0, 2, 97, 98, 1, 2, 3], [.count 9, .count 9, .count 9]⟩] rfl fun hp => ?_).1
    exact handedOver (pending_create lib {} none (opened 3)) rfl rfl (by simp [Fragment]) (by decide) hp
  · refine ((framings_agree lib arrayStream).2 Prod.fst arrayStream_delivers 0 (_, []) (by decide) {} {}
      none none 3 [⟨[0x46, 0, 0, 0, 0, 0, 0, 0, 2, 97], List.replicate 5 (.count 9)⟩] rfl fun hp => ?_).1
    exact handedOver (pending_create lib {} none (opened 3)) rfl rfl (by simp [Fragment]) (by decide) hp

end Kinetic.L1
