import Kinetic.L1Wire.Codec
import Kinetic.L1Wire.MessageStream
import Kinetic.L1Wire.PacketStream
import Kinetic.L1Wire.SslStream

/-!
# Conversations over message streams

One side calls `WriteMessage` for its messages until a call fails, the other
`ReadMessage` until one does. Any call below may fail halfway. Packets delimit
themselves, so nothing is ever read but the first of the messages written, in order,
each with its value.

**Byte streams.** `Sends` and `Fetches` are all that is used of a stream: a call has
sent the beginning of what it was given, and one that succeeds returns what it has
taken, as much as it was asked for. `Fails` adds that one that fails has missed
something. The values of a stream may be of any kind: `take` is how the caller gets
the bytes of one before the next message (`ByteStream.gather`).

**Values (`IncomingValues.Sound`).** `PlainByteStream::ReadValue` leaves the reading
to a factory of the caller's. What is asked of it: a value of `n` bytes is the next
`n` bytes of the descriptor, whichever of `NewValue` and `ToString` reads them.

**Assumptions on messages (`Legible`).** A message comes back from its bytes, and the
lengths fit into the header.

**Results.**
* `writeMessages_sends`: what has gone out is the packets of the messages written,
  and at most a part of the next.
* `gatherMessages_fetches`, `gatherMessages_whole`: what has been taken is the packets
  of the messages read, and a packet that has come as a whole has been read.
* `Sends.carries`: any two streams of which these hold carry a conversation.
* `PlainByteStream.stream_sends`, `gather_fetches`, `SslByteStream.stream_sends`,
  `stream_fetches`, `stream_fails`: both implementations are such streams, whatever
  the system calls return.
* `IncomingValues.atOnce_sound`, `late_sound`: so are a value read at once and one
  read when it is asked for.
* `conversation_safe`: so neither loses, invents or mixes up a message.
-/
open Kinetic.Core Kinetic.Core.Socket

namespace Kinetic.L1

variable {σ τ : Type*} {ω : Type}

/-! ## Streams that may fail -/

/-- A call sends the beginning of what it is given, and if it succeeds all of it. -/
structure Sends (bs : ByteStream σ ω) (sent : σ → Bytes) : Prop where
  write : ∀ b s, ∃ out, sent (bs.write b s).2 = sent s ++ out ∧ out <+: b ∧
    ((bs.write b s).1 = true → out = b)
  writeValue : ∀ b s, ∃ out, sent (bs.writeValue b s).2 = sent s ++ out ∧ out <+: b ∧
    ((bs.writeValue b s).1 = true → out = b)

/-- A call that succeeds returns all that it has taken, as much as it was asked
for. -/
structure Fetches (bs : ByteStream σ Bytes) (taken : σ → Bytes) : Prop where
  read : ∀ n s, ∃ got, taken (bs.read n s).2 = taken s ++ got ∧
    ∀ b, (bs.read n s).1 = some b → b = got ∧ got.length = n
  readValue : ∀ n s, ∃ got, taken (bs.readValue n s).2 = taken s ++ got ∧
    ∀ b, (bs.readValue n s).1 = some b → b = got ∧ got.length = n

/-- A call that fails has missed something. -/
structure Fails (bs : ByteStream σ Bytes) (taken : σ → Bytes) : Prop where
  read : ∀ n s, (bs.read n s).1 = none → (taken (bs.read n s).2).length < (taken s).length + n
  readValue : ∀ n s, (bs.readValue n s).1 = none →
    (taken (bs.readValue n s).2).length < (taken s).length + n

/-! ## The two sides -/

namespace MessageStream

/-- `WriteMessage` for each of the messages up to the first that fails: how many
have not. -/
def writeMessages (lib : Lib) (byteSize : Message → Nat) (bs : ByteStream σ ω) :
    List (Message × Bytes) → σ → Nat × σ
  | [], s => (0, s)
  | (m, v) :: ms, s =>
    match writeMessage lib byteSize bs m v s with
    | (0, s) => ((writeMessages lib byteSize bs ms s).1 + 1, (writeMessages lib byteSize bs ms s).2)
    | (_ + 1, s) => (0, s)

/-- At most `n` calls of `ReadMessage`, up to the first that fails, each value being
taken with `take` before the next call: what they have returned. -/
def readMessages (lib : Lib) (maxSize : Nat) (bs : ByteStream σ ω) (take : ω → σ → Option Bytes × σ) :
    Nat → σ → List (Message × Bytes) × σ
  | 0, s => ([], s)
  | n + 1, s =>
    match readMessage lib maxSize bs {} none s with
    | ⟨.success, m, some v, s⟩ =>
      match take v s with
      | (some b, s) =>
        ((m, b) :: (readMessages lib maxSize bs take n s).1, (readMessages lib maxSize bs take n s).2)
      | (none, s) => ([], s)
    | ⟨.success, _, none, s⟩ => ([], s)
    | ⟨_, _, _, s⟩ => ([], s)

/-- The same for a stream that hands out the bytes of its values at once. -/
def gatherMessages (lib : Lib) (maxSize : Nat) (bs : ByteStream σ Bytes) :
    Nat → σ → List (Message × Bytes) × σ
  | 0, s => ([], s)
  | n + 1, s =>
    match readMessage lib maxSize bs {} none s with
    | ⟨.success, m, some v, s⟩ =>
      ((m, v) :: (gatherMessages lib maxSize bs n s).1, (gatherMessages lib maxSize bs n s).2)
    | ⟨.success, _, none, s⟩ => ([], s)
    | ⟨_, _, _, s⟩ => ([], s)

end MessageStream

/-- `ReadValue` and the taking of its value in one. -/
def ByteStream.gather (bs : ByteStream σ ω) (take : ω → σ → Option Bytes × σ) : ByteStream σ Bytes where
  read := bs.read
  write := bs.write
  readValue n s :=
    match bs.readValue n s with
    | (none, s) => (none, s)
    | (some v, s) => take v s
  writeValue := bs.writeValue

/-- The packets of these messages. -/
def encodeMessages (lib : Lib) (ms : List (Message × Bytes)) : Bytes :=
  ms.flatMap fun p => encode lib p.1 p.2

/-- The message comes back from its bytes, and the lengths fit into the header. -/
structure Legible (lib : Lib) (p : Message × Bytes) : Prop where
  fits : Fits (lib.serializeMessage p.1, p.2)
  parses : lib.parseMessage (lib.serializeMessage p.1) = (true, p.1)

namespace MessageStream

variable {lib : Lib} {bs : ByteStream σ Bytes} {s : σ}

/-! ## Writing -/

section
variable {bs : ByteStream σ ω} {sent : σ → Bytes} {byteSize : Message → Nat}

/-- What has gone out when `WriteMessage` returns is the beginning of the packet,
and all of it if nothing failed. -/
theorem writeMessage_sends (hs : Sends bs sent) {m : Message}
    (hb : byteSize m = (lib.serializeMessage m).length) (v : Bytes) (s : σ) :
    ∃ out, sent (writeMessage lib byteSize bs m v s).2 = sent s ++ out ∧ out <+: encode lib m v ∧
      ((writeMessage lib byteSize bs m v s).1 = 0 → out = encode lib m v) := by
  have hpacket : encode lib m v = magicString ++ be32 (byteSize m) ++ be32 v.length ++
      (lib.serializeMessage m ++ v) := by
    simp only [encode, frame, hb, List.append_assoc]
  rw [hpacket]
  unfold writeMessage writeHeader
  generalize magicString ++ be32 (byteSize m) ++ be32 v.length = header
  obtain ⟨o₁, h₁, hp₁, ht₁⟩ := hs.write header s
  split
  all_goals rename_i s₁ he₁; simp only [he₁] at h₁ ht₁
  · exact ⟨o₁, h₁, hp₁.trans (List.prefix_append _ _), by simp⟩
  obtain rfl := (ht₁ trivial).symm
  split
  · obtain ⟨o₂, h₂, hp₂, ht₂⟩ := hs.write (lib.serializeMessage m) s₁
    split
    all_goals rename_i s₂ he₂; simp only [he₂] at h₂ ht₂
    · refine ⟨header ++ o₂, by rw [h₂, h₁, List.append_assoc], ?_, by simp⟩
      exact (List.prefix_append_right_inj _).2 (hp₂.trans (List.prefix_append _ _))
    obtain rfl := ht₂ trivial
    obtain ⟨o₃, h₃, hp₃, ht₃⟩ := hs.writeValue v s₂
    split
    all_goals rename_i s₃ he₃; simp only [he₃] at h₃ ht₃
    all_goals
      refine ⟨header ++ (lib.serializeMessage m ++ o₃), ?_, ?_, ?_⟩
      · rw [h₃, h₂, h₁]
        simp only [List.append_assoc]
      · exact (List.prefix_append_right_inj _).2 ((List.prefix_append_right_inj _).2 hp₃)
    · simp
    · exact fun _ => by rw [ht₃ trivial]
  · exact ⟨header, h₁, List.prefix_append _ _, by simp⟩

/-- **The writing side** sends the packets of the messages that were written, and
the beginning of the next at most. -/
theorem writeMessages_sends (lib : Lib) (hs : Sends bs sent)
    (hb : ∀ m, byteSize m = (lib.serializeMessage m).length) (ms : List (Message × Bytes)) (s : σ) :
    (writeMessages lib byteSize bs ms s).1 ≤ ms.length ∧
      ∃ out, sent (writeMessages lib byteSize bs ms s).2 = sent s ++ out ∧
        encodeMessages lib (ms.take (writeMessages lib byteSize bs ms s).1) <+: out ∧
        out <+: encodeMessages lib (ms.take ((writeMessages lib byteSize bs ms s).1 + 1)) := by
  induction ms generalizing s with
  | nil => exact ⟨Nat.le_refl 0, [], by simp [writeMessages], List.prefix_refl _, List.prefix_refl _⟩
  | cons p ms ih =>
    obtain ⟨m, v⟩ := p
    obtain ⟨o, ho, hp, ht⟩ := writeMessage_sends hs (hb m) v s
    rw [writeMessages]
    split
    all_goals rename_i s₁ he; simp only [he] at ho ht
    · obtain rfl := ht trivial
      obtain ⟨hle, out, h₁, h₂, h₃⟩ := ih s₁
      refine ⟨Nat.succ_le_succ hle, encode lib m v ++ out, ?_, ?_, ?_⟩
      · rw [h₁, ho, List.append_assoc]
      · exact (List.prefix_append_right_inj _).2 h₂
      · exact (List.prefix_append_right_inj _).2 h₃
    · refine ⟨Nat.zero_le _, o, ho, List.nil_prefix, ?_⟩
      simpa [encodeMessages] using hp

end

/-! ## Reading -/

section
variable {taken : σ → Bytes} {maxSize : Nat}

theorem readHeader_fetches (hf : Fetches bs taken) (s : σ) :
    ∃ got, taken (readHeader bs s).2 = taken s ++ got ∧
      (∀ sizes, (readHeader bs s).1 = some sizes → ∃ ml vl : Bytes, ml.length = 4 ∧
        vl.length = 4 ∧ got = magicString ++ (ml ++ vl) ∧ sizes = (fromBe32 ml, fromBe32 vl)) ∧
      (Fails bs taken → (readHeader bs s).1 = none → got.length < 9 ∨ got.take 1 ≠ magicString) := by
  obtain ⟨got, hgot, hsome⟩ := hf.read 9 s
  have hfail := fun h : Fails bs taken => h.read 9 s
  unfold readHeader
  split
  all_goals rename_i s₁ he; simp only [he] at hgot hsome hfail
  · refine ⟨got, hgot, by simp, fun h _ => .inl ?_⟩
    have := hfail h trivial
    rw [hgot, List.length_append] at this
    omega
  · rename_i header
    obtain ⟨rfl, h9⟩ := hsome header rfl
    split
    · rename_i hm
      exact ⟨header, hgot, by simp, fun _ _ => .inr hm⟩
    · rename_i hm
      refine ⟨header, hgot, ?_, by simp⟩
      rintro sizes ⟨⟩
      refine ⟨(header.drop 1).take 4, (header.drop 5).take 4, ?_, ?_, ?_, rfl⟩
      · simp only [List.length_take, List.length_drop]; omega
      · simp only [List.length_take, List.length_drop]; omega
      · rw [← not_not.1 hm, List.take_of_length_le (l := header.drop 5) (by simp; omega),
          show header.drop 5 = (header.drop 1).drop 4 by rw [List.drop_drop],
          List.take_append_drop, List.take_append_drop]

/-- What `ReadMessage` has taken when it succeeds is one packet. -/
theorem readMessage_fetches (lib : Lib) (maxSize : Nat) (hf : Fetches bs taken) (message : Message)
    (value : Option Bytes) (s : σ) :
    ∃ got, taken (readMessage lib maxSize bs message value s).stream = taken s ++ got ∧
      ((readMessage lib maxSize bs message value s).status = .success →
        ∃ msg v m, Fits (msg, v) ∧ got = frame msg v ∧ lib.parseMessage msg = (true, m) ∧
          (readMessage lib maxSize bs message value s).message = m ∧
          (readMessage lib maxSize bs message value s).value = some v) := by
  obtain ⟨o₁, h₁, hsome₁, -⟩ := readHeader_fetches hf s
  unfold readMessage
  split
  all_goals rename_i s₁ he₁; simp only [he₁] at h₁ hsome₁
  · exact ⟨o₁, h₁, by simp⟩
  obtain ⟨ml, vl, hml, hvl, rfl, hsizes⟩ := hsome₁ _ rfl
  obtain ⟨rfl, rfl⟩ := Prod.mk.inj hsizes
  split
  · exact ⟨_, h₁, by simp⟩
  obtain ⟨o₂, h₂, hsome₂⟩ := hf.read (fromBe32 ml) s₁
  split
  all_goals rename_i s₂ he₂; simp only [he₂] at h₂ hsome₂
  · exact ⟨magicString ++ (ml ++ vl) ++ o₂, by rw [h₂, h₁, List.append_assoc], by simp⟩
  rename_i msg
  obtain ⟨rfl, hlen₂⟩ := hsome₂ msg rfl
  split
  · exact ⟨magicString ++ (ml ++ vl) ++ msg, by rw [h₂, h₁, List.append_assoc], by simp⟩
  rename_i m hparse
  obtain ⟨o₃, h₃, hsome₃⟩ := hf.readValue (fromBe32 vl) s₂
  split
  all_goals rename_i s₃ he₃; simp only [he₃] at h₃ hsome₃
  · refine ⟨magicString ++ (ml ++ vl) ++ (msg ++ o₃), ?_, by simp⟩
    rw [h₃, h₂, h₁]
    simp only [List.append_assoc]
  · rename_i v
    obtain ⟨rfl, hlen₃⟩ := hsome₃ v rfl
    have hframed := NonblockingPacketReader.framed_of_pieces hml hvl hlen₂ hlen₃
    refine ⟨magicString ++ (ml ++ vl) ++ (msg ++ v), ?_, fun _ => ?_⟩
    · rw [h₃, h₂, h₁]
      simp only [List.append_assoc]
    · refine ⟨msg, v, m, ⟨hframed.msg_lt, hframed.v_lt⟩, ?_, hparse, rfl, rfl⟩
      rw [← hframed.bytes]
      simp only [List.append_assoc]

theorem frame_prefix {ml vl msg v x : Bytes} (hml : ml.length = 4) (hvl : vl.length = 4)
    (h : frame msg v <+: magicString ++ (ml ++ vl) ++ x) :
    ml = be32 msg.length ∧ vl = be32 v.length ∧ msg ++ v <+: x := by
  obtain ⟨rest, hrest⟩ := h
  simp only [frame, List.append_assoc, List.append_cancel_left_eq] at hrest
  obtain ⟨h1, h⟩ := List.append_inj hrest (by rw [be32_length, hml])
  obtain ⟨h2, h⟩ := List.append_inj h (by rw [be32_length, hvl])
  exact ⟨h1.symm, h2.symm, rest, by rw [← h, List.append_assoc]⟩

theorem readMessage_whole (hf : Fetches bs taken) (hfail : Fails bs taken) {msg v : Bytes}
    (hfits : Fits (msg, v)) {m : Message} (hparse : lib.parseMessage msg = (true, m))
    (hle : msg.length ≤ maxSize) {message : Message} {value : Option Bytes} {s : σ}
    (h : taken s ++ frame msg v <+: taken (readMessage lib maxSize bs message value s).stream) :
    (readMessage lib maxSize bs message value s).status = .success := by
  obtain ⟨hm, hv⟩ := hfits
  dsimp only at hm hv
  have hlen := frame_length msg v
  obtain ⟨o₁, h₁, hsome₁, hnone₁⟩ := readHeader_fetches hf s
  unfold readMessage at h ⊢
  split at h
  all_goals rename_i s₁ he₁; simp only [he₁] at h₁ hsome₁ hnone₁
  · rw [h₁, List.prefix_append_right_inj] at h
    rcases hnone₁ hfail trivial with hlt | hmagic
    · have := h.length_le
      omega
    · obtain ⟨rest, rfl⟩ := h
      exact absurd rfl hmagic
  obtain ⟨ml, vl, hml, hvl, rfl, hsizes⟩ := hsome₁ _ rfl
  obtain ⟨rfl, rfl⟩ := Prod.mk.inj hsizes
  -- the header taken is that of the packet
  have hhead : ∀ {t : σ} {x : Bytes}, taken t = taken s ++ (magicString ++ (ml ++ vl) ++ x) →
      taken s ++ frame msg v <+: taken t →
      fromBe32 ml = msg.length ∧ fromBe32 vl = v.length ∧ msg ++ v <+: x := by
    intro t x ht hp
    rw [ht, List.prefix_append_right_inj] at hp
    obtain ⟨rfl, rfl, hx⟩ := frame_prefix hml hvl hp
    exact ⟨fromBe32_be32 _ hm, fromBe32_be32 _ hv, hx⟩
  split at h
  · rename_i hlarge
    obtain ⟨hml', -, -⟩ := hhead (x := []) (by rw [h₁, List.append_nil]) h
    omega
  rename_i hsmall
  rw [if_neg hsmall]
  obtain ⟨o₂, h₂, hsome₂⟩ := hf.read (fromBe32 ml) s₁
  have hnone₂ := hfail.read (fromBe32 ml) s₁
  split at h
  all_goals rename_i s₂ he₂; simp only [he₂] at h₂ hsome₂ hnone₂
  · obtain ⟨hml', -, hx⟩ := hhead (x := o₂) (by rw [h₂, h₁, List.append_assoc]) h
    have hlt := hnone₂ trivial
    have := hx.length_le
    rw [h₂, List.length_append] at hlt
    rw [List.length_append] at this
    omega
  rename_i b
  obtain ⟨rfl, hb⟩ := hsome₂ b rfl
  have hbody : ∀ {x : Bytes}, msg ++ v <+: b ++ x → b.length = msg.length →
      b = msg ∧ v <+: x := by
    rintro x ⟨rest, hrest⟩ hlen
    rw [List.append_assoc] at hrest
    obtain ⟨h1, h2⟩ := List.append_inj hrest hlen.symm
    exact ⟨h1.symm, rest, h2⟩
  split at h
  · rename_i m' hp
    obtain ⟨hml', -, hx⟩ := hhead (x := b) (by rw [h₂, h₁, List.append_assoc]) h
    obtain ⟨rfl, -⟩ := hbody (x := []) (by rw [List.append_nil]; exact hx) (by omega)
    rw [hparse] at hp
    cases hp
  rename_i m' hp
  obtain ⟨o₃, h₃, hsome₃⟩ := hf.readValue (fromBe32 vl) s₂
  have hnone₃ := hfail.readValue (fromBe32 vl) s₂
  split at h
  all_goals rename_i s₃ he₃; simp only [he₃] at h₃ hsome₃ hnone₃ ⊢
  obtain ⟨hml', hvl', hx⟩ := hhead (x := b ++ o₃)
    (by rw [h₃, h₂, h₁]; simp only [List.append_assoc]) h
  obtain ⟨-, hv'⟩ := hbody hx (by omega)
  have hlt := hnone₃ trivial
  have := hv'.length_le
  rw [h₃, List.length_append] at hlt
  omega

/-- A message is what its packet says. -/
def Says (lib : Lib) (p : Bytes × Bytes) (q : Message × Bytes) : Prop :=
  lib.parseMessage p.1 = (true, q.1) ∧ p.2 = q.2

/-- **The reading side** has taken the packets of the messages it returns, and
maybe more. -/
theorem gatherMessages_fetches (lib : Lib) (maxSize : Nat) (hf : Fetches bs taken) (n : Nat) (s : σ) :
    ∃ (ps : List (Bytes × Bytes)) (tail : Bytes), (∀ p ∈ ps, Fits p) ∧
      taken (gatherMessages lib maxSize bs n s).2 =
        taken s ++ (ps.flatMap (fun p => frame p.1 p.2) ++ tail) ∧
      List.Forall₂ (Says lib) ps (gatherMessages lib maxSize bs n s).1 := by
  induction n generalizing s with
  | zero => exact ⟨[], [], by simp, by simp [gatherMessages], .nil⟩
  | succ n ih =>
    obtain ⟨got, hgot, hsome⟩ := readMessage_fetches lib maxSize hf {} none s
    rw [gatherMessages]
    split
    · rename_i m v s₁ he
      simp only [he] at hgot hsome
      obtain ⟨msg, v', m', hfits, rfl, hparse, rfl, hv⟩ := hsome trivial
      obtain rfl := Option.some.inj hv
      obtain ⟨ps, tail, hall, htaken, hsays⟩ := ih s₁
      refine ⟨(msg, v) :: ps, tail, List.forall_mem_cons.2 ⟨hfits, hall⟩, ?_,
        .cons ⟨hparse, rfl⟩ hsays⟩
      dsimp only
      rw [htaken, hgot, List.flatMap_cons]
      simp only [List.append_assoc]
    all_goals
      rename_i he
      simp only [he] at hgot
      exact ⟨[], got, by simp, by simpa using hgot, .nil⟩

/-- Whatever has been taken as a whole has been returned, if there were calls for
it. -/
theorem gatherMessages_whole (hf : Fetches bs taken) (hfail : Fails bs taken)
    {ms : List (Message × Bytes)}
    (hms : ∀ p ∈ ms, Legible lib p ∧ (lib.serializeMessage p.1).length ≤ maxSize) {n : Nat}
    (hn : ms.length ≤ n) {s : σ}
    (h : taken s ++ encodeMessages lib ms <+: taken (gatherMessages lib maxSize bs n s).2) :
    ms.length ≤ (gatherMessages lib maxSize bs n s).1.length := by
  induction ms generalizing n s with
  | nil => exact Nat.zero_le _
  | cons p ms ih =>
    obtain ⟨⟨hfits, hparse⟩, hle⟩ := hms p List.mem_cons_self
    obtain ⟨n, rfl⟩ := Nat.exists_eq_add_one.2 (show 0 < n by rw [List.length_cons] at hn; omega)
    have hcons : encodeMessages lib (p :: ms) =
        frame (lib.serializeMessage p.1) p.2 ++ encodeMessages lib ms := rfl
    rw [hcons] at h
    obtain ⟨got, hgot, hsome⟩ := readMessage_fetches lib maxSize hf {} none s
    have hwhole : taken s ++ frame (lib.serializeMessage p.1) p.2 <+:
          taken (readMessage lib maxSize bs {} none s).stream →
        (readMessage lib maxSize bs {} none s).status = .success :=
      readMessage_whole hf hfail hfits hparse hle
    rw [gatherMessages] at h ⊢
    split at h
    · rename_i m v s₁ he
      simp only [he] at hgot hsome
      obtain ⟨msg, v', m', hfits', rfl, -, -, -⟩ := hsome trivial
      -- the packet taken first is the first of those that have been
      obtain ⟨ps, tail, -, htaken, -⟩ := gatherMessages_fetches lib maxSize hf n s₁
      have hsplit := h
      dsimp only at hsplit
      rw [htaken, hgot, List.append_assoc, List.prefix_append_right_inj] at hsplit
      obtain ⟨rest, hrest⟩ := hsplit
      rw [List.append_assoc] at hrest
      obtain ⟨hsame, -⟩ := packets_delimited.whole_unique (a := (lib.serializeMessage p.1, p.2))
        (b := (msg, v')) hfits hfits' hrest
      obtain ⟨rfl, rfl⟩ := Prod.mk.inj hsame
      dsimp only at h ⊢
      have := ih (fun q hq => hms q (List.mem_cons_of_mem _ hq)) (n := n) (s := s₁)
        (by rw [List.length_cons] at hn; omega) (by rw [hgot, List.append_assoc]; exact h)
      rw [List.length_cons, List.length_cons]
      omega
    all_goals
      rename_i he
      have hst := hwhole (by
        rw [he]
        exact ((List.prefix_append_right_inj _).2 (List.prefix_append _ _)).trans h)
      obtain ⟨msg, v, m', hfits', rfl, hparse', hm', hv⟩ := hsome hst
      rw [he] at hst hv
    · cases hv
    · rename_i hnot hnone
      exact (hnot v hst hv).elim

/-- What reading keeps, the reading side keeps. -/
structure Keeps (bs : ByteStream σ Bytes) (P : σ → Prop) : Prop where
  read : ∀ n s, P s → P (bs.read n s).2
  readValue : ∀ n s, P s → P (bs.readValue n s).2

theorem readMessage_keeps {P : σ → Prop} (lib : Lib) (maxSize : Nat) (k : Keeps bs P)
    (message : Message) (value : Option Bytes) (h : P s) :
    P (readMessage lib maxSize bs message value s).stream := by
  have h₁ : P (readHeader bs s).2 := by
    have hr := k.read 9 s h
    unfold readHeader
    split
    all_goals rename_i he; simp only [he] at hr
    · exact hr
    · split <;> exact hr
  unfold readMessage
  split
  all_goals rename_i s₁ he₁; simp only [he₁] at h₁
  · exact h₁
  split
  · exact h₁
  rename_i messageSize valueSize _
  have h₂ := k.read messageSize s₁ h₁
  split
  all_goals rename_i s₂ he₂; simp only [he₂] at h₂
  · exact h₂
  split
  · exact h₂
  have h₃ := k.readValue valueSize s₂ h₂
  split
  all_goals rename_i he₃; simp only [he₃] at h₃
  · exact h₃
  · exact h₃

theorem gatherMessages_keeps {P : σ → Prop} (k : Keeps bs P) (n : Nat) (h : P s) :
    P (gatherMessages lib maxSize bs n s).2 := by
  induction n generalizing s with
  | zero => exact h
  | succ n ih =>
    have hm := readMessage_keeps lib maxSize k {} none h
    rw [gatherMessages]
    split
    all_goals rename_i he; simp only [he] at hm
    · exact ih hm
    · exact hm
    · exact hm

end

end MessageStream

open MessageStream

/-- The messages of packets are the first of those whose packets these begin with. -/
theorem says_prefix {lib : Lib} {ps : List (Bytes × Bytes)} {ms qs : List (Message × Bytes)}
    (hms : ∀ p ∈ ms, Legible lib p) (hs : List.Forall₂ (Says lib) ps qs)
    (hp : ps <+: ms.map fun p => (lib.serializeMessage p.1, p.2)) : qs <+: ms := by
  induction hs generalizing ms with
  | nil => exact List.nil_prefix
  | @cons p q ps qs hsay _ ih =>
    cases ms with
    | nil => simp at hp
    | cons m ms =>
      obtain ⟨rfl, htl⟩ := List.cons_prefix_cons.1 hp
      obtain ⟨hparse, hvalue⟩ := hsay
      dsimp only at hparse hvalue
      rw [(hms m List.mem_cons_self).parses] at hparse
      exact List.cons_prefix_cons.2 ⟨Prod.ext (Prod.mk.inj hparse).2.symm hvalue.symm,
        ih (fun p hm => hms p (List.mem_cons_of_mem _ hm)) htl⟩

theorem encodeMessages_eq (lib : Lib) (ms : List (Message × Bytes)) :
    encodeMessages lib ms = (ms.map fun p => (lib.serializeMessage p.1, p.2)).flatMap
      fun p => frame p.1 p.2 := by
  rw [encodeMessages, List.flatMap_map]
  rfl

/-- A value that is taken right after `ReadMessage` might as well have been read by it. -/
theorem readMessage_gather (lib : Lib) (maxSize : Nat) (bs : ByteStream σ ω)
    (take : ω → σ → Option Bytes × σ) (message : Message) (s : σ) :
    readMessage lib maxSize (bs.gather take) message none s =
      match readMessage lib maxSize bs message none s with
      | ⟨.success, m, some v, s⟩ =>
        match take v s with
        | (some b, s) => ⟨.success, m, some b, s⟩
        | (none, s) => ⟨.internalError, m, none, s⟩
      | ⟨.success, m, none, s⟩ => ⟨.success, m, none, s⟩
      | ⟨st, m, _, s⟩ => ⟨st, m, none, s⟩ := by
  have hheader : readHeader (bs.gather take) s = readHeader bs s := rfl
  rw [readMessage, readMessage, hheader]
  rcases readHeader bs s with ⟨_ | ⟨messageSize, valueSize⟩, s₁⟩
  · rfl
  dsimp only
  by_cases hlarge : messageSize > maxSize
  · simp only [if_pos hlarge]
  simp only [if_neg hlarge, ByteStream.gather]
  rcases bs.read messageSize s₁ with ⟨_ | messageBytes, s₂⟩
  · rfl
  dsimp only
  rcases lib.parseMessage messageBytes with ⟨_ | _, m⟩
  · rfl
  dsimp only
  rcases bs.readValue valueSize s₂ with ⟨_ | v, s₃⟩
  · rfl
  dsimp only
  rcases take v s₃ with ⟨_ | b, s₄⟩ <;> rfl

theorem readMessages_gather (lib : Lib) (maxSize : Nat) (bs : ByteStream σ ω)
    (take : ω → σ → Option Bytes × σ) (n : Nat) (s : σ) :
    readMessages lib maxSize bs take n s = gatherMessages lib maxSize (bs.gather take) n s := by
  induction n generalizing s with
  | zero => rfl
  | succ n ih =>
    rw [readMessages, gatherMessages, readMessage_gather]
    rcases readMessage lib maxSize bs {} none s with ⟨_ | _ | _, m, _ | v, s₁⟩
    · rfl
    · dsimp only
      rcases take v s₁ with ⟨_ | b, s₂⟩
      · rfl
      · simp only [ih]
    all_goals rfl

/-- What a conversation over two streams comes to, whatever their calls return: what
is read is the first of what was written, the message whose writing failed
included at most, and all of it that has been taken as a whole. -/
def Carries {ω' : Type} (lib : Lib) (out : ByteStream σ ω) (sent : σ → Bytes) (inp : ByteStream τ ω')
    (take : ω' → τ → Option Bytes × τ) (taken : τ → Bytes) : Prop :=
  ∀ (byteSize : Message → Nat) (maxSize n : Nat) (ms : List (Message × Bytes)) (s : σ) (t : τ),
    (∀ m, byteSize m = (lib.serializeMessage m).length) → (∀ p ∈ ms, Legible lib p) →
    sent s = [] → taken t = [] →
    let w := writeMessages lib byteSize out ms s
    let r := readMessages lib maxSize inp take n t
    taken r.2 <+: sent w.2 →
    r.1 <+: ms.take (w.1 + 1) ∧
    (Fails (inp.gather take) taken → ∀ j ≤ n,
      (∀ p ∈ ms.take j, (lib.serializeMessage p.1).length ≤ maxSize) →
      encodeMessages lib (ms.take j) <+: taken r.2 → ms.take j <+: r.1)

theorem Sends.carries {ω' : Type} {lib : Lib} {out : ByteStream σ ω} {sent : σ → Bytes}
    {inp : ByteStream τ ω'} {take : ω' → τ → Option Bytes × τ} {taken : τ → Bytes}
    (hs : Sends out sent) (hf : Fetches (inp.gather take) taken) :
    Carries lib out sent inp take taken := by
  intro byteSize maxSize n ms s t hb hms hs0 ht0 w
  rw [readMessages_gather]
  intro r hnet
  obtain ⟨-, o, hout, -, hle⟩ := writeMessages_sends lib hs hb ms s
  obtain ⟨ps, tail, hps, htaken, hsays⟩ := gatherMessages_fetches lib maxSize hf n t
  rw [hs0, List.nil_append] at hout
  rw [ht0, List.nil_append] at htaken
  have hlegible : ∀ p ∈ ms.take (w.1 + 1), Legible lib p := fun p hp =>
    hms p (List.mem_of_mem_take hp)
  have hwords : ∀ p ∈ (ms.take (w.1 + 1)).map fun p => (lib.serializeMessage p.1, p.2), Fits p := by
    intro p hp
    obtain ⟨q, hq, rfl⟩ := List.mem_map.1 hp
    exact (hlegible q hq).fits
  have hread : r.1 <+: ms.take (w.1 + 1) := by
    refine says_prefix hlegible hsays (packets_delimited.words_prefix hps hwords ?_)
    rw [← encodeMessages_eq]
    refine (List.prefix_append _ tail).trans ?_
    rw [← htaken]
    exact (hnet.trans (by rw [hout])).trans hle
  refine ⟨hread, fun hfail j hj hsize hwhole => ?_⟩
  have hlen : (ms.take j).length ≤ r.1.length :=
    gatherMessages_whole hf hfail (fun p hp => ⟨hms p (List.mem_of_mem_take hp), hsize p hp⟩)
      (by rw [List.length_take]; omega) (by rw [ht0, List.nil_append]; exact hwhole)
  exact List.prefix_of_prefix_length_le (List.take_prefix _ _)
    (hread.trans (List.take_prefix _ _)) hlen

/-! ## The two implementations -/

/-- A connection, with all that has been read from it. -/
structure Channel (κ : Type*) where
  conn : κ
  got : Bytes := []

namespace OutgoingStringValue

/-- mirrors src/main/outgoing_string_value.cc:38-41 -/
def transferToSocket (watch : Nat) (s : Bytes) (fd : Descriptor) : Option Bool × Descriptor :=
  ReaderWriter.write watch s fd

/-- mirrors src/main/outgoing_string_value.cc:43-46 -/
def toString (s : Bytes) : Bool × Bytes := (true, s)

end OutgoingStringValue

/-- The values that a factory makes (include/kinetic/incoming_value.h): `NewValue` on
a descriptor, which may read or not, and later `ToString`, or whatever else consumes
the value, which reads the rest. Each comes with what it has read. -/
structure IncomingValues (ω : Type) where
  newValue : Nat → Descriptor → Option ω × Reading
  toString : ω → Descriptor → Option Bytes × Reading

namespace PlainByteStream

/-- mirrors src/main/byte_stream.cc:49-51 -/
def writeValue (watch : Nat) (value : Bytes) (fd : Descriptor) : Option Bool × Descriptor :=
  OutgoingStringValue.transferToSocket watch value fd

/-- What has been read into a buffer joins what has been read before. -/
def fetched {α : Type} (ret : Option α) (r : Reading) (c : Channel Descriptor) :
    Option α × Channel Descriptor :=
  (ret, ⟨r.fd, c.got ++ r.buf⟩)

/-- mirrors src/main/byte_stream.cc:34-51. Every call is watched for `watch` turns
of its loop, and returns nothing if it has not returned by then. -/
def stream (watch : Nat) (values : IncomingValues ω) : ByteStream (Channel Descriptor) ω where
  read n c :=
    let r := read watch n c.conn
    fetched (if r.1 = some true then some r.2.buf else none) r.2 c
  write b c := ((write watch b c.conn).1 = some true, { c with conn := (write watch b c.conn).2 })
  readValue n c :=
    let r := values.newValue n c.conn
    fetched r.1 r.2 c
  writeValue b c :=
    ((writeValue watch b c.conn).1 = some true, { c with conn := (writeValue watch b c.conn).2 })

/-- The caller has the value's bytes. -/
def take (values : IncomingValues ω) (value : ω) (c : Channel Descriptor) :
    Option Bytes × Channel Descriptor :=
  let r := values.toString value c.conn
  fetched r.1 r.2 c

/-- `b` bytes have come off the descriptor into the buffer, at most `n`. -/
def Came (n : Nat) (fd : Descriptor) (r : Reading) : Prop :=
  ∃ b ≤ n, r.buf = fd.incoming.take b ∧ r.fd.incoming = fd.incoming.drop b

end PlainByteStream

namespace IncomingValues

/-- **What a factory has to do**: a value of `n` bytes is the next `n` bytes of the
descriptor, whichever of the two calls reads them, and neither reads more. -/
structure Sound (values : IncomingValues ω) : Prop where
  newValue : ∀ n fd, PlainByteStream.Came n fd (values.newValue n fd).2
  toString : ∀ n fd value, (values.newValue n fd).1 = some value →
    let made := (values.newValue n fd).2
    let r := values.toString value made.fd
    PlainByteStream.Came (n - made.buf.length) made.fd r.2 ∧
      ∀ bytes, r.1 = some bytes → bytes = made.buf ++ r.2.buf ∧ bytes.length = n

/-- A value that `NewValue` reads into a string, as `IncomingStringValue` has one. -/
def atOnce (watch : Nat) : IncomingValues Bytes where
  newValue n fd :=
    let r := PlainByteStream.read watch n fd
    (if r.1 = some true then some r.2.buf else none, r.2)
  toString value fd := (some value, ⟨[], fd⟩)

/-- A value that is a size, to be read off the descriptor when it is asked for. -/
def late (watch : Nat) : IncomingValues Nat where
  newValue n fd := (some n, ⟨[], fd⟩)
  toString n fd :=
    let r := PlainByteStream.read watch n fd
    (if r.1 = some true then some r.2.buf else none, r.2)

end IncomingValues

namespace SslByteStream

/-- mirrors src/main/byte_stream.cc:125-131 -/
def writeValue (value : Bytes) (c : Ssl Descriptor) : Bool × Ssl Descriptor :=
  match OutgoingStringValue.toString value with
  | (false, _) => (false, c)
  | (true, s) => write s c

/-- An empty buffer over the connection. -/
def reading (c : Ssl Descriptor) : Ssl Reading := ⟨⟨[], c.conn⟩, c.handed⟩

def fetched (ret : Option Bytes) (r : Ssl Reading) (c : Channel (Ssl Descriptor)) :
    Option Bytes × Channel (Ssl Descriptor) :=
  (ret, ⟨⟨r.conn.fd, r.handed⟩, c.got ++ r.conn.buf⟩)

def stream : ByteStream (Channel (Ssl Descriptor)) Bytes where
  read n c :=
    let r := read n (reading c.conn)
    fetched (if r.1 then some r.2.conn.buf else none) r.2 c
  write b c := ((write b c.conn).1, { c with conn := (write b c.conn).2 })
  readValue n c :=
    let r := readValue n (reading c.conn)
    fetched r.1 r.2 c
  writeValue b c := ((writeValue b c.conn).1, { c with conn := (writeValue b c.conn).2 })

/-- The value is an `IncomingStringValue` (src/main/incoming_string_value.cc:48-56). -/
def take (value : Bytes) (c : Channel (Ssl Descriptor)) : Option Bytes × Channel (Ssl Descriptor) :=
  (some value, c)

end SslByteStream

/-! ### The loops -/

theorem sslLoop_moves {call : Nat → Nat → σ → SysResult × σ} (moved : Nat → σ → Prop)
    (hcall : ∀ offset m s, moved offset s → ∃ k ≤ m, moved (offset + k) (call offset m s).2 ∧
      ((call offset m s).1 = .count k ∨ ((∃ e, (call offset m s).1 = .errno e) ∧ k = 0)))
    (n bytes : Nat) (s : σ) (hm : moved bytes s) :
    ∃ k ≤ n, moved (bytes + k) (sslLoop call bytes n s).2 ∧
      ((sslLoop call bytes n s).1 = true ↔ k = n) := by
  induction n using Nat.strongRecOn generalizing bytes s with
  | ind n ih =>
    rw [sslLoop]
    split
    · rename_i h0
      exact ⟨0, Nat.zero_le n, hm, by simp [h0]⟩
    rename_i h0
    obtain ⟨k, hk, hmoved, hret⟩ := hcall bytes n s hm
    split
    · rename_i j s' he
      simp only [he] at hmoved hret
      obtain rfl : j + 1 = k := by simpa using hret
      obtain ⟨k', hk', hm', hiff⟩ := ih (n - (j + 1)) (by omega) _ _ hmoved
      refine ⟨j + 1 + k', by omega, by rw [← Nat.add_assoc]; exact hm', hiff.trans ?_⟩
      omega
    · rename_i r s' hne he
      simp only [he] at hmoved hret
      have h0' : k = 0 := by
        rcases hret with rfl | ⟨-, h⟩
        · by_contra hk0
          obtain ⟨j, rfl⟩ := Nat.exists_eq_add_one_of_ne_zero hk0
          exact hne j rfl
        · exact h
      subst h0'
      exact ⟨0, Nat.zero_le n, hmoved, by simp; omega⟩

theorem Serves.transferred {call : Nat → Nat → σ → SysResult × σ} {answers : σ → Stream' SysResult}
    {n : Nat} {moved : Nat → σ → Prop} (h : Serves call answers n moved) (fuel : Nat) {s : σ}
    (hm : moved 0 s) :
    ∃ k ≤ n, moved k (transferLoop call n fuel 0 0 s).2 ∧
      ((transferLoop call n fuel 0 0 s).1.map Transfer.ok = some true → k = n) := by
  by_cases hok : (transferLoop call n fuel 0 0 s).1.map Transfer.ok = some true
  · obtain ⟨o, ho, hall⟩ := Option.map_eq_some_iff.1 hok
    obtain rfl := Transfer.ok_iff.1 hall
    obtain ⟨m, he, -, hmoved⟩ := h.ended hm ho
    rw [Nat.min_eq_left he.all_worth] at hmoved
    exact ⟨n, Nat.le_refl n, hmoved, fun _ => rfl⟩
  · obtain ⟨k, hk, hmoved⟩ := h.sofar fuel 0 0 hm (Nat.zero_le n)
    exact ⟨k, hk, hmoved, fun h => absurd h hok⟩

theorem narrow_toNat_le (m : Nat) : (narrow m).toNat ≤ m := by
  by_cases hp : 0 < narrow m
  · rcases Nat.lt_or_ge m (2 ^ 31) with hlt | hge
    · rw [narrow_of_lt hlt, Int.toNat_natCast]
    · exact Nat.le_trans (Nat.le_add_right _ _) (narrow_of_le hge hp)
  · rw [Int.toNat_of_nonpos (Int.not_lt.1 hp)]
    exact Nat.zero_le m

theorem Ssl.call_cases {κ ρ : Type*} (serve : Nat → κ → ρ × κ) (reject : κ → ρ × κ) (missing : Nat)
    (count : Int) (c : Ssl κ) :
    ∃ h, c.call serve reject missing count =
      ((serve count.toNat c.conn).1, { conn := (serve count.toNat c.conn).2, handed := h }) ∨
    c.call serve reject missing count =
      ((reject c.conn).1, { conn := (reject c.conn).2, handed := h }) := by
  by_cases hp : 0 < count
  · exact ⟨_, .inl (by rw [Ssl.call, if_pos hp])⟩
  · exact ⟨_, .inr (by rw [Ssl.call, if_neg hp])⟩

theorem sslCall_moves {call : Nat → Nat → σ → SysResult × σ} {moved : Nat → σ → Prop}
    (hcall : ∀ offset m s, moved offset s → ∃ k ≤ m, moved (offset + k) (call offset m s).2 ∧
      ((call offset m s).1 = .count k ∨ ((∃ e, (call offset m s).1 = .errno e) ∧ k = 0)))
    (offset m : Nat) (c : Ssl σ) (hm : moved offset c.conn) :
    ∃ k ≤ m, moved (offset + k) (sslCall call offset m c).2.conn ∧
      ((sslCall call offset m c).1 = .count k ∨
        ((∃ e, (sslCall call offset m c).1 = .errno e) ∧ k = 0)) := by
  have hle := narrow_toNat_le m
  unfold sslCall
  generalize narrow m = count at hle
  obtain ⟨h, he | he⟩ := c.call_cases (call offset) (fun s => (.errno (.other 0), s)) m count
  · obtain ⟨k, hk, hmoved, hret⟩ := hcall offset count.toNat c.conn hm
    rw [he]
    exact ⟨k, Nat.le_trans hk hle, hmoved, hret⟩
  · rw [he]
    exact ⟨0, Nat.zero_le m, hm, .inr ⟨⟨_, rfl⟩, rfl⟩⟩

/-- The buffer holds the first `b` bytes, and the descriptor has the others. -/
def Moved (fd : Descriptor) (b : Nat) (r : Reading) : Prop :=
  r.buf = fd.incoming.take b ∧ r.fd.incoming = fd.incoming.drop b

theorem readCall_moves (fd : Descriptor) (offset m : Nat) (r : Reading) (h : Moved fd offset r) :
    ∃ k ≤ m, Moved fd (offset + k) (ReaderWriter.readCall offset m r).2 ∧
      ((ReaderWriter.readCall offset m r).1 = .count k ∨
        ((∃ e, (ReaderWriter.readCall offset m r).1 = .errno e) ∧ k = 0)) := by
  obtain ⟨hbuf, hin⟩ := h
  refine ⟨min r.fd.answers.head.worth m, Nat.min_le_right _ _, ⟨?_, ?_⟩, ?_⟩
  · show r.buf.take offset ++ r.fd.incoming.take _ = _
    rw [hbuf, hin, Stream'.take_take, Nat.min_self, take_add]
  · show r.fd.incoming.drop _ = _
    rw [hin, Stream'.drop_drop]
  · show r.fd.answers.head.upTo m = _ ∨ (∃ e, r.fd.answers.head.upTo m = _) ∧ _
    cases r.fd.answers.head with
    | count j => exact .inl rfl
    | errno e => exact .inr ⟨⟨e, rfl⟩, by simp [SysResult.worth]⟩

/-- The first `b` bytes of the buffer have gone out. -/
def Gone (buf : Bytes) (fd : Descriptor) (b : Nat) (fd' : Descriptor) : Prop :=
  fd'.sent = fd.sent ++ buf.take b

theorem writeCall_moves (buf : Bytes) (fd : Descriptor) (offset m : Nat) (fd' : Descriptor)
    (h : Gone buf fd offset fd') :
    ∃ k ≤ m, Gone buf fd (offset + k) (ReaderWriter.writeCall buf offset m fd').2 ∧
      ((ReaderWriter.writeCall buf offset m fd').1 = .count k ∨
        ((∃ e, (ReaderWriter.writeCall buf offset m fd').1 = .errno e) ∧ k = 0)) := by
  refine ⟨min fd'.answers.head.worth m, Nat.min_le_right _ _, ?_, ?_⟩
  · show fd'.sent ++ (buf.drop offset).take _ = _
    rw [h, List.append_assoc, List.take_add]
  · show fd'.answers.head.upTo m = _ ∨ (∃ e, fd'.answers.head.upTo m = _) ∧ _
    cases fd'.answers.head with
    | count j => exact .inl rfl
    | errno e => exact .inr ⟨⟨e, rfl⟩, by simp [SysResult.worth]⟩

/-! ### The plain stream -/

namespace PlainByteStream

theorem write_gone (watch : Nat) (b : Bytes) (fd : Descriptor) :
    ∃ out, (write watch b fd).2.sent = fd.sent ++ out ∧ out <+: b ∧
      ((write watch b fd).1 = some true → out = b) := by
  obtain ⟨k, -, hgone, hwhole⟩ := (ReaderWriter.write_serves b fd).transferred watch
    (s := fd) ⟨by simp, [], (List.append_nil _).symm, by simp⟩
  exact ⟨b.take k, hgone.sent, List.take_prefix k b, fun h => by
    rw [hwhole h, List.take_length]⟩

theorem read_came (watch n : Nat) (fd : Descriptor) : Came n fd (read watch n fd).2 ∧
    ((read watch n fd).1 = some true → (read watch n fd).2.buf.length = n) := by
  obtain ⟨k, hk, hread, hwhole⟩ := (ReaderWriter.read_serves n fd).transferred watch
    (s := ⟨[], fd⟩) ⟨rfl, rfl, [], (List.append_nil _).symm, by simp⟩
  refine ⟨⟨k, hk, hread.buf, hread.incoming⟩, fun h => ?_⟩
  have hbuf : (read watch n fd).2.buf = fd.incoming.take k := hread.buf
  rw [hbuf, Stream'.length_take, hwhole h]

theorem Came.nothing (n : Nat) (fd : Descriptor) : Came n fd ⟨[], fd⟩ := ⟨0, Nat.zero_le n, rfl, rfl⟩

variable {watch : Nat} {values : IncomingValues ω} {α : Type}

theorem stream_sends : Sends (stream watch values) fun c => c.conn.sent where
  write := fun b c => by simpa [stream] using write_gone watch b c.conn
  writeValue := fun b c => by
    rw [show (stream watch values).writeValue b c = (stream watch values).write b c from rfl]
    simpa [stream] using write_gone watch b c.conn

theorem fetched_stream {n : Nat} {c : Channel Descriptor} {r : Reading} (h : Came n c.conn r)
    (ret : Option α) :
    (fetched ret r c).2.got ++ₛ (fetched ret r c).2.conn.incoming = c.got ++ₛ c.conn.incoming := by
  obtain ⟨k, -, hbuf, hin⟩ := h
  show (c.got ++ r.buf) ++ₛ r.fd.incoming = _
  rw [hbuf, hin, Stream'.append_append_stream, Stream'.append_take_drop]

theorem gather_readValue (hv : values.Sound) (n : Nat) (c : Channel Descriptor) :
    let out := ((stream watch values).gather (take values)).readValue n c
    (∃ got, out.2.got = c.got ++ got ∧ ∀ b, out.1 = some b → b = got ∧ got.length = n) ∧
      out.2.got ++ₛ out.2.conn.incoming = c.got ++ₛ c.conn.incoming := by
  have hnew := hv.newValue n c.conn
  have hlate := hv.toString n c.conn
  dsimp only [ByteStream.gather, stream, fetched, take]
  generalize values.newValue n c.conn = made at hnew hlate ⊢
  obtain ⟨ret, r⟩ := made
  cases ret with
  | none => exact ⟨⟨r.buf, rfl, by simp⟩, fetched_stream hnew (none : Option ω)⟩
  | some value =>
    obtain ⟨hcame, hwhole⟩ := hlate value rfl
    refine ⟨⟨r.buf ++ (values.toString value r.fd).2.buf, List.append_assoc _ _ _, fun b hb => ?_⟩, ?_⟩
    · obtain ⟨hb, hlen⟩ := hwhole b hb
      exact ⟨hb, hb ▸ hlen⟩
    · exact (fetched_stream (c := ⟨r.fd, c.got ++ r.buf⟩) hcame _).trans
        (fetched_stream hnew (some value))

theorem gather_read (n : Nat) (c : Channel Descriptor) :
    let out := ((stream watch values).gather (take values)).read n c
    (∃ got, out.2.got = c.got ++ got ∧ ∀ b, out.1 = some b → b = got ∧ got.length = n) ∧
      out.2.got ++ₛ out.2.conn.incoming = c.got ++ₛ c.conn.incoming := by
  obtain ⟨hcame, hwhole⟩ := read_came watch n c.conn
  refine ⟨⟨_, rfl, fun b hb => ?_⟩, fetched_stream hcame _⟩
  have hb : (if (read watch n c.conn).1 = some true then some (read watch n c.conn).2.buf
    else none) = some b := hb
  split at hb
  · rename_i hr
    exact ⟨(Option.some.inj hb).symm, hwhole hr⟩
  · cases hb

theorem gather_fetches (hv : values.Sound) :
    Fetches ((stream watch values).gather (take values)) Channel.got where
  read := fun n c => (gather_read n c).1
  readValue := fun n c => (gather_readValue hv n c).1

theorem gather_keeps (hv : values.Sound) (bytes : Stream' UInt8) :
    Keeps ((stream watch values).gather (take values)) fun c => c.got ++ₛ c.conn.incoming = bytes where
  read := fun n c h => (gather_read n c).2.trans h
  readValue := fun n c h => (gather_readValue hv n c).2.trans h

end PlainByteStream

namespace IncomingValues

theorem atOnce_sound (watch : Nat) : (atOnce watch).Sound where
  newValue := fun n fd => (PlainByteStream.read_came watch n fd).1
  toString := fun n fd value h => by
    have h : (if (PlainByteStream.read watch n fd).1 = some true then
      some (PlainByteStream.read watch n fd).2.buf else none) = some value := h
    split at h
    · rename_i hr
      obtain rfl := Option.some.inj h
      refine ⟨.nothing _ _, fun bytes hb => ?_⟩
      obtain rfl := Option.some.inj hb
      exact ⟨(List.append_nil _).symm, (PlainByteStream.read_came watch n fd).2 hr⟩
    · cases h

theorem late_sound (watch : Nat) : (late watch).Sound where
  newValue := fun n fd => .nothing n fd
  toString := fun n fd value h => by
    obtain rfl : n = value := Option.some.inj h
    refine ⟨(PlainByteStream.read_came watch n fd).1, fun bytes hb => ?_⟩
    have hb : (if (PlainByteStream.read watch n fd).1 = some true then
      some (PlainByteStream.read watch n fd).2.buf else none) = some bytes := hb
    split at hb
    · rename_i hr
      obtain rfl := Option.some.inj hb
      exact ⟨rfl, (PlainByteStream.read_came watch n fd).2 hr⟩
    · cases hb

end IncomingValues

/-! ### The stream over SSL -/

namespace SslByteStream

theorem write_gone (b : Bytes) (c : Ssl Descriptor) :
    ∃ out, (write b c).2.conn.sent = c.conn.sent ++ out ∧ out <+: b ∧
      ((write b c).1 = true → out = b) := by
  rw [write_eq]
  obtain ⟨k, -, hgone, hiff⟩ := sslLoop_moves (fun k c' => Gone b c.conn k c'.conn)
    (sslCall_moves (writeCall_moves b c.conn)) b.length 0 c (by simp [Gone])
  rw [Nat.zero_add] at hgone
  exact ⟨b.take k, hgone, List.take_prefix k b, fun h => by rw [hiff.1 h, List.take_length]⟩

theorem read_came (n : Nat) (c : Ssl Descriptor) :
    ∃ k ≤ n, Moved c.conn k (read n (reading c)).2.conn ∧
      ((read n (reading c)).1 = true ↔ k = n) := by
  rw [read_eq]
  obtain ⟨k, hk, hmoved, hiff⟩ := sslLoop_moves (fun k c' => Moved c.conn k c'.conn)
    (sslCall_moves (readCall_moves c.conn)) n 0 (reading c) ⟨rfl, rfl⟩
  rw [Nat.zero_add] at hmoved
  exact ⟨k, hk, hmoved, hiff⟩

theorem readValue_eq (n : Nat) (c : Ssl Descriptor) :
    readValue n (reading c) = (if (read n (reading c)).1 then some (read n (reading c)).2.conn.buf
      else none, (read n (reading c)).2) := by
  have hclear : { reading c with conn := { (reading c).conn with buf := [] } } = reading c := rfl
  rw [readValue, hclear]
  rcases read n (reading c) with ⟨_ | _, c'⟩ <;> rfl

theorem stream_sends : Sends stream fun c => c.conn.conn.sent where
  write := fun b c => write_gone b c.conn
  writeValue := fun b c => write_gone b c.conn

theorem stream_readValue (n : Nat) (c : Channel (Ssl Descriptor)) :
    stream.readValue n c = stream.read n c := by
  show fetched (readValue n (reading c.conn)).1 (readValue n (reading c.conn)).2 c = _
  rw [readValue_eq]
  rfl

theorem stream_read (n : Nat) (c : Channel (Ssl Descriptor)) :
    ∃ got, (stream.read n c).2.got = c.got ++ got ∧
      (∀ b, (stream.read n c).1 = some b → b = got ∧ got.length = n) ∧
      ((stream.read n c).1 = none → got.length < n) ∧
      (stream.read n c).2.got ++ₛ (stream.read n c).2.conn.conn.incoming =
        c.got ++ₛ c.conn.conn.incoming := by
  obtain ⟨k, hk, ⟨hbuf, hin⟩, hiff⟩ := read_came n c.conn
  have hlen : (read n (reading c.conn)).2.conn.buf.length = k := by rw [hbuf, Stream'.length_take]
  refine ⟨_, rfl, fun b hb => ?_, fun hb => ?_, ?_⟩
  · have hb : (if (read n (reading c.conn)).1 then some (read n (reading c.conn)).2.conn.buf
        else none) = some b := hb
    split at hb
    · rename_i hok
      exact ⟨(Option.some.inj hb).symm, by rw [hlen, hiff.1 hok]⟩
    · cases hb
  · have hb : (if (read n (reading c.conn)).1 then some (read n (reading c.conn)).2.conn.buf
        else none) = none := hb
    split at hb
    · cases hb
    · rename_i hok
      have : k ≠ n := fun h => hok (hiff.2 h)
      omega
  · show (c.got ++ (read n (reading c.conn)).2.conn.buf) ++ₛ
      (read n (reading c.conn)).2.conn.fd.incoming = _
    rw [hbuf, hin, Stream'.append_append_stream, Stream'.append_take_drop]

theorem gather_take : stream.gather take = stream := by
  have h : ∀ n c, (stream.gather take).readValue n c = stream.readValue n c := by
    intro n c
    dsimp only [ByteStream.gather]
    rcases stream.readValue n c with ⟨_ | v, c'⟩ <;> rfl
  exact congrArg (fun r => ByteStream.mk stream.read stream.write r stream.writeValue)
    (funext fun n => funext fun c => h n c)

theorem stream_fetches : Fetches stream Channel.got where
  read := fun n c => by
    obtain ⟨got, h1, h2, -⟩ := stream_read n c
    exact ⟨got, h1, h2⟩
  readValue := fun n c => by
    rw [stream_readValue]
    obtain ⟨got, h1, h2, -⟩ := stream_read n c
    exact ⟨got, h1, h2⟩

theorem stream_fails : Fails stream Channel.got := by
  have hread : ∀ n c, (stream.read n c).1 = none →
      (stream.read n c).2.got.length < c.got.length + n := by
    intro n c hn
    obtain ⟨got, h1, -, h3, -⟩ := stream_read n c
    rw [h1, List.length_append]
    exact Nat.add_lt_add_left (h3 hn) _
  exact ⟨hread, fun n c => by rw [stream_readValue]; exact hread n c⟩

theorem stream_keeps (bytes : Stream' UInt8) :
    Keeps stream fun c => c.got ++ₛ c.conn.conn.incoming = bytes where
  read := fun n c h => by
    obtain ⟨got, -, -, -, hk⟩ := stream_read n c
    exact hk.trans h
  readValue := fun n c h => by
    rw [stream_readValue]
    obtain ⟨got, -, -, -, hk⟩ := stream_read n c
    exact hk.trans h

end SslByteStream

/-- **A conversation is safe** over either implementation, whatever the calls of the
system return on both sides, in pieces, interrupted, not at all or with an error:
as long as the bytes that come are those that were sent, the messages read are the
first of those written, each with its value, and what has been read is what came. On
a plain stream that is so for every factory whose values are the bytes of the
socket, read at once or when they are asked for. Over SSL a message that has come as
a whole has been read. -/
theorem conversation_safe (lib : Lib) :
    (∀ (ω ω' : Type) (watch watch' : Nat) (values : IncomingValues ω) (values' : IncomingValues ω'),
      values'.Sound →
      Carries lib (PlainByteStream.stream watch values) (fun c => c.conn.sent)
        (PlainByteStream.stream watch' values') (PlainByteStream.take values') Channel.got ∧
      ∀ maxSize n (t : Channel Descriptor),
        let r := (readMessages lib maxSize (PlainByteStream.stream watch' values')
          (PlainByteStream.take values') n t).2
        r.got ++ₛ r.conn.incoming = t.got ++ₛ t.conn.incoming) ∧
    (∀ watch, (IncomingValues.atOnce watch).Sound ∧ (IncomingValues.late watch).Sound) ∧
    Carries lib SslByteStream.stream (fun c => c.conn.conn.sent) SslByteStream.stream
      SslByteStream.take Channel.got ∧
    Fails (SslByteStream.stream.gather SslByteStream.take) Channel.got ∧
    ∀ maxSize n (t : Channel (Ssl Descriptor)),
      let r := (readMessages lib maxSize SslByteStream.stream SslByteStream.take n t).2
      r.got ++ₛ r.conn.conn.incoming = t.got ++ₛ t.conn.conn.incoming := by
  refine ⟨fun ω ω' watch watch' values values' hv => ⟨?_, fun maxSize n t => ?_⟩,
    fun watch => ⟨IncomingValues.atOnce_sound watch, IncomingValues.late_sound watch⟩, ?_, ?_,
    fun maxSize n t => ?_⟩
  · exact PlainByteStream.stream_sends.carries (PlainByteStream.gather_fetches hv)
  · rw [readMessages_gather]
    exact gatherMessages_keeps (PlainByteStream.gather_keeps hv _) n rfl
  · refine SslByteStream.stream_sends.carries ?_
    rw [SslByteStream.gather_take]
    exact SslByteStream.stream_fetches
  · rw [SslByteStream.gather_take]
    exact SslByteStream.stream_fails
  · rw [readMessages_gather, SslByteStream.gather_take]
    exact gatherMessages_keeps (SslByteStream.stream_keeps _) n rfl

/-- Two messages over a connection that moves three bytes a call. -/
def inThrees : List (Message × Bytes) × Descriptor :=
  let ms : List (Message × Bytes) := [({ authType := some .hmacAuth }, [1, 2, 3]), ({}, [])]
  (ms, ⟨Stream'.const (.count 3), fun i => (encodeMessages Codec.plain ms).getD i 0, [], []⟩)

/-- The values are read when they are asked for. -/
theorem conversation_safe_inThrees :
    let values := IncomingValues.late 20
    let bs := PlainByteStream.stream 20 values
    let r := (readMessages Codec.plain 1000 bs (PlainByteStream.take values) 2
      { conn := inThrees.2 }).1
    r = inThrees.1 ∧ r <+: inThrees.1.take 3 := by
  intro values bs r
  have hcarries := ((conversation_safe Codec.plain).1 Nat Nat 20 20 values values
    ((conversation_safe Codec.plain).2.1 20).2).1
  have h := hcarries (fun m => (Codec.plain.serializeMessage m).length) 1000 2 inThrees.1
    { conn := inThrees.2 } { conn := inThrees.2 } (fun _ => rfl)
    (fun p hp => by
      simp only [inThrees, List.mem_cons, List.not_mem_nil, or_false] at hp
      rcases hp with rfl | rfl
      · exact ⟨by decide, by decide +kernel⟩
      · exact ⟨by decide, by decide +kernel⟩) rfl rfl (by decide +kernel)
  have hw : (writeMessages Codec.plain (fun m => (Codec.plain.serializeMessage m).length) bs inThrees.1
      { conn := inThrees.2 }).1 = 2 := by decide +kernel
  rw [hw] at h
  exact ⟨by decide +kernel, h.1⟩

end Kinetic.L1
