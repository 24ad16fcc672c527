import Kinetic.L1Wire.MessageStream

/-!
# Declared lengths

Both encoders put 32 bits of each length into the header and all of the message
and of the value behind it. A packet declares the lengths it has when they are
below 2^32 (`frame_declares_iff`); nothing in either encoder looks whether they
are, and a reader goes by the header.
-/
open Kinetic.Core Kinetic.Core.Socket

namespace Kinetic.L1

def declaredValueLength (b : Bytes) : Nat := fromBe32 ((b.drop 5).take 4)

def declaredEnd (b : Bytes) : Nat := 9 + declaredLength b + declaredValueLength b

/-- A header, this message and this value, with the lengths that the header declares. -/
structure Declares (out msg v : Bytes) : Prop where
  packet : ∃ header : Bytes, header.length = 9 ∧ header.take 1 = magicString ∧
    out = header ++ (msg ++ v)
  message : declaredLength out = msg.length
  value : declaredValueLength out = v.length
  /-- The next packet is right behind it. -/
  next : ∀ rest, (out ++ rest).drop (declaredEnd (out ++ rest)) = rest

theorem declaredValueLength_frame (msg v rest : Bytes) :
    declaredValueLength (frame msg v ++ rest) = v.length % 2 ^ 32 := by
  have : (frame msg v ++ rest).drop 5 = be32 v.length ++ (msg ++ (v ++ rest)) := by
    have h5 : (magicString ++ be32 msg.length).length = 5 := rfl
    rw [frame, List.append_assoc, List.append_assoc, List.append_assoc, List.drop_left' h5]
  unfold declaredValueLength
  rw [this, List.take_left' (be32_length _), fromBe32_be32_mod]

/-- **A packet declares its lengths when they fit.** -/
theorem frame_declares_iff (msg v : Bytes) :
    Declares (frame msg v) msg v ↔ msg.length < 2 ^ 32 ∧ v.length < 2 ^ 32 := by
  have hpos : 0 < 2 ^ 32 := by omega
  have hml := declaredLength_frame msg v []
  have hvl := declaredValueLength_frame msg v []
  rw [List.append_nil] at hml hvl
  constructor
  · intro h
    have hm := hml.symm.trans h.message
    have hv := hvl.symm.trans h.value
    exact ⟨hm ▸ Nat.mod_lt _ hpos, hv ▸ Nat.mod_lt _ hpos⟩
  · rintro ⟨hm, hv⟩
    refine ⟨⟨magicString ++ be32 msg.length ++ be32 v.length, rfl, rfl, ?_⟩, ?_, ?_, fun rest => ?_⟩
    · rw [frame, List.append_assoc]
    · rw [hml, Nat.mod_eq_of_lt hm]
    · rw [hvl, Nat.mod_eq_of_lt hv]
    · rw [declaredEnd, declaredLength_frame, declaredValueLength_frame, Nat.mod_eq_of_lt hm,
        Nat.mod_eq_of_lt hv, ← frame_length]
      exact List.drop_left' rfl

structure Appends {σ : Type*} (bs : ByteStream σ Bytes) (sent : σ → Bytes) : Prop where
  write : ∀ b s, (bs.write b s).1 = true → sent (bs.write b s).2 = sent s ++ b
  writeValue : ∀ b s, (bs.writeValue b s).1 = true → sent (bs.writeValue b s).2 = sent s ++ b

theorem arrayStream_appends : Appends arrayStream Prod.snd :=
  ⟨fun b s _ => (arrayStream_accepts.write b s).2, fun b s _ => (arrayStream_accepts.writeValue b s).2⟩

/-- What `NonblockingPacketWriter` has written when it is done declares its lengths. -/
def PacketDeclares (lib : Lib) (m : Message) (v : Bytes) : Prop :=
  ∀ (fd : Nat) (turns : List WriteTurn),
    (writeCalls lib turns (NonblockingPacketWriter.create m v) (opened fd)).1 = .done →
    Declares (writeCalls lib turns (NonblockingPacketWriter.create m v) (opened fd)).2.2.sent
      (lib.serializeMessage m) v

/-- What `WriteMessage` has written when it returns 0 declares its lengths,
whatever the stream, `ByteSize()` being the size of what is serialized. -/
def StreamDeclares (lib : Lib) (m : Message) (v : Bytes) : Prop :=
  ∀ (σ : Type) (bs : ByteStream σ Bytes) (sent : σ → Bytes), Appends bs sent →
  ∀ (byteSize : Message → Nat), byteSize m = (lib.serializeMessage m).length → ∀ (s : σ),
    (MessageStream.writeMessage lib byteSize bs m v s).1 = 0 →
    ∃ out, sent (MessageStream.writeMessage lib byteSize bs m v s).2 = sent s ++ out ∧
      Declares out (lib.serializeMessage m) v

section
variable {lib : Lib} {m : Message} {v : Bytes}

theorem MessageStream.writeMessage_ok {σ : Type*} {bs : ByteStream σ Bytes} {sent : σ → Bytes}
    (ha : Appends bs sent) {byteSize : Message → Nat} {s : σ}
    (hb : byteSize m = (lib.serializeMessage m).length)
    (h : (writeMessage lib byteSize bs m v s).1 = 0) :
    lib.serializeToString m = true ∧
      sent (writeMessage lib byteSize bs m v s).2 = sent s ++ encode lib m v := by
  unfold writeMessage writeHeader at h ⊢
  have h1 := ha.write (magicString ++ be32 (byteSize m) ++ be32 v.length) s
  split at h
  · cases h
  rename_i s₁ he₁
  simp only [he₁, forall_const] at h1 ⊢
  split at h
  · rename_i hi
    rw [if_pos hi]
    have h2 := ha.write (lib.serializeMessage m) s₁
    split at h
    · cases h
    rename_i s₂ he₂
    simp only [he₂, forall_const] at h2 ⊢
    have h3 := ha.writeValue v s₂
    split at h
    · cases h
    rename_i s₃ he₃
    simp only [he₃, forall_const] at h3 ⊢
    refine ⟨hi, ?_⟩
    rw [h3, h2, h1, hb]
    simp only [encode, frame, List.append_assoc]
  · cases h

theorem writeCalls_done {fd : Nat} {turns : List WriteTurn}
    (h : (writeCalls lib turns (NonblockingPacketWriter.create m v) (opened fd)).1 = .done) :
    lib.serializeToString m = true ∧
      (writeCalls lib turns (NonblockingPacketWriter.create m v) (opened fd)).2.2.sent =
        encode lib m v := by
  obtain ⟨out, hout, hrem, hfull⟩ :=
    writeCalls_spec lib turns (NonblockingPacketWriter.create m v) (opened fd)
  rw [NonblockingPacketWriter.remaining_create, hfull h, List.append_nil] at hrem
  refine ⟨?_, by rw [hout, hrem]; rfl⟩
  cases hi : lib.serializeToString m with
  | true => rfl
  | false => exact absurd h (NonblockingPacketWriter.writeCalls_uninitialized hi rfl turns _)

theorem writeCalls_bytewise (hi : lib.serializeToString m = true) (fd : Nat) :
    (writeCalls lib [⟨[], List.replicate (encode lib m v).length (.count 1)⟩]
      (NonblockingPacketWriter.create m v) (opened fd)).1 = .done := by
  have hk : Willing { opened fd with
      fstats := [], writes := List.replicate (encode lib m v).length (.count 1) }
      (encode lib m v).length :=
    .bytewise rfl rfl (Nat.le_refl _)
  have hflat : [magicString, be32 (lib.serializeMessage m).length, be32 v.length,
      lib.serializeMessage m, v].flatten = encode lib m v := by
    simp [encode, frame]
  have hdone := NonblockingPacketWriter.write_takes (v := v) hi hk.fstats
    (NonblockingPacketWriter.takes_willing (by rw [hflat]; exact hk))
  unfold writeCalls
  split
  all_goals rename_i he; simp only [he] at hdone
  · cases hdone
  · rfl
  · cases hdone

end

/-- **Lengths are declared where they fit.** For each encoder: what it reports as
written declares the lengths it has exactly when the message cannot be serialized
at all, or the lengths fit into 32 bits. -/
theorem lengths_declared_iff (lib : Lib) (m : Message) (v : Bytes) :
    (PacketDeclares lib m v ↔ lib.serializeToString m = false ∨
      (lib.serializeMessage m).length < 2 ^ 32 ∧ v.length < 2 ^ 32) ∧
    (StreamDeclares lib m v ↔ lib.serializeToString m = false ∨
      (lib.serializeMessage m).length < 2 ^ 32 ∧ v.length < 2 ^ 32) := by
  refine ⟨⟨fun h => ?_, ?_⟩, ⟨fun h => ?_, ?_⟩⟩
  · cases hi : lib.serializeToString m with
    | false => exact .inl rfl
    | true =>
      have hdone := writeCalls_bytewise (v := v) hi 0
      have hd := h 0 _ hdone
      rw [(writeCalls_done hdone).2] at hd
      exact .inr ((frame_declares_iff _ _).1 hd)
  · intro hfit fd turns hdone
    obtain ⟨hi, hsent⟩ := writeCalls_done hdone
    rw [hsent]
    exact (frame_declares_iff _ _).2 (hfit.resolve_left (by simp [hi]))
  · cases hi : lib.serializeToString m with
    | false => exact .inl rfl
    | true =>
      obtain ⟨byteSize, hb⟩ : ∃ byteSize : Message → Nat,
          byteSize m = (lib.serializeMessage m).length := ⟨fun m => (lib.serializeMessage m).length, rfl⟩
      obtain ⟨h0, hs⟩ := MessageStream.writeMessage_accepted arrayStream_accepts hb hi v ([], [])
      obtain ⟨out, hout, hd⟩ := h _ arrayStream _ arrayStream_appends _ hb _ h0
      rw [hs] at hout
      rw [← List.append_cancel_left hout] at hd
      exact .inr ((frame_declares_iff _ _).1 hd)
  · intro hfit σ bs sent ha byteSize hb s h0
    obtain ⟨hi, hs⟩ := MessageStream.writeMessage_ok ha hb h0
    exact ⟨_, hs, (frame_declares_iff _ _).2 (hfit.resolve_left (by simp [hi]))⟩

theorem declared_none {lib : Lib} {m : Message} {v : Bytes} (hi : lib.serializeToString m = true)
    (hv : v.length = 2 ^ 32) {byteSize : Message → Nat}
    (hb : byteSize m = (lib.serializeMessage m).length) (fd : Nat) :
    let r := MessageStream.writeMessage lib byteSize arrayStream m v ([], [])
    let c := writeCalls lib [⟨[], List.replicate (encode lib m v).length (.count 1)⟩]
      (NonblockingPacketWriter.create m v) (opened fd)
    r.1 = 0 ∧ c.1 = .done ∧ r.2.2 = c.2.2.sent ∧
      c.2.2.sent.length = 9 + (lib.serializeMessage m).length + 2 ^ 32 ∧
      declaredValueLength c.2.2.sent = 0 := by
  intro r c
  obtain ⟨h0, hs⟩ := MessageStream.writeMessage_accepted arrayStream_accepts hb hi v ([], [])
  have hdone := writeCalls_bytewise (v := v) hi fd
  have hc : c.2.2.sent = frame (lib.serializeMessage m) v := (writeCalls_done hdone).2
  have hvl := declaredValueLength_frame (lib.serializeMessage m) v []
  rw [List.append_nil, hv, Nat.mod_self] at hvl
  exact ⟨h0, hdone, by rw [hc]; exact hs, by rw [hc, frame_length, hv], by rw [hc]; exact hvl⟩

theorem lengths_truncated :
    let lib : Lib := ⟨fun _ => true, fun _ => [], fun _ => (true, {}), fun _ => [],
      fun _ => (true, {}), fun _ _ => []⟩
    let v : Bytes := List.replicate (2 ^ 32) 0
    let r := MessageStream.writeMessage lib (fun _ => 0) arrayStream {} v ([], [])
    let c := writeCalls lib [⟨[], List.replicate (encode lib {} v).length (.count 1)⟩]
      (NonblockingPacketWriter.create {} v) (opened 3)
    (r.1 = 0 ∧ c.1 = .done ∧ r.2.2 = c.2.2.sent ∧ c.2.2.sent.length = 9 + 0 + 2 ^ 32 ∧
      declaredValueLength c.2.2.sent = 0) ∧
    ¬ ∀ (lib : Lib) (m : Message) (v : Bytes), PacketDeclares lib m v ∧ StreamDeclares lib m v := by
  intro lib v
  have hv : v.length = 2 ^ 32 := List.length_replicate
  have hi : lib.serializeToString {} = true := rfl
  refine ⟨declared_none hi hv rfl 3, fun h => ?_⟩
  have hdone := writeCalls_bytewise (v := v) hi 3
  have hd := (h lib {} v).1 3 _ hdone
  rw [(writeCalls_done hdone).2] at hd
  have hlt := ((frame_declares_iff _ v).1 hd).2
  rw [hv] at hlt
  exact Nat.lt_irrefl _ hlt

end Kinetic.L1
