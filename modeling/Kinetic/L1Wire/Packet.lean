import Kinetic.L1Wire.Proto
import Kinetic.L1Wire.StringIo

/-!
# `NonblockingPacketWriter` and `NonblockingPacketReader`

A packet is `'F'`, the two lengths, the serialized message and the value. Both
machines walk through the same six states, one string reader or writer a
state, and stop wherever the transport does.

**Account of the bytes.** The writer is described by the bytes it has still to write
(`remaining`), the reader by the bytes it has taken so far (`consumed`) and what it
remembers of them (`Ok`); a call moves bytes between these and the transport,
whatever the fragmentation. `Pending` is a reader in the middle of a packet.

**Assumptions.** None on the transport, which may answer any call in any way. `Ok`
of the reader, which a new one has (`ok_create`) and every call keeps.

**Results.**
* `write_spec`: what a call of `Write` sends is the next of the packet, all that is
  left of it if the call is done.
* `read_spec`: what a call of `Read` takes comes off the front of the stream, and
  how the call ends is an `Outcome`: a whole packet, a part of one, or a reason to
  give up.
* `readLoop_failed`: a call fails because of an answer of the transport, or because
  of what it has read (`Refused`).
* `writeLoop_fuel`, `readLoop_fuel`: six turns are enough.
-/
open Kinetic.Core Kinetic.Core.Socket

namespace Kinetic.L1

/-- mirrors src/main/nonblocking_packet.h:36-43 -/
inductive State where
  | magic
  | messageLength
  | valueLength
  | message
  | value
  | finished
  deriving DecidableEq, Repr

/-- How many transitions are left. -/
def State.rank : State → Nat
  | .magic => 5
  | .messageLength => 4
  | .valueLength => 3
  | .message => 2
  | .value => 1
  | .finished => 0

/-- The string "F". -/
def magicString : Bytes := [0x46]

/-- The packet of a serialized message and a value. -/
def frame (msg value : Bytes) : Bytes :=
  magicString ++ be32 msg.length ++ be32 value.length ++ msg ++ value

/-- The packet of a message and a value. -/
def encode (lib : Lib) (m : Message) (value : Bytes) : Bytes :=
  frame (lib.serializeMessage m) value

@[simp] theorem frame_length (msg value : Bytes) :
    (frame msg value).length = 9 + msg.length + value.length := by
  simp [frame, magicString]; omega

/-! ## The writer -/

/-- mirrors src/main/nonblocking_packet.h:51-72 -/
structure NonblockingPacketWriter where
  message : Message
  value : Bytes
  state : State
  writer : NonblockingStringWriter
  serializedMessage : Bytes
  deriving DecidableEq, Repr

namespace NonblockingPacketWriter

/-- mirrors src/main/nonblocking_packet.cc:33-36 -/
def create (message : Message) (value : Bytes) : NonblockingPacketWriter where
  message := message
  value := value
  state := .magic
  writer := { s := magicString }
  serializedMessage := []

/-- mirrors src/main/nonblocking_packet.cc:102-114 -/
def transitionFromMagic (lib : Lib) (w : NonblockingPacketWriter) :
    Bool × NonblockingPacketWriter :=
  if lib.serializeToString w.message then
    (true, { w with
      serializedMessage := lib.serializeMessage w.message
      writer := { s := be32 (lib.serializeMessage w.message).length }
      state := .messageLength })
  else (false, w)

/-- mirrors src/main/nonblocking_packet.cc:116-123 -/
def transitionFromMessageLength (w : NonblockingPacketWriter) : NonblockingPacketWriter :=
  { w with writer := { s := be32 w.value.length }, state := .valueLength }

/-- mirrors src/main/nonblocking_packet.cc:125-130 -/
def transitionFromValueLength (w : NonblockingPacketWriter) : NonblockingPacketWriter :=
  { w with writer := { s := w.serializedMessage }, state := .message }

/-- mirrors src/main/nonblocking_packet.cc:132-137 -/
def transitionFromMessage (w : NonblockingPacketWriter) : NonblockingPacketWriter :=
  { w with writer := { s := w.value }, state := .value }

/-- mirrors src/main/nonblocking_packet.cc:139-142 -/
def transitionFromValue (w : NonblockingPacketWriter) : NonblockingPacketWriter :=
  { w with state := .finished }

/-- The switch of `Write`, `kFinished` apart. -/
def transition (lib : Lib) (w : NonblockingPacketWriter) : Bool × NonblockingPacketWriter :=
  match w.state with
  | .magic => w.transitionFromMagic lib
  | .messageLength => (true, w.transitionFromMessageLength)
  | .valueLength => (true, w.transitionFromValueLength)
  | .message => (true, w.transitionFromMessage)
  | .value => (true, w.transitionFromValue)
  | .finished => (true, w)

def writeLoop (lib : Lib) : Nat → NonblockingPacketWriter → Socket →
    NonblockingStringStatus × NonblockingPacketWriter × Socket
  | 0, w, k => (.inProgress, w, k)
  | fuel + 1, w, k =>
    match w.writer.write k with
    | (.inProgress, sw, k') => (.inProgress, { w with writer := sw }, k')
    | (.failed, sw, k') => (.failed, { w with writer := sw }, k')
    | (.done, sw, k') =>
      if w.state = .finished then
        match k'.fstat with
        | (false, k'') => (.failed, { w with writer := sw }, k'')
        | (true, k'') => (.done, { w with writer := sw }, k'')
      else
        match transition lib { w with writer := sw } with
        | (false, w') => (.failed, w', k')
        | (true, w') => writeLoop lib fuel w' k'

/-- mirrors src/main/nonblocking_packet.cc:44-100; the socket options set on
the way change no byte. -/
def write (lib : Lib) (w : NonblockingPacketWriter) (k : Socket) :
    NonblockingStringStatus × NonblockingPacketWriter × Socket :=
  match k.fstat with
  | (false, k') => (.failed, w, k')
  | (true, k') => writeLoop lib 6 w k'

/-- The bytes of the packet not yet written. -/
def remaining (lib : Lib) (w : NonblockingPacketWriter) : Bytes :=
  w.writer.rest ++
    match w.state with
    | .magic =>
      be32 (lib.serializeMessage w.message).length ++ be32 w.value.length ++
        lib.serializeMessage w.message ++ w.value
    | .messageLength => be32 w.value.length ++ w.serializedMessage ++ w.value
    | .valueLength => w.serializedMessage ++ w.value
    | .message => w.value
    | .value => []
    | .finished => []

@[simp] theorem remaining_create (lib : Lib) (m : Message) (v : Bytes) :
    remaining lib (create m v) = encode lib m v := by
  simp [remaining, create, encode, frame]

theorem transition_remaining (lib : Lib) (w : NonblockingPacketWriter) (h : w.writer.rest = []) :
    remaining lib (transition lib w).2 = remaining lib w := by
  unfold transition
  split
  all_goals rename_i hs
  · unfold transitionFromMagic
    split <;> simp [remaining, hs, h]
  all_goals
    simp [remaining, hs, h, transitionFromMessageLength, transitionFromValueLength,
      transitionFromMessage, transitionFromValue]

theorem transition_rank (lib : Lib) (w : NonblockingPacketWriter) (h : w.state ≠ .finished)
    (ht : (transition lib w).1 = true) : (transition lib w).2.state.rank < w.state.rank := by
  unfold transition at ht ⊢
  split
  all_goals rename_i hs; simp only [hs] at ht
  · unfold transitionFromMagic at ht ⊢
    split <;> simp_all [State.rank]
  · simp [transitionFromMessageLength, State.rank, hs]
  · simp [transitionFromValueLength, State.rank, hs]
  · simp [transitionFromMessage, State.rank, hs]
  · simp [transitionFromValue, State.rank, hs]
  · exact absurd hs h

/-- What a call of `Write` does, on any transport. -/
structure Writes (lib : Lib) (w : NonblockingPacketWriter) (k : Socket)
    (st : NonblockingStringStatus) (w' : NonblockingPacketWriter) (k' : Socket) (out : Bytes) :
    Prop where
  gave : Gave k k' out
  remaining : w.remaining lib = out ++ w'.remaining lib
  full : st = .done → w'.remaining lib = []

theorem writeLoop_spec (lib : Lib) (fuel : Nat) (w : NonblockingPacketWriter) (k : Socket) :
    ∃ out, Writes lib w k (writeLoop lib fuel w k).1 (writeLoop lib fuel w k).2.1
      (writeLoop lib fuel w k).2.2 out := by
  induction fuel generalizing w k with
  | zero => exact ⟨[], Gave.refl k, rfl, by simp [writeLoop]⟩
  | succ fuel ih =>
    obtain ⟨x, hg, hrest, hfull⟩ := w.writer.write_spec k
    have hrem : w.remaining lib = x ++ remaining lib { w with writer := (w.writer.write k).2.1 } := by
      simp only [remaining, hrest, List.append_assoc]
    unfold writeLoop
    split
    all_goals rename_i sw k₁ he; simp only [he] at hg hrem hfull
    · exact ⟨x, hg, hrem, by simp⟩
    · exact ⟨x, hg, hrem, by simp⟩
    · have h0 : sw.rest = [] := hfull trivial
      split
      · rename_i hs
        have hgf := k₁.fstat_gave
        have hdone : remaining lib { w with writer := sw } = [] := by simp [remaining, h0, hs]
        have hg' := hg.trans hgf
        rw [List.append_nil] at hg'
        split
        all_goals rename_i k₂ hf; simp only [hf] at hg'
        · exact ⟨x, hg', hrem, by simp⟩
        · exact ⟨x, hg', hrem, fun _ => hdone⟩
      · have ht := transition_remaining lib { w with writer := sw } h0
        split
        all_goals rename_i w' hw; simp only [hw] at ht
        · exact ⟨x, hg, hrem.trans (by rw [ht]), by simp⟩
        · obtain ⟨y, hy⟩ := ih w' k₁
          refine ⟨x ++ y, hg.trans hy.gave, ?_, hy.full⟩
          rw [hrem, ← ht, hy.remaining, List.append_assoc]

theorem write_spec (lib : Lib) (w : NonblockingPacketWriter) (k : Socket) :
    ∃ out, Writes lib w k (w.write lib k).1 (w.write lib k).2.1 (w.write lib k).2.2 out := by
  have hgf := k.fstat_gave
  unfold write
  split
  all_goals rename_i k' hf; simp only [hf] at hgf
  · exact ⟨[], hgf, rfl, by simp⟩
  · obtain ⟨y, hy⟩ := writeLoop_spec lib 6 w k'
    exact ⟨y, hgf.trans hy.gave, hy.remaining, hy.full⟩

/-- Six turns are enough for any state. -/
theorem writeLoop_fuel (lib : Lib) (f g : Nat) (w : NonblockingPacketWriter) (k : Socket)
    (hf : w.state.rank < f) (hg : w.state.rank < g) : writeLoop lib f w k = writeLoop lib g w k := by
  induction f generalizing g w k with
  | zero => omega
  | succ f ih =>
    obtain _ | g := g
    · omega
    unfold writeLoop
    split
    · rfl
    · rfl
    · rename_i sw k' _
      split
      · rfl
      · rename_i hs
        have hr := transition_rank lib { w with writer := sw } hs
        split
        · rfl
        · rename_i w' hw
          rw [hw] at hr
          have := hr rfl
          exact ih g w' k' (by simp only at this; omega) (by simp only at this; omega)

end NonblockingPacketWriter

/-! ## The reader -/

/-- mirrors src/main/nonblocking_packet.h:74-98, the references to the
owner's message and value apart. -/
structure NonblockingPacketReader where
  state : State
  magic : Option Bytes
  messageLength : Option Bytes
  valueLength : Option Bytes
  message : Option Bytes
  reader : NonblockingStringReader
  deriving DecidableEq, Repr

/-- A reader with what it refers to: `*response_`, `value_` and the transport. -/
structure ReadState where
  packet : NonblockingPacketReader
  response : Message
  value : Option Bytes
  socket : Socket
  deriving DecidableEq, Repr

namespace NonblockingPacketReader

/-- mirrors src/main/nonblocking_packet.cc:144-148 -/
def create : NonblockingPacketReader where
  state := .magic
  magic := none
  messageLength := none
  valueLength := none
  message := none
  reader := { size := 1 }

/-- The string reader stores the string it has read where it was told to. -/
def store (c : ReadState) : ReadState :=
  let s := some c.packet.reader.buf
  match c.packet.state with
  | .magic => { c with packet := { c.packet with magic := s } }
  | .messageLength => { c with packet := { c.packet with messageLength := s } }
  | .valueLength => { c with packet := { c.packet with valueLength := s } }
  | .message => { c with packet := { c.packet with message := s } }
  | .value => { c with value := s }
  | .finished => { c with value := s }

/-- mirrors src/main/nonblocking_packet.cc:193-202 -/
def transitionFromMagic (c : ReadState) : Bool × ReadState :=
  if c.packet.magic ≠ some magicString then (false, c)
  else (true, { c with packet := { c.packet with reader := { size := 4 }, state := .messageLength } })

/-- mirrors src/main/nonblocking_packet.cc:204-209 -/
def transitionFromMessageLength (c : ReadState) : ReadState :=
  { c with packet := { c.packet with reader := { size := 4 }, state := .valueLength } }

/-- mirrors src/main/nonblocking_packet.cc:211-218 -/
def transitionFromValueLength (c : ReadState) : ReadState :=
  { c with packet := { c.packet with
      reader := { size := fromBe32 (c.packet.messageLength.getD []) }
      state := .message } }

/-- mirrors src/main/nonblocking_packet.cc:220-227 -/
def transitionFromMessage (c : ReadState) : ReadState :=
  { c with packet := { c.packet with
      reader := { size := fromBe32 (c.packet.valueLength.getD []) }
      state := .value } }

/-- mirrors src/main/nonblocking_packet.cc:229-233 -/
def transitionFromValue (lib : Lib) (c : ReadState) : Bool × ReadState :=
  let (ok, response) := lib.parseMessage (c.packet.message.getD [])
  (ok, { c with packet := { c.packet with state := .finished }, response := response })

/-- The switch of `Read`, `kFinished` apart. -/
def transition (lib : Lib) (c : ReadState) : Bool × ReadState :=
  match c.packet.state with
  | .magic => transitionFromMagic c
  | .messageLength => (true, transitionFromMessageLength c)
  | .valueLength => (true, transitionFromValueLength c)
  | .message => (true, transitionFromMessage c)
  | .value => transitionFromValue lib c
  | .finished => (true, c)

/-- One call of the string reader, on the transport of `c`. -/
def readString (c : ReadState) : NonblockingStringStatus × ReadState :=
  let (st, r, k) := c.packet.reader.read c.socket
  (st, { c with packet := { c.packet with reader := r }, socket := k })

def readLoop (lib : Lib) : Nat → ReadState → NonblockingStringStatus × ReadState
  | 0, c => (.inProgress, c)
  | fuel + 1, c =>
    match readString c with
    | (.inProgress, c') => (.inProgress, c')
    | (.failed, c') => (.failed, c')
    | (.done, c') =>
      if c'.packet.state = .finished then (.done, store c')
      else
        match transition lib (store c') with
        | (false, c'') => (.failed, c'')
        | (true, c'') => readLoop lib fuel c''

/-- mirrors src/main/nonblocking_packet.cc:156-191 -/
def read (lib : Lib) (c : ReadState) : NonblockingStringStatus × ReadState := readLoop lib 6 c

/-- The bytes taken for the current packet. -/
def consumed (r : NonblockingPacketReader) : Bytes :=
  match r.state with
  | .magic => r.reader.buf
  | .messageLength => r.magic.getD [] ++ r.reader.buf
  | .valueLength => r.magic.getD [] ++ r.messageLength.getD [] ++ r.reader.buf
  | .message =>
    r.magic.getD [] ++ r.messageLength.getD [] ++ r.valueLength.getD [] ++ r.reader.buf
  | .value | .finished =>
    r.magic.getD [] ++ r.messageLength.getD [] ++ r.valueLength.getD [] ++ r.message.getD [] ++
      r.reader.buf

/-- What the reader remembers of the bytes it has taken. -/
def Ok (lib : Lib) (c : ReadState) : Prop :=
  let r := c.packet
  r.reader.Ok ∧
    match r.state with
    | .magic => r.reader.size = 1
    | .messageLength => r.magic = some magicString ∧ r.reader.size = 4
    | .valueLength =>
      r.magic = some magicString ∧ (r.messageLength.getD []).length = 4 ∧ r.reader.size = 4
    | .message =>
      r.magic = some magicString ∧ (r.messageLength.getD []).length = 4 ∧
        (r.valueLength.getD []).length = 4 ∧ r.reader.size = fromBe32 (r.messageLength.getD [])
    | .value =>
      r.magic = some magicString ∧ (r.messageLength.getD []).length = 4 ∧
        (r.valueLength.getD []).length = 4 ∧
        (r.message.getD []).length = fromBe32 (r.messageLength.getD []) ∧
        r.reader.size = fromBe32 (r.valueLength.getD [])
    | .finished =>
      r.magic = some magicString ∧ (r.messageLength.getD []).length = 4 ∧
        (r.valueLength.getD []).length = 4 ∧
        (r.message.getD []).length = fromBe32 (r.messageLength.getD []) ∧
        r.reader.size = fromBe32 (r.valueLength.getD []) ∧
        r.reader.buf.length = r.reader.size ∧
        lib.parseMessage (r.message.getD []) = (true, c.response)

/-- The reader is in the middle of a packet. -/
structure Pending (lib : Lib) (c : ReadState) : Prop where
  ok : Ok lib c
  unfinished : c.packet.state ≠ .finished
  short : c.packet.reader.buf.length < c.packet.reader.size

/-- `b` is a packet with serialized message `msg` and value `v`. -/
structure Framed (b msg v : Bytes) : Prop where
  bytes : b = frame msg v
  msg_lt : msg.length < 2 ^ 32
  v_lt : v.length < 2 ^ 32

/-- How a call of `Read` ends, and the state it ends in; `fragments` says that
the transport only fragments. -/
inductive Outcome (lib : Lib) (fragments : Prop) : NonblockingStringStatus → ReadState → Prop
  | pending {c : ReadState} : Pending lib c → Outcome lib fragments .inProgress c
  | broken {c : ReadState} : Pending lib c → ¬ fragments → Outcome lib fragments .failed c
  | badMagic {c : ReadState} {b : UInt8} : b ≠ 0x46 → c.packet.consumed = [b] →
      Outcome lib fragments .failed c
  | badMessage {c : ReadState} {msg v : Bytes} : Framed c.packet.consumed msg v →
      (lib.parseMessage msg).1 = false → Outcome lib fragments .failed c
  | complete {c : ReadState} {msg v : Bytes} : Framed c.packet.consumed msg v →
      lib.parseMessage msg = (true, c.response) → c.value = some v →
      Outcome lib fragments .done c

theorem Outcome.mono {lib : Lib} {f g : Prop} {st : NonblockingStringStatus} {c : ReadState}
    (h : Outcome lib f st c) (hgf : g → f) : Outcome lib g st c := by
  cases h with
  | pending hp => exact .pending hp
  | broken hp hn => exact .broken hp fun hg => hn (hgf hg)
  | badMagic hb hc => exact .badMagic hb hc
  | badMessage hf hp => exact .badMessage hf hp
  | complete hf hp hv => exact .complete hf hp hv

/-- What a transition has turned down, the string it found wrong still being in
the reader. A wrong message is noticed when the state has moved on. -/
inductive Refused (lib : Lib) (c : ReadState) : Prop
  | badMagic {b : UInt8} : b ≠ 0x46 → c.packet.state = .magic →
      c.packet.reader = { size := 1, buf := [b] } → Refused lib c
  | badMessage {msg v : Bytes} : c.packet.state = .finished →
      c.packet.reader.buf.length = c.packet.reader.size → Framed c.packet.consumed msg v →
      (lib.parseMessage msg).1 = false → Refused lib c

theorem Refused.outcome {lib : Lib} {fragments : Prop} {c : ReadState} (h : Refused lib c) :
    Outcome lib fragments .failed c := by
  cases h with
  | badMagic hb hs hr => exact .badMagic hb (by rw [consumed, hs, hr])
  | badMessage _ _ hf hp => exact .badMessage hf hp

theorem ok_create (lib : Lib) (m : Message) (v : Option Bytes) (k : Socket) :
    Ok lib ⟨create, m, v, k⟩ := by
  simp [Ok, create, NonblockingStringReader.Ok]

theorem pending_create (lib : Lib) (m : Message) (v : Option Bytes) (k : Socket) :
    Pending lib ⟨create, m, v, k⟩ :=
  ⟨ok_create lib m v k, by simp [create], by simp [create]⟩

@[simp] theorem consumed_create : create.consumed = [] := rfl

@[simp] theorem store_socket (c : ReadState) : (store c).socket = c.socket := by
  unfold store; split <;> rfl

@[simp] theorem store_state (c : ReadState) : (store c).packet.state = c.packet.state := by
  unfold store; split <;> rfl

@[simp] theorem transition_socket (lib : Lib) (c : ReadState) :
    (transition lib c).2.socket = c.socket := by
  unfold transition
  split
  · unfold transitionFromMagic; split <;> rfl
  all_goals rfl

theorem readLoop_took (lib : Lib) (fuel : Nat) (c : ReadState) :
    ∃ got, Took c.socket (readLoop lib fuel c).2.socket got := by
  induction fuel generalizing c with
  | zero => exact ⟨[], .refl _⟩
  | succ fuel ih =>
    obtain ⟨got, hk⟩ : ∃ got, Took c.socket (readString c).2.socket got :=
      c.packet.reader.readLoop_took (c.socket.reads.length + 1) c.socket
    unfold readLoop
    split
    all_goals rename_i c' he; simp only [he] at hk
    · exact ⟨got, hk⟩
    · exact ⟨got, hk⟩
    · have ht : (transition lib (store c')).2.socket = c'.socket := by simp
      split
      · exact ⟨got, by simpa using hk⟩
      · split
        all_goals rename_i c'' hc; simp only [hc] at ht
        · exact ⟨got, by rw [ht]; exact hk⟩
        · obtain ⟨more, h⟩ := ih c''
          rw [ht] at h
          exact ⟨_, hk.trans h⟩

theorem readLoop_sent (lib : Lib) (fuel : Nat) (c : ReadState) :
    (readLoop lib fuel c).2.socket.sent = c.socket.sent := by
  obtain ⟨got, h⟩ := readLoop_took lib fuel c
  rw [h.frame]

theorem store_consumed (c : ReadState) : (store c).packet.consumed = c.packet.consumed := by
  unfold store
  split
  all_goals rename_i hs; simp [consumed, hs]

theorem transition_rank (lib : Lib) (c : ReadState) (h : c.packet.state ≠ .finished)
    (ht : (transition lib c).1 = true) :
    (transition lib c).2.packet.state.rank < c.packet.state.rank := by
  unfold transition at ht ⊢
  split
  all_goals rename_i hs; simp only [hs] at ht
  · unfold transitionFromMagic at ht ⊢
    split <;> simp_all [State.rank]
  · simp [transitionFromMessageLength, State.rank, hs]
  · simp [transitionFromValueLength, State.rank, hs]
  · simp [transitionFromMessage, State.rank, hs]
  · simp [transitionFromValue, State.rank, hs]
  · exact absurd hs h

theorem framed_of_pieces {ml vl msg v : Bytes} (hml : ml.length = 4) (hvl : vl.length = 4)
    (hm : msg.length = fromBe32 ml) (hv : v.length = fromBe32 vl) :
    Framed (magicString ++ ml ++ vl ++ msg ++ v) msg v := by
  refine ⟨?_, by rw [hm]; exact fromBe32_lt hml, by rw [hv]; exact fromBe32_lt hvl⟩
  rw [frame, hm, hv, be32_fromBe32 hml, be32_fromBe32 hvl]

/-- A transition out of a full string keeps the reader's account of the bytes,
unless it finds the magic byte or the message wrong. -/
theorem transition_spec (lib : Lib) (c : ReadState) (h : Ok lib c)
    (hs : c.packet.state ≠ .finished) (hfull : c.packet.reader.buf.length = c.packet.reader.size) :
    (transition lib (store c)).2.packet.consumed = c.packet.consumed ∧
    match (transition lib (store c)).1 with
    | true => Ok lib (transition lib (store c)).2
    | false => Refused lib (transition lib (store c)).2 := by
  obtain ⟨hok, h⟩ := h
  unfold transition
  rw [store_state]
  split
  all_goals rename_i he; simp only [he] at h
  · simp only [store, he, transitionFromMagic]
    obtain ⟨b, hb⟩ := List.length_eq_one_iff.1 (hfull.trans h)
    split
    · rename_i hne
      rw [hb] at hne
      have hr : c.packet.reader = { size := 1, buf := [b] } := by
        rw [← h, ← hb]
      refine ⟨by simp [consumed, he], .badMagic (b := b) ?_ rfl hr⟩
      rintro rfl; exact hne rfl
    · rename_i hne
      have hm := not_not.1 hne
      refine ⟨by simp [consumed, he], ?_⟩
      exact ⟨Nat.zero_le _, hm, rfl⟩
  · obtain ⟨hm, hsz⟩ := h
    refine ⟨by simp [consumed, he, store, transitionFromMessageLength], ?_⟩
    simp only [store, he, transitionFromMessageLength]
    exact ⟨Nat.zero_le _, hm, hfull.trans hsz, rfl⟩
  · obtain ⟨hm, hml, hsz⟩ := h
    refine ⟨by simp [consumed, he, store, transitionFromValueLength], ?_⟩
    simp only [store, he, transitionFromValueLength]
    exact ⟨Nat.zero_le _, hm, hml, hfull.trans hsz, rfl⟩
  · obtain ⟨hm, hml, hvl, hsz⟩ := h
    refine ⟨by simp [consumed, he, store, transitionFromMessage], ?_⟩
    simp only [store, he, transitionFromMessage]
    exact ⟨Nat.zero_le _, hm, hml, hvl, hfull.trans hsz, rfl⟩
  · obtain ⟨hm, hml, hvl, hmsg, hsz⟩ := h
    have hcons : (transitionFromValue lib (store c)).2.packet.consumed = c.packet.consumed := by
      simp [consumed, he, store, transitionFromValue]
    refine ⟨hcons, ?_⟩
    have hframed : Framed c.packet.consumed (c.packet.message.getD []) c.packet.reader.buf := by
      have := framed_of_pieces hml hvl hmsg (hfull.trans hsz)
      simpa [consumed, he, hm] using this
    split
    all_goals rename_i hp; simp only [transitionFromValue, store, he] at hp
    · simp only [store, he, transitionFromValue]
      refine ⟨hok, hm, hml, hvl, hmsg, hsz, hfull, ?_⟩
      exact Prod.ext hp rfl
    · refine .badMessage rfl ?_ (hcons ▸ hframed) hp
      simpa [transitionFromValue, store, he] using hfull
  · exact absurd he hs

theorem readString_spec (lib : Lib) (c : ReadState) (h : Ok lib c) :
    ∃ got, Took c.socket (readString c).2.socket got ∧
      (readString c).2.packet.consumed = c.packet.consumed ++ got ∧ Ok lib (readString c).2 ∧
      (readString c).2.packet.state = c.packet.state ∧
      ((readString c).1 = .done ↔
        (readString c).2.packet.reader.buf.length = (readString c).2.packet.reader.size) := by
  obtain ⟨got, ht, hb, hsz, hok', hfull⟩ := c.packet.reader.read_spec c.socket h.1
  refine ⟨got, ht, ?_, ⟨hok', ?_⟩, rfl, hfull⟩
  · simp only [readString, consumed]
    split <;> simp [hb, List.append_assoc]
  · obtain ⟨hok, h⟩ := h
    simp only [readString]
    split
    all_goals rename_i hs; simp only [hs] at h ⊢; rw [hsz]
    case h_6 =>
      have hfull' := h.2.2.2.2.2.1
      have hg : got = [] := by
        have := hok'; unfold NonblockingStringReader.Ok at this
        rw [hsz, hb, List.length_append] at this
        exact List.length_eq_zero_iff.1 (by omega)
      rw [hb, hg, List.append_nil]
      exact h
    all_goals exact h

theorem readString_short {lib : Lib} {c : ReadState} (h : Ok lib c) (hd : (readString c).1 ≠ .done) :
    Pending lib (readString c).2 := by
  obtain ⟨-, -, -, hok, -, hfull⟩ := readString_spec lib c h
  have hlt : (readString c).2.packet.reader.buf.length < (readString c).2.packet.reader.size :=
    Nat.lt_of_le_of_ne hok.1 fun he => hd (hfull.2 he)
  refine ⟨hok, fun hs => ?_, hlt⟩
  have := hok.2; rw [hs] at this
  exact Nat.ne_of_lt hlt this.2.2.2.2.2.1

/-- **What a call of `Read` does**, on any transport: it takes `got` off the
stream and ends one of five ways. -/
theorem readLoop_spec (lib : Lib) (fragments : Prop) (fuel : Nat) (c : ReadState) (h : Ok lib c)
    (hk : fragments → c.socket.ReadsFragment) (hf : c.packet.state.rank < fuel) :
    ∃ got, Took c.socket (readLoop lib fuel c).2.socket got ∧
      (readLoop lib fuel c).2.packet.consumed = c.packet.consumed ++ got ∧
      Outcome lib fragments (readLoop lib fuel c).1 (readLoop lib fuel c).2 := by
  induction fuel generalizing c with
  | zero => omega
  | succ fuel ih =>
    obtain ⟨x, ht, hc, hok, hst, hfull⟩ := readString_spec lib c h
    have hfrag := c.packet.reader.read_fragment c.socket
    have hshort := readString_short h
    unfold readLoop
    split
    all_goals rename_i c' he; simp only [he] at ht hc hok hst hfull hshort
    · exact ⟨x, ht, hc, .pending (hshort (by simp))⟩
    · refine ⟨x, ht, hc, .broken (hshort (by simp)) fun hk' => ?_⟩
      exact hfrag (hk hk') (congrArg Prod.fst he)
    · have hfl := hfull.1 trivial
      split
      · rename_i hs
        refine ⟨x, by rw [store_socket]; exact ht, by rw [store_consumed]; exact hc, ?_⟩
        obtain ⟨-, hok'⟩ := hok
        rw [hs] at hok'
        obtain ⟨hm, hml, hvl, hmsg, hsz, -, hp⟩ := hok'
        have hframed : Framed (store c').packet.consumed (c'.packet.message.getD [])
            c'.packet.reader.buf := by
          have := framed_of_pieces hml hvl hmsg (hfl.trans hsz)
          rw [store_consumed]
          simpa [consumed, hs, hm] using this
        refine .complete hframed ?_ (by simp [store, hs])
        rw [hp]; simp [store, hs]
      · rename_i hs
        obtain ⟨hcons, hmatch⟩ := transition_spec lib c' hok hs hfl
        have hrank := transition_rank lib (store c') (by rwa [store_state])
        have hsock := transition_socket lib (store c')
        rw [store_socket] at hsock
        rw [store_state, hst] at hrank
        split
        all_goals rename_i c'' hw; simp only [hw] at hcons hmatch hrank hsock
        · exact ⟨x, by rw [hsock]; exact ht, hcons.trans hc, hmatch.outcome⟩
        · obtain ⟨y, hty, hcy, ho⟩ := ih c'' hmatch
            (fun hk' => by rw [hsock]; exact ht.readsFragment (hk hk'))
            (by have := hrank trivial; omega)
          rw [hsock] at hty
          exact ⟨x ++ y, ht.trans hty, by rw [hcy, hcons, hc, List.append_assoc], ho⟩

/-- **How a call of `Read` fails**: an answer of the transport has failed it, the
last that it took, or it has turned something down. -/
theorem readLoop_failed (lib : Lib) (fuel : Nat) (c : ReadState) (h : Ok lib c)
    (hst : (readLoop lib fuel c).1 = .failed) :
    (Pending lib (readLoop lib fuel c).2 ∧
      ∃ a, Broken a ∧ (a :: (readLoop lib fuel c).2.socket.reads) <:+ c.socket.reads) ∨
    Refused lib (readLoop lib fuel c).2 := by
  induction fuel generalizing c with
  | zero => cases hst
  | succ fuel ih =>
    obtain ⟨x, ht, -, hok, -, hfull⟩ := readString_spec lib c h
    have hshort := readString_short h
    have hbroken : (readString c).1 = .failed →
        ∃ a, Broken a ∧ (a :: (readString c).2.socket.reads) <:+ c.socket.reads :=
      c.packet.reader.readLoop_broken (c.socket.reads.length + 1) c.socket
    unfold readLoop at hst ⊢
    split
    all_goals rename_i c' he; simp only [he] at hst ht hok hfull hshort hbroken
    · cases hst
    · exact .inl ⟨hshort (by simp), hbroken trivial⟩
    · split
      · rename_i hs
        rw [if_pos hs] at hst
        cases hst
      · rename_i hs
        rw [if_neg hs] at hst
        obtain ⟨-, hmatch⟩ := transition_spec lib c' hok hs (hfull.1 trivial)
        have hsock := transition_socket lib (store c')
        rw [store_socket] at hsock
        split
        all_goals rename_i c'' hw; simp only [hw] at hst hmatch hsock
        · exact .inr hmatch
        · rcases ih c'' hmatch hst with ⟨hp, a, ha, hsuf⟩ | hr
          · rw [hsock] at hsuf
            exact .inl ⟨hp, a, ha, hsuf.trans ht.reads⟩
          · exact .inr hr

theorem rank_lt (s : State) : s.rank < 6 := by cases s <;> simp [State.rank]

theorem read_spec (lib : Lib) {fragments : Prop} (c : ReadState) (h : Ok lib c)
    (hk : fragments → c.socket.ReadsFragment) :
    ∃ got, Took c.socket (read lib c).2.socket got ∧
      (read lib c).2.packet.consumed = c.packet.consumed ++ got ∧
      Outcome lib fragments (read lib c).1 (read lib c).2 :=
  readLoop_spec lib fragments 6 c h hk (rank_lt _)

theorem readLoop_fuel (lib : Lib) (f g : Nat) (c : ReadState) (hf : c.packet.state.rank < f)
    (hg : c.packet.state.rank < g) : readLoop lib f c = readLoop lib g c := by
  induction f generalizing g c with
  | zero => omega
  | succ f ih =>
    obtain _ | g := g
    · omega
    unfold readLoop
    split
    · rfl
    · rfl
    · rename_i c' he
      have hst : c'.packet.state = c.packet.state := congrArg (·.2.packet.state) he.symm
      split
      · rfl
      · rename_i hs
        have hr := transition_rank lib (store c') (by rwa [store_state])
        rw [store_state, hst] at hr
        split
        · rfl
        · rename_i c'' hw
          rw [hw] at hr
          have := hr rfl
          exact ih g c'' (by simp only at this; omega) (by simp only at this; omega)

end NonblockingPacketReader
end Kinetic.L1
