import Kinetic.L1Wire.Codec
import Kinetic.L2Service.Device

/-!
# The handshake

The constructor of `NonblockingReceiver` waits for the device to speak: it
enters a handler of its own under sequence number -1 and calls `Receive` until
that handler has been called, `Receive` has failed, or thirty seconds are over.
`handshake` is the constructor over the turns of its loop, each with the bytes
that have arrived by then, the answers of the transport, and what the clock says
at its end.

Nothing of it is left behind. While the loop waits (`Shaking`), every packet
read is one that `Receive` goes past; the packet that calls the handler empties
both maps, so the same `Receive` stops there, with the rest of the input unread
(`Greeted`); after anything else the handler has had an error (`Lost`) and the
constructor throws.
-/
open Kinetic.Core

namespace Kinetic.L2

open L1 NonblockingPacketService

/-- mirrors src/main/nonblocking_packet_receiver.cc:80-91 -/
structure HandshakeHandler where
  done : Bool
  success : Bool

namespace HandshakeHandler

def new : HandshakeHandler := ⟨false, false⟩

def call (hh : HandshakeHandler) : Completion → HandshakeHandler
  | .handle _ _ _ => ⟨true, true⟩
  | .error _ _ _ => { hh with done := true }

/-- The handler after the calls in the log. -/
def after (log : List Event) : HandshakeHandler := (completions log).foldl call new

end HandshakeHandler

/-- One turn of the constructor's loop; `late`: `now - start > 30` at its end. -/
structure HandshakeTurn where
  arrives : Bytes := []
  reads : List IoResult := []
  late : Bool := false

def HandshakeTurn.io (turn : HandshakeTurn) : Io := { arrives := turn.arrives, reads := turn.reads }

namespace NonblockingReceiver

/-- -1 as a `HandlerKey`. -/
def handshakeKey : Nat := 2 ^ 64 - 1

/-- `map_.insert(make_pair(-1, make_pair(hh, -1)))` -/
def handshakeMap : Dict Int (Nat × Nat) := (Dict.insertNew ∅ (-1) (0, handshakeKey)).2

/-- `handler_to_message_seq_map_.insert(make_pair(-1, -1))` -/
def handshakeBack : Dict Nat Int := (Dict.insertNew ∅ handshakeKey (-1)).2

/-- The receiver before the loop. The handshake's handler is number 0; no sender
or service is there yet, and `Receive` looks at neither.
mirrors src/main/nonblocking_packet_receiver.cc:93-103 -/
def unshaken (fd : Nat) (hmacKey : Bytes) : NonblockingPacketService :=
  { create fd 0 hmacKey 0 with
    receiver.map := handshakeMap
    receiver.handlerToMessageSeqMap := handshakeBack }

/-- mirrors src/main/nonblocking_packet_receiver.cc:106-115; `none` when the
turns run out. -/
def handshakeLoop (lib : Lib) :
    List HandshakeTurn → NonblockingPacketService → Option NonblockingPacketService
  | [], _ => none
  | turn :: turns, s =>
    match receive lib (s.supply turn.io) with
    | (.error, s) => some s
    | (_, s) =>
      if (HandshakeHandler.after s.log).done then some s
      else if turn.late then some s
      else handshakeLoop lib turns s

/-- The constructor, with the state it leaves the transport in.
mirrors src/main/nonblocking_packet_receiver.cc:93-118 -/
def handshake (lib : Lib) (fd : Nat) (hmacKey : Bytes) (turns : List HandshakeTurn) :
    Option (Except String (Socket × NonblockingReceiver)) :=
  (handshakeLoop lib turns (unshaken fd hmacKey)).map fun s =>
    if (HandshakeHandler.after s.log).success then .ok (s.socket, s.receiver)
    else .error "Could not complete handshake."

end NonblockingReceiver

/-- A service over the receiver that the handshake has returned. -/
def NonblockingPacketService.serving (userId : Int) (socket : Socket) (receiver : NonblockingReceiver) :
    NonblockingPacketService :=
  { create socket.fd userId receiver.hmacKey receiver.connectionId with socket, receiver }

namespace Packet

variable (lib : Lib) (hmacKey : Bytes) (p : Packet)

/-- The packet calls the handshake's handler. -/
def Greets : Prop := p.Unsolicited lib ∨ p.ackSequence lib = some (-1)

/-- `Receive` goes past the packet: it is as it should be, and somebody else's. -/
structure Passed : Prop where
  wellFormed : p.WellFormed lib hmacKey
  acknowledges : p.ackSequence lib ≠ none
  other : ¬ p.Greets lib

end Packet

/-- The connection id of the last packet that carries one. -/
def lastConnectionId (lib : Lib) (ps : List Packet) : Int :=
  (ps.filterMap fun p => (p.command lib).getHeader.connectionId).getLast?.getD 0

theorem lastConnectionId_concat (lib : Lib) (ps : List Packet) (p : Packet) :
    lastConnectionId lib (ps ++ [p]) =
      (p.command lib).getHeader.connectionId.getD (lastConnectionId lib ps) := by
  unfold lastConnectionId
  rw [List.filterMap_append]
  cases h : (p.command lib).getHeader.connectionId with
  | none => simp [h]
  | some i => simp [h]

variable {lib : Lib} {s t u : NonblockingPacketService} {hmacKey arrived : Bytes}

/-! ## While the handler waits -/

/-- The handshake's entry is there, and nothing else. -/
structure Unanswered (hmacKey : Bytes) (s : NonblockingPacketService) : Prop where
  hmacKey : s.receiver.hmacKey = hmacKey
  scripts : s.scripts = []
  map : s.receiver.map = NonblockingReceiver.handshakeMap
  back : s.receiver.handlerToMessageSeqMap = NonblockingReceiver.handshakeBack
  handler : s.receiver.handler = none
  uncalled : completions s.log = []
  sent : s.socket.sent = []

/-- The loop waits; the packets `ps` have been read, and `Receive` went past
them. -/
structure Shaking (lib : Lib) (hmacKey arrived : Bytes) (ps : List Packet)
    (s : NonblockingPacketService) : Prop where
  unanswered : Unanswered hmacKey s
  reading : Reading lib s
  accounted : stream ps ++ (taken s ++ s.socket.incoming) = arrived
  passed : ∀ p ∈ ps, p.Passed lib hmacKey
  connectionId : s.receiver.connectionId = lastConnectionId lib ps

/-- The handshake's entry is gone, and nobody else's is there. -/
structure Emptied (s : NonblockingPacketService) : Prop where
  map : s.receiver.map = ∅
  back : s.receiver.handlerToMessageSeqMap = ∅
  handler : s.receiver.handler = none

/-- `p` has called the handler, with success; nothing else has been read since. -/
structure Greeted (lib : Lib) (hmacKey arrived : Bytes) (ps : List Packet) (p : Packet)
    (s : NonblockingPacketService) : Prop where
  emptied : Emptied s
  called : HandshakeHandler.after s.log = ⟨true, true⟩
  nonblockingResponse : s.receiver.nonblockingResponse = none
  sent : s.socket.sent = []
  accounted : stream (ps ++ [p]) ++ s.socket.incoming = arrived
  passed : ∀ q ∈ ps, q.Passed lib hmacKey
  wellFormed : p.WellFormed lib hmacKey
  greets : p.Greets lib
  success : (p.command lib).getStatusCode = .success
  connectionId : s.receiver.connectionId = lastConnectionId lib (ps ++ [p])

/-- The handler has had an error. -/
def Lost (s : NonblockingPacketService) : Prop :=
  ∃ status response, completions s.log = [.error 0 status response]

theorem Lost.after (h : Lost s) : HandshakeHandler.after s.log = ⟨true, false⟩ := by
  obtain ⟨status, response, h⟩ := h
  simp [HandshakeHandler.after, h, HandshakeHandler.call, HandshakeHandler.new]

theorem complete_quiet (c : Completion) (h : s.scripts = []) :
    complete lib c s = s.emit (.completed c) := by
  rw [complete, h]
  rfl

open NonblockingReceiver in
theorem Unanswered.lost (h : Unanswered hmacKey s) (status : KineticStatus) :
    Lost (callAllErrorHandlers lib status s) := by
  have hkeys : s.receiver.map.keys = [-1] := by rw [h.map]; rfl
  have hfind : s.receiver.map.find (-1) = some (0, handshakeKey) := by rw [h.map]; rfl
  have hmem : handshakeKey ∈ s.receiver.handlerToMessageSeqMap := by rw [h.back]; decide
  refine ⟨status, none, ?_⟩
  unfold callAllErrorHandlers
  simp only [emit_receiver, h.handler, hkeys, callAllLoop, hfind, if_pos hmem]
  rw [complete_quiet]
  · simp [h.uncalled]
    rfl
  · exact h.scripts

/-- What becomes of a packet read while the handler waits. -/
inductive Judged (lib : Lib) (hmacKey : Bytes) (p : Packet) :
    Option NonblockingPacketServiceStatus → NonblockingPacketService → Prop
  | rejected {st : NonblockingPacketServiceStatus} {t : NonblockingPacketService} :
      Lost t → Judged lib hmacKey p (some st) t
  | refused {t : NonblockingPacketService} : Emptied t → Lost t → Judged lib hmacKey p none t
  | passed {t : NonblockingPacketService} : p.Passed lib hmacKey → Unanswered hmacKey t →
      Judged lib hmacKey p none t
  | greeted {t : NonblockingPacketService} : p.WellFormed lib hmacKey → p.Greets lib →
      (p.command lib).getStatusCode = .success → Emptied t →
      HandshakeHandler.after t.log = ⟨true, true⟩ → Judged lib hmacKey p none t

variable (lib) in
open NonblockingReceiver in
theorem Unanswered.dispatch (h : Unanswered hmacKey s) :
    Emptied (dispatch lib (-1) 0 handshakeKey s) ∧
      completions (dispatch lib (-1) 0 handshakeKey s).log = [(answer 0 s).1] ∧
      (dispatch lib (-1) 0 handshakeKey s).socket = s.socket ∧
      (dispatch lib (-1) 0 handshakeKey s).receiver.nonblockingResponse =
        s.receiver.nonblockingResponse ∧
      (dispatch lib (-1) 0 handshakeKey s).receiver.connectionId = s.receiver.connectionId := by
  have hmem : handshakeKey ∈ s.receiver.handlerToMessageSeqMap := by rw [h.back]; decide
  obtain ⟨v, -, hd⟩ := dispatch_eq (s := s) (x := 0) hmem
  rw [hd, complete_quiet]
  · refine ⟨⟨?_, ?_, rfl⟩, ?_, rfl, rfl, rfl⟩
    · dsimp only [emit_receiver]
      rw [h.map]; rfl
    · dsimp only [emit_receiver]
      rw [h.back]; rfl
    · simp [h.uncalled]
      rfl
  · exact h.scripts

theorem Unanswered.readable (h : Unanswered hmacKey s) {p : Packet}
    (hlen : p.bytes.length < 2 ^ 32) (hvlen : p.value.length < 2 ^ 32)
    (hparse : lib.parseMessage p.bytes = (true, s.receiver.message)) {command : Command}
    (hread : Readable lib s.receiver.message s.receiver.hmacKey command) :
    p.WellFormed lib hmacKey ∧ p.command lib = command := by
  have hm : p.message lib = s.receiver.message := congrArg Prod.snd hparse
  refine ⟨⟨hlen, hvlen, congrArg Prod.fst hparse, fun hs => ?_, ?_⟩, ?_⟩
  · rw [hm] at hs ⊢
    rw [← h.hmacKey]
    exact hread.1 hs
  · rw [hm, hread.2]
  · rw [Packet.command, hm, hread.2]

theorem handshakeMap_find {ack : Int} {x key : Nat}
    (hf : NonblockingReceiver.handshakeMap.find ack = some (x, key)) :
    ack = -1 ∧ x = 0 ∧ key = NonblockingReceiver.handshakeKey := by
  by_cases ha : ack = -1
  · subst ha
    obtain ⟨rfl, rfl⟩ := Prod.mk.inj (Option.some.inj hf)
    exact ⟨rfl, rfl, rfl⟩
  · rw [NonblockingReceiver.handshakeMap, Dict.insertNew_absent rfl, Dict.find_insert,
      if_neg ha] at hf
    cases hf

open NonblockingReceiver in
/-- **A packet** that is read while the handler waits fails it, is passed, or
calls it. -/
theorem Unanswered.process (h : Unanswered hmacKey s) {p : Packet}
    (hlen : p.bytes.length < 2 ^ 32) (hvlen : p.value.length < 2 ^ 32)
    (hparse : lib.parseMessage p.bytes = (true, s.receiver.message)) :
    Judged lib hmacKey p (processResponse lib s).1 (processResponse lib s).2 ∧
    ((processResponse lib s).1 = none →
      (processResponse lib s).2.socket = s.socket ∧
      (processResponse lib s).2.receiver.nonblockingResponse = s.receiver.nonblockingResponse ∧
      (processResponse lib s).2.receiver.connectionId =
        (p.command lib).getHeader.connectionId.getD s.receiver.connectionId) := by
  have hm : p.message lib = s.receiver.message := congrArg Prod.snd hparse
  have hnoted : ∀ c, Unanswered hmacKey (noteCommand c s) := fun _ =>
    ⟨h.hmacKey, h.scripts, h.map, h.back, h.handler, h.uncalled, h.sent⟩
  have hpr := processing lib s
  generalize processResponse lib s = out at hpr ⊢
  cases hpr with
  | mismatch _ _ => exact ⟨.rejected (h.lost _), by simp⟩
  | @unparsed command _ _ =>
    have hu : Unanswered hmacKey { s with receiver.command := command } :=
      ⟨h.hmacKey, h.scripts, h.map, h.back, h.handler, h.uncalled, h.sent⟩
    exact ⟨.rejected (hu.lost _), by simp⟩
  | @unacknowledged command _ _ => exact ⟨.rejected ((hnoted command).lost _), by simp⟩
  | @unmatched command ack hread hsome hf =>
    -- nobody waits under the acksequence
    obtain ⟨hwf, hc⟩ := h.readable hlen hvlen hparse hread
    rw [noteCommand_ackSequence, ← hm, ← hc] at hsome
    change (if p.Unsolicited lib then some (-1) else p.ackSequence lib) = some _ at hsome
    have hne : ack ≠ -1 := fun he => by
      rw [(hnoted command).map, he] at hf
      cases hf
    have hu : ¬ p.Unsolicited lib := fun hu => by
      rw [if_pos hu] at hsome
      exact hne (Option.some.inj hsome).symm
    rw [if_neg hu] at hsome
    refine ⟨.passed ⟨hwf, by rw [hsome]; simp, fun hg => ?_⟩ (hnoted command),
      fun _ => ⟨rfl, rfl, by rw [hc]; rfl⟩⟩
    rcases hg with hg | hg
    · exact hu hg
    · rw [hsome] at hg
      exact hne (Option.some.inj hg)
  | @matched command ack x key hread hsome hf =>
    obtain ⟨hwf, hc⟩ := h.readable hlen hvlen hparse hread
    rw [noteCommand_ackSequence, ← hm, ← hc] at hsome
    change (if p.Unsolicited lib then some (-1) else p.ackSequence lib) = some _ at hsome
    rw [(hnoted command).map] at hf
    obtain ⟨rfl, rfl, rfl⟩ := handshakeMap_find hf
    obtain ⟨he, hcalls, hsock, hrdr, hconn⟩ := (hnoted command).dispatch lib
    refine ⟨?_, fun _ => ⟨hsock, hrdr, by rw [hconn, hc]; rfl⟩⟩
    unfold answer at hcalls
    dsimp only at hcalls
    split at hcalls
    · rename_i hs
      refine .greeted hwf ?_ (by rw [hc, ← noteCommand_statusCode command s]; exact hs) he ?_
      · by_cases hu : p.Unsolicited lib
        · exact .inl hu
        · exact .inr (by rw [if_neg hu] at hsome; exact hsome)
      · rw [HandshakeHandler.after, hcalls]
        rfl
    · exact .refused he ⟨_, _, hcalls⟩

/-! ## Receive -/

/-- How `Receive` ends, if the handler waits. -/
inductive HandshakeEnds (lib : Lib) (hmacKey arrived : Bytes) :
    NonblockingPacketServiceStatus → NonblockingPacketService → Prop
  | waits {ps : List Packet} {t : NonblockingPacketService} : Shaking lib hmacKey arrived ps t →
      HandshakeEnds lib hmacKey arrived .ioWait t
  | lost {st : NonblockingPacketServiceStatus} {t : NonblockingPacketService} : Lost t →
      HandshakeEnds lib hmacKey arrived st t
  | greeted {ps : List Packet} {p : Packet} {t : NonblockingPacketService} :
      Greeted lib hmacKey arrived ps p t → HandshakeEnds lib hmacKey arrived .idle t

theorem Emptied.receiveLoop (h : Emptied s) (hr : s.receiver.nonblockingResponse = none)
    (fuel : Nat) : NonblockingReceiver.receiveLoop lib (fuel + 1) s = (.idle, s) := by
  simp [NonblockingReceiver.receiveLoop, NonblockingReceiver.openResponse, hr, h.map]

theorem Shaking.opens {ps : List Packet} (h : Shaking lib hmacKey arrived ps s) :
    ∃ r s₁, NonblockingReceiver.openResponse s = some (r, s₁) ∧ Unanswered hmacKey s₁ ∧
      s₁.socket = s.socket ∧ s₁.receiver.connectionId = s.receiver.connectionId ∧
      r.consumed = taken s ∧
      NonblockingPacketReader.Pending lib
        ⟨r, s₁.receiver.message, s₁.receiver.value, s₁.socket⟩ := by
  have hu := h.unanswered
  unfold NonblockingReceiver.openResponse
  cases hr : s.receiver.nonblockingResponse with
  | some r => exact ⟨r, s, rfl, hu, rfl, rfl, by rw [taken, hr], h.reading r hr⟩
  | none =>
    have hmap : s.receiver.map ≠ ∅ := by rw [hu.map]; decide
    refine ⟨_, _, if_neg hmap, ⟨hu.hmacKey, hu.scripts, hu.map, hu.back, hu.handler, hu.uncalled,
      hu.sent⟩, rfl, rfl, ?_, NonblockingPacketReader.pending_create lib _ _ _⟩
    rw [taken, hr]
    rfl

variable (lib) in
theorem Unanswered.read (h : Unanswered hmacKey s) (r : NonblockingPacketReader) :
    Unanswered hmacKey (NonblockingReceiver.readResponse lib r s).2 := by
  have hf := readResponse_frame lib r s
  obtain ⟨h1, h2⟩ := readResponse_log lib r s
  refine ⟨hf.hmacKey.trans h.hmacKey, hf.scripts.trans h.scripts, hf.map.trans h.map,
    hf.back.trans h.back, hf.handler.trans h.handler, ?_, hf.sent.trans h.sent⟩
  by_cases hd : (NonblockingReceiver.readResponse lib r s).1 = .done
  · rw [h1 hd, completions_append, h.uncalled]
    rfl
  · rw [h2 hd, h.uncalled]

/-- **Receive**, by the packets it reads: each is passed, or is the last. -/
theorem Shaking.receiveLoop {ps : List Packet} (fuel : Nat) (h : Shaking lib hmacKey arrived ps s)
    (hfuel : s.socket.reads.length < fuel) :
    HandshakeEnds lib hmacKey arrived (NonblockingReceiver.receiveLoop lib fuel s).1
      (NonblockingReceiver.receiveLoop lib fuel s).2 := by
  induction fuel generalizing s ps with
  | zero => omega
  | succ fuel ih =>
    obtain ⟨r, s₁, he, hu, hsock, hconn, htaken, hpend⟩ := h.opens
    obtain ⟨got, c, ht, hc, -, ho, hresp, -, hnext, hgone⟩ :=
      readResponse_spec r hpend (fun h : False => h.elim)
    have hu₁ := hu.read lib r
    have hconn₁ := (readResponse_frame lib r s₁).connectionId
    simp only [NonblockingReceiver.receiveLoop, he]
    generalize NonblockingReceiver.readResponse lib r s₁ = out at *
    obtain ⟨st, t⟩ := out
    dsimp only at ht ho hresp hnext hgone hu₁ hconn₁
    have hbytes : c.packet.consumed ++ t.socket.incoming = taken s ++ s.socket.incoming := by
      rw [hc, htaken, ← hsock, ht.stream, List.append_assoc]
    cases st with
    | inProgress =>
      have hn := hnext (by simp)
      refine .waits ⟨hu₁, fun r' hr' => ?_, ?_, h.passed, ?_⟩
      · have hp : NonblockingPacketReader.Pending lib c := by cases ho; assumption
        rw [hn] at hr'
        obtain rfl := Option.some.inj hr'
        exact pending_congr hp rfl
      · rw [taken, hn]
        dsimp only
        rw [hbytes, h.accounted]
      · rw [hconn₁, hconn, h.connectionId]
    | failed => exact .lost (hu₁.lost _)
    | done =>
      obtain ⟨hlt, hnone⟩ : t.socket.reads.length < s.socket.reads.length ∧
          t.receiver.nonblockingResponse = none := by
        rw [← hsock]
        exact ⟨ht.used (hpend.takes ho hc), hgone rfl⟩
      obtain ⟨msg, v, hframed, hparse, -⟩ : ∃ msg v,
          NonblockingPacketReader.Framed c.packet.consumed msg v ∧
          lib.parseMessage msg = (true, t.receiver.message) ∧ c.value = some v := by
        cases ho with
        | complete hf hp hv => exact ⟨_, _, hf, by rw [← hresp]; exact hp, hv⟩
      -- the packet just read
      have hstream : stream (ps ++ [⟨msg, v⟩]) ++ t.socket.incoming = arrived := by
        rw [← h.accounted, ← hbytes, hframed.bytes]
        simp [stream, Packet.encoded]
      obtain ⟨hj, hkeeps⟩ := hu₁.process (p := ⟨msg, v⟩) hframed.msg_lt hframed.v_lt hparse
      dsimp only
      generalize NonblockingReceiver.processResponse lib t = out at hj hkeeps ⊢
      obtain ⟨st', u⟩ := out
      dsimp only at hj hkeeps ⊢
      cases hj with
      | rejected hl => exact .lost hl
      | refused hemp hl =>
        obtain ⟨-, hrdr, -⟩ := hkeeps rfl
        obtain ⟨fuel, rfl⟩ : ∃ k, fuel = k + 1 := ⟨fuel - 1, by omega⟩
        dsimp only
        rw [hemp.receiveLoop (hrdr.trans hnone)]
        exact .lost hl
      | passed hp hu₂ =>
        obtain ⟨hs', hrdr, hcid⟩ := hkeeps rfl
        have hnext : Shaking lib hmacKey arrived (ps ++ [⟨msg, v⟩]) u := by
          refine ⟨hu₂, fun r' hr' => ?_, ?_, ?_, ?_⟩
          · rw [hrdr, hnone] at hr'; cases hr'
          · rw [taken, hrdr, hnone, hs']
            exact hstream
          · simp only [List.mem_append, List.mem_singleton]
            rintro q (hq | rfl)
            · exact h.passed q hq
            · exact hp
          · rw [hcid, hconn₁, hconn, h.connectionId, lastConnectionId_concat]
        exact ih hnext (by rw [hs']; omega)
      | greeted hwf hg hs hemp hcall =>
        obtain ⟨hs', hrdr, hcid⟩ := hkeeps rfl
        obtain ⟨fuel, rfl⟩ : ∃ k, fuel = k + 1 := ⟨fuel - 1, by omega⟩
        dsimp only
        rw [hemp.receiveLoop (hrdr.trans hnone)]
        refine .greeted (p := ⟨msg, v⟩) ⟨hemp, hcall, hrdr.trans hnone, by rw [hs', hu₁.sent], ?_,
          h.passed, hwf, hg, hs, ?_⟩
        · rw [hs']; exact hstream
        · rw [hcid, hconn₁, hconn, h.connectionId, lastConnectionId_concat]

/-! ## The constructor -/

def arrivals (turns : List HandshakeTurn) : Bytes := turns.flatMap HandshakeTurn.arrives

theorem Shaking.supply {ps : List Packet} (h : Shaking lib hmacKey arrived ps s)
    (turn : HandshakeTurn) :
    Shaking lib hmacKey (arrived ++ turn.arrives) ps (s.supply turn.io) := by
  have hu := h.unanswered
  refine ⟨⟨hu.hmacKey, rfl, hu.map, hu.back, hu.handler, hu.uncalled, hu.sent⟩, fun r hr => ?_, ?_,
    h.passed, h.connectionId⟩
  · exact pending_congr (h.reading r hr) rfl
  · rw [← h.accounted]
    simp [NonblockingPacketService.supply, HandshakeTurn.io, taken, List.append_assoc]

theorem unshaken_shaking (fd : Nat) (hmacKey : Bytes) :
    Shaking lib hmacKey [] [] (NonblockingReceiver.unshaken fd hmacKey) :=
  ⟨⟨rfl, rfl, rfl, rfl, rfl, rfl, rfl⟩, fun r hr => (by cases hr), rfl, by simp, rfl⟩

/-- **The loop** ends without success, or with the packet it has waited for. -/
theorem handshakeLoop_ends {ps : List Packet} {turns : List HandshakeTurn}
    (h : Shaking lib hmacKey arrived ps s)
    (he : NonblockingReceiver.handshakeLoop lib turns s = some t) :
    (HandshakeHandler.after t.log).success = false ∨
    ∃ used qs p, used <+: turns ∧ Greeted lib hmacKey (arrived ++ arrivals used) qs p t := by
  induction turns generalizing s arrived ps with
  | nil => cases he
  | cons turn turns ih =>
    have hends : HandshakeEnds lib hmacKey (arrived ++ turn.arrives)
        (NonblockingReceiver.receive lib (s.supply turn.io)).1
        (NonblockingReceiver.receive lib (s.supply turn.io)).2 :=
      (h.supply turn).receiveLoop _ (Nat.lt_succ_self _)
    unfold NonblockingReceiver.handshakeLoop at he
    generalize NonblockingReceiver.receive lib (s.supply turn.io) = out at hends he
    obtain ⟨st, u⟩ := out
    cases hends with
    | lost hl =>
      -- whatever `Receive` returned, the handler is done and has no success
      have hu : u = t := by
        cases st <;> simpa [hl.after] using he
      rw [← hu, hl.after]
      exact .inl rfl
    | greeted hg =>
      have hu : u = t := by simpa [hg.called] using he
      rw [← hu]
      exact .inr ⟨[turn], _, _, ⟨turns, rfl⟩, by simpa [arrivals] using hg⟩
    | waits hw =>
      have hwait : HandshakeHandler.after u.log = HandshakeHandler.new := by
        rw [HandshakeHandler.after, hw.unanswered.uncalled]
        rfl
      simp only [hwait, HandshakeHandler.new, Bool.false_eq_true, if_false] at he
      split at he
      · obtain rfl := Option.some.inj he
        rw [hwait]
        exact .inl rfl
      · rcases ih hw he with hs | ⟨used, qs, p, hpre, hg⟩
        · exact .inl hs
        · refine .inr ⟨turn :: used, qs, p, List.cons_prefix_cons.2 ⟨rfl, hpre⟩, ?_⟩
          rw [List.append_assoc] at hg
          exact hg

theorem handshakeLoop_late {turns : List HandshakeTurn}
    (he : NonblockingReceiver.handshakeLoop lib turns s = none) :
    ∀ turn ∈ turns, turn.late = false := by
  induction turns generalizing s with
  | nil => simp
  | cons turn turns ih =>
    unfold NonblockingReceiver.handshakeLoop at he
    split at he
    · cases he
    · split at he
      · cases he
      · split at he
        · cases he
        · rename_i hl
          rintro turn' (_ | ⟨_, hm⟩)
          · exact Bool.eq_false_iff.2 hl
          · exact ih he turn' hm

theorem handshake_greeted {fd : Nat} {turns : List HandshakeTurn} {socket : Socket}
    {receiver : NonblockingReceiver}
    (h : NonblockingReceiver.handshake lib fd hmacKey turns = some (.ok (socket, receiver))) :
    ∃ t used ps p, used <+: turns ∧ Greeted lib hmacKey (arrivals used) ps p t ∧
      t.socket = socket ∧ t.receiver = receiver := by
  obtain ⟨t, he, ht⟩ := Option.map_eq_some_iff.1 h
  split at ht
  · rename_i hs
    obtain ⟨rfl, rfl⟩ := Prod.mk.inj (Except.ok.inj ht)
    rcases handshakeLoop_ends (unshaken_shaking fd hmacKey) he with hf | ⟨used, qs, p, hpre, hg⟩
    · rw [hf] at hs; cases hs
    · exact ⟨t, used, qs, p, hpre, hg, rfl, rfl⟩
  · cases ht

theorem handshake_fresh {fd : Nat} {turns : List HandshakeTurn} {socket : Socket}
    {receiver : NonblockingReceiver} (userId : Int)
    (h : NonblockingReceiver.handshake lib fd hmacKey turns = some (.ok (socket, receiver))) :
    Fresh (serving userId socket receiver) := by
  obtain ⟨t, _, _, _, _, hg, rfl, rfl⟩ := handshake_greeted h
  exact ⟨rfl, rfl, rfl, rfl, hg.nonblockingResponse, hg.emptied.handler, hg.emptied.map,
    hg.emptied.back, rfl, rfl, rfl, rfl, hg.sent⟩

/-- **The handshake leaves a clean receiver.** Once the clock says that it is
late, the constructor has thrown or returned. If it returns, nobody waits,
nothing is partly read and no handler is current; the bytes that have arrived are
the packets before the greeting, the greeting, and the input left unread; the
earlier packets were all as they should be and somebody else's, the greeting was
a success, and the connection id is the last that these packets carry. -/
theorem handshake_clean (lib : Lib) (fd : Nat) (hmacKey : Bytes) (turns : List HandshakeTurn) :
    ((∃ turn ∈ turns, turn.late = true) →
      NonblockingReceiver.handshake lib fd hmacKey turns ≠ none) ∧
    ∀ socket receiver,
      NonblockingReceiver.handshake lib fd hmacKey turns = some (.ok (socket, receiver)) →
      receiver.map = ∅ ∧ receiver.handlerToMessageSeqMap = ∅ ∧
      receiver.nonblockingResponse = none ∧ receiver.handler = none ∧
      ∃ used earlier p, used <+: turns ∧
        stream (earlier ++ [p]) ++ socket.incoming = arrivals used ∧
        receiver.connectionId = lastConnectionId lib (earlier ++ [p]) ∧
        (∀ q ∈ earlier, q.WellFormed lib hmacKey ∧ q.ackSequence lib ≠ none ∧ ¬ q.Greets lib) ∧
        p.WellFormed lib hmacKey ∧ p.Greets lib ∧
        (p.command lib).getStatusCode = .success := by
  refine ⟨fun ⟨turn, hm, hl⟩ he => ?_, fun socket receiver h => ?_⟩
  · have := handshakeLoop_late (Option.map_eq_none_iff.1 he) turn hm
    rw [hl] at this
    cases this
  · obtain ⟨t, used, ps, p, hpre, hg, rfl, rfl⟩ := handshake_greeted h
    exact ⟨hg.emptied.map, hg.emptied.back, hg.nonblockingResponse, hg.emptied.handler, used, ps, p,
      hpre, hg.accounted, hg.connectionId,
      fun q hq => ⟨(hg.passed q hq).wellFormed, (hg.passed q hq).acknowledges, (hg.passed q hq).other⟩,
      hg.wellFormed, hg.greets, hg.success⟩

/-- A response to nobody, the greeting, and three bytes of what comes next, in
pieces; the second turn finds nothing to read. -/
def greeting : List HandshakeTurn :=
  let packet (authType : Option AuthType) (ack connectionId : Option Int) : Bytes :=
    frame (Codec.serializeMessage {
      authType
      commandBytes := some (Codec.serializeCommand {
        header := some { ackSequence := ack, connectionId }
        status := some { code := some .success } }) }) []
  let bytes := packet none (some 5) (some 9) ++ packet (some .unsolicitedStatus) none (some 42) ++
    [0x46, 0, 0]
  [⟨bytes.take 11, [.count 4, .count 100, .intr, .count 2], false⟩, ⟨[], [], false⟩,
    ⟨bytes.drop 11, List.replicate 24 (.count 30), false⟩, ⟨[7], [.count 1], true⟩]

theorem handshake_clean_greeting :
    ∃ socket receiver,
      NonblockingReceiver.handshake Codec.plain 5 [1] greeting = some (.ok (socket, receiver)) ∧
      socket.incoming = [0x46, 0, 0] ∧ receiver.connectionId = 42 ∧ receiver.map = ∅ := by
  obtain ⟨out, he, hin, hid⟩ : ∃ out,
      NonblockingReceiver.handshake Codec.plain 5 [1] greeting = some (.ok out) ∧
      out.1.incoming = [0x46, 0, 0] ∧ out.2.connectionId = 42 := by
    have h : (match NonblockingReceiver.handshake Codec.plain 5 [1] greeting with
        | some (.ok out) => decide (out.1.incoming = [0x46, 0, 0] ∧ out.2.connectionId = 42)
        | _ => false) = true := by decide +kernel
    split at h
    · rename_i out he
      exact ⟨out, he, of_decide_eq_true h⟩
    · cases h
  exact ⟨out.1, out.2, he, hin, hid, ((handshake_clean Codec.plain 5 [1] greeting).2 _ _ he).1⟩

end Kinetic.L2
