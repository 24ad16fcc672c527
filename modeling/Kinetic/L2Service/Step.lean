import Kinetic.L2Service.Service
import Mathlib.Logic.Relation

/-!
# The moves of the service

Everything the service ever does to its state, cut at the points where a
callback may run: between two moves the callback sees the state, and its own
`Submit` and `Remove` calls are moves too. `Step` lists the moves with what each
is entitled to assume; that the code only makes these moves is shown in
`Moves`, and an invariant of the moves (`Inv` of `Custody`, and those of the
modules after it) is an invariant of every state the service can be observed in.
-/
open Kinetic.Core

namespace Kinetic.L2

open L1

def alreadyShutDown : KineticStatus := ⟨.clientShutdown, "Client already shut down", 0⟩

/-- The two counters that every `Submit` advances. -/
def NonblockingPacketService.count (s : NonblockingPacketService) : NonblockingPacketService :=
  { s with nextKey := (s.nextKey + 1) % 2 ^ 64, handlers := s.handlers + 1 }

/-- The checks a packet passes before its acksequence is looked at. -/
def Readable (lib : Lib) (m : Message) (hmacKey : Bytes) (command : Command) : Prop :=
  (m.hmacAuth.isSome → validateHmac lib m hmacKey = true) ∧
    lib.parseCommand m.getCommandBytes = (true, command)

/-- The state in which handler `h` is called for the response to `seq`. -/
def answered (seq : Int) (h : Nat) (key : Nat) (s : NonblockingPacketService) :
    NonblockingPacketService :=
  let (c, s) := NonblockingReceiver.answer h { s with
    receiver.handler := some h
    receiver.map := s.receiver.map.erase seq
    receiver.handlerToMessageSeqMap := s.receiver.handlerToMessageSeqMap.erase key }
  s.emit (.completed c)

open NonblockingReceiver in
inductive Step (lib : Lib) : NonblockingPacketService → NonblockingPacketService → Prop
  /-- The transport and the callbacks to come. -/
  | environment {s : NonblockingPacketService} (socket : Socket) (scripts : List (List Action)) :
      socket.sent = s.socket.sent → Step lib s { s with socket, scripts }
  | accept {s : NonblockingPacketService} (m : Message) (c : Command) (v : Bytes) :
      s.failed = false → s.submitDefined = true →
      Step lib s (NonblockingSender.enqueue lib m c v s.handlers s.nextKey s.count)
  | refuse {s : NonblockingPacketService} : s.failed = true →
      Step lib s ((s.count.emit (.refused s.handlers s.nextKey)).emit
        (.completed (.error s.handlers alreadyShutDown none)))
  | removeQueued {s : NonblockingPacketService} {key : Nat} {r : Request} :
      s.sender.requestQueue.find? (·.handlerKey == key) = some r →
      Step lib s { s with
        sender.requestQueue := s.sender.requestQueue.eraseP (·.handlerKey == key)
        log := s.log ++ [.removed r.handler key true] }
  | removeAwaiting {s : NonblockingPacketService} {key : Nat} {seq : Int} {h : Nat} :
      s.receiver.handlerToMessageSeqMap.find key = some seq →
      s.receiver.map.find seq = some (h, key) →
      Step lib s { s with
        receiver.handlerToMessageSeqMap := s.receiver.handlerToMessageSeqMap.erase key
        receiver.map := s.receiver.map.erase seq
        log := s.log ++ [.removed h key false] }
  | start {s : NonblockingPacketService} {r : Request} {rest : List Request} :
      s.failed = false → s.sender.currentWriter = none → s.sender.handler = none →
      s.sender.requestQueue = r :: rest →
      Step lib s { s with
        sender.requestQueue := rest
        sender.messageSequence := r.command.getSequence
        sender.handlerKey := r.handlerKey
        sender.currentWriter := some (NonblockingPacketWriter.create r.message r.value)
        sender.handler := some r.handler }
  | write {s : NonblockingPacketService} {w w' : NonblockingPacketWriter}
      {st : NonblockingStringStatus} {k : Socket} :
      s.failed = false → s.sender.currentWriter = some w → w.write lib s.socket = (st, w', k) →
      Step lib s { s with socket := k, sender.currentWriter := some w' }
  | finish {s : NonblockingPacketService} {w : NonblockingPacketWriter} {h : Nat} :
      s.failed = false → s.sender.currentWriter = some w → w.remaining lib = [] →
      s.sender.handler = some h → h ∉ settled s.log →
      Step lib s { s with
        sender.currentWriter := none
        sender.handler := none
        receiver.map := AList.insert s.sender.messageSequence (h, s.sender.handlerKey)
          s.receiver.map
        receiver.handlerToMessageSeqMap := AList.insert s.sender.handlerKey
          s.sender.messageSequence s.receiver.handlerToMessageSeqMap
        log := s.log ++ [.written h] }
  | writeFail {s : NonblockingPacketService} {h : Nat} (status : KineticStatus) :
      s.sender.handler = some h → h ∉ settled s.log →
      Step lib s (s.emit (.completed (.error h status none)))
  | letGo {s : NonblockingPacketService} : (∀ h, s.sender.handler = some h → h ∈ settled s.log) →
      Step lib s (NonblockingSender.resetHandler s)
  | failQueued {s : NonblockingPacketService} {r : Request} {rest : List Request}
      (status : KineticStatus) :
      s.failed = true ∨ s.sender.currentWriter ≠ none ∧ s.sender.handler = none →
      s.sender.requestQueue = r :: rest →
      Step lib s (NonblockingPacketService.emit { s with sender.requestQueue := rest }
        (.completed (.error r.handler status none)))
  /-- The reader comes and goes, and so does the receiver's current handler. -/
  | bookkeeping {s : NonblockingPacketService} (r : Option NonblockingPacketReader)
      (h : Option Nat) :
      Step lib s { s with receiver.nonblockingResponse := r, receiver.handler := h }
  | read {s s' : NonblockingPacketService} {r : NonblockingPacketReader}
      {st : NonblockingStringStatus} : readResponse lib r s = (st, s') → st ≠ .done → Step lib s s'
  | deliver {s s' : NonblockingPacketService} {r : NonblockingPacketReader} {command : Command}
      {ack : Int} {h : Nat} {key : Nat} :
      readResponse lib r s = (.done, s') →
      Readable lib s'.receiver.message s'.receiver.hmacKey command →
      (noteCommand command s').receiver.command.getHeader.ackSequence = some ack →
      s'.receiver.map.find ack = some (h, key) →
      s'.receiver.handlerToMessageSeqMap.find key = some ack →
      Step lib s (answered ack h key (noteCommand command s'))
  | drop {s s' : NonblockingPacketService} {r : NonblockingPacketReader} {command : Command}
      {ack : Int} :
      readResponse lib r s = (.done, s') →
      Readable lib s'.receiver.message s'.receiver.hmacKey command →
      (noteCommand command s').receiver.command.getHeader.ackSequence = some ack →
      s'.receiver.map.find ack = none →
      Step lib s (noteCommand command s')
  | reject {s s' : NonblockingPacketService} {r : NonblockingPacketReader}
      (command : Command) (connectionId : Int) (status : KineticStatus) :
      readResponse lib r s = (.done, s') →
      Step lib s (NonblockingPacketService.emit
        { s' with receiver.command := command, receiver.connectionId := connectionId }
        (.failedAll status))
  | failAll {s : NonblockingPacketService} (status : KineticStatus) :
      Step lib s (s.emit (.failedAll status))
  | failOne {s : NonblockingPacketService} {seq : Int} {h : Nat} {key : Nat}
      (status : KineticStatus) : Event.failedAll status ∈ s.log →
      s.receiver.map.find seq = some (h, key) →
      s.receiver.handlerToMessageSeqMap.find key = some seq →
      Step lib s (NonblockingPacketService.emit { s with
        receiver.handlerToMessageSeqMap := s.receiver.handlerToMessageSeqMap.erase key }
        (.completed (.error h status none)))
  | clear {s : NonblockingPacketService} :
      (∀ seq h key, s.receiver.map.find seq = some (h, key) → h ∈ settled s.log) →
      Step lib s { s with receiver.map := ∅ }
  | cleanUp {s : NonblockingPacketService} : Step lib s s.cleanUp

abbrev Steps (lib : Lib) := Relation.ReflTransGen (Step lib)

/-! ## What the pieces of the code change -/

theorem enqueue_spec (lib : Lib) (m : Message) (c : Command) (v : Bytes) (h : Nat)
    (key : Nat) (s : NonblockingPacketService) :
    ∃ r : Request, NonblockingSender.enqueue lib m c v h key s = { s with
        sender.sequenceNumber := s.sender.sequenceNumber + 1
        sender.requestQueue := s.sender.requestQueue ++ [r]
        log := s.log ++ [.submitted r] } ∧
      r.handler = h ∧ r.handlerKey = key ∧ r.value = v ∧
      r.command.getSequence = s.sender.sequenceNumber ∧
      r.message.getAuthType = m.getAuthType :=
  ⟨_, rfl, rfl, rfl, rfl, rfl, by
    dsimp only
    split <;> rfl⟩

structure ReadFrame (s s' : NonblockingPacketService) : Prop where
  sent : s'.socket.sent = s.socket.sent
  sender : s'.sender = s.sender
  failed : s'.failed = s.failed
  nextKey : s'.nextKey = s.nextKey
  scripts : s'.scripts = s.scripts
  handlers : s'.handlers = s.handlers
  hmacKey : s'.receiver.hmacKey = s.receiver.hmacKey
  connectionId : s'.receiver.connectionId = s.receiver.connectionId
  handler : s'.receiver.handler = s.receiver.handler
  command : s'.receiver.command = s.receiver.command
  map : s'.receiver.map = s.receiver.map
  back : s'.receiver.handlerToMessageSeqMap = s.receiver.handlerToMessageSeqMap

theorem readResponse_frame (lib : Lib) (r : NonblockingPacketReader)
    (s : NonblockingPacketService) :
    ReadFrame s (NonblockingReceiver.readResponse lib r s).2 := by
  unfold NonblockingReceiver.readResponse
  dsimp only
  have hs := NonblockingPacketReader.readLoop_sent lib 6
    ⟨r, s.receiver.message, s.receiver.value, s.socket⟩
  split <;> exact ⟨hs, rfl, rfl, rfl, rfl, rfl, rfl, rfl, rfl, rfl, rfl, rfl⟩

theorem readResponse_log (lib : Lib) (r : NonblockingPacketReader)
    (s : NonblockingPacketService) :
    let t := NonblockingReceiver.readResponse lib r s
    (t.1 = .done → t.2.log = s.log ++ [.received t.2.receiver.message t.2.receiver.value]) ∧
    (t.1 ≠ .done → t.2.log = s.log) := by
  unfold NonblockingReceiver.readResponse
  dsimp only
  split
  · exact ⟨fun _ => rfl, fun h => absurd rfl h⟩
  · rename_i h
    exact ⟨fun hd => absurd hd h, fun _ => rfl⟩

theorem answer_handler (h : Nat) (s : NonblockingPacketService) :
    (NonblockingReceiver.answer h s).1.handler = h := by
  unfold NonblockingReceiver.answer
  dsimp only
  split <;> rfl

theorem answered_eq (seq : Int) (h key : Nat) (s : NonblockingPacketService) :
    ∃ v, answered seq h key s = NonblockingPacketService.emit { s with
        receiver.handler := some h
        receiver.map := s.receiver.map.erase seq
        receiver.handlerToMessageSeqMap := s.receiver.handlerToMessageSeqMap.erase key
        receiver.value := v } (.completed (NonblockingReceiver.answer h s).1) := by
  unfold answered NonblockingReceiver.answer
  dsimp only
  split
  · exact ⟨none, rfl⟩
  · exact ⟨s.receiver.value, rfl⟩

end Kinetic.L2
