import Kinetic.L2Service.State

/-!
# Submit, Remove, Send, Receive and Run

The code of the three classes, on the state as a whole: a handler that is
called may re-enter the service, so the loops of `Send` and `Receive` work on
whatever the callback leaves. A callback does what the next script says
(`callback`); the loops are given as much fuel as they can use.
-/
open Kinetic.Core

namespace Kinetic.L2

open L1

/-! ## Enqueue and Remove -/

namespace NonblockingSender

/-- mirrors src/main/nonblocking_packet_sender.cc:43-65 -/
def enqueue (lib : Lib) (message : Message) (command : Command) (value : Bytes)
    (handler : Nat) (handlerKey : Nat) (s : NonblockingPacketService) :
    NonblockingPacketService :=
  let command := command.modifyHeader fun h =>
    { h with connectionId := some s.receiver.connectionId }
  let command := command.modifyHeader fun h =>
    { h with sequence := some s.sender.sequenceNumber }
  let message := { message with commandBytes := some (lib.serializeCommand command) }
  let message :=
    if message.getAuthType = .hmacAuth then
      let auth : HmacAuth := { message.hmacAuth.getD {} with identity := some s.sender.userId }
      let message := { message with hmacAuth := some auth }
      { message with
        hmacAuth := some { auth with hmac := some (computeHmac lib message s.sender.hmacKey) } }
    else message
  let request : Request := { message, command, value, handler, handlerKey }
  { s with
    sender.sequenceNumber := s.sender.sequenceNumber + 1
    sender.requestQueue := s.sender.requestQueue ++ [request]
    log := s.log ++ [.submitted request] }

/-- mirrors src/main/nonblocking_packet_sender.cc:128-136 -/
def remove (key : Nat) (s : NonblockingPacketService) : Bool × NonblockingPacketService :=
  match s.sender.requestQueue.find? (·.handlerKey == key) with
  | some r =>
    (true, { s with
      sender.requestQueue := s.sender.requestQueue.eraseP (·.handlerKey == key)
      log := s.log ++ [.removed r.handler key true] })
  | none => (false, s)

end NonblockingSender

namespace NonblockingReceiver

/-- mirrors src/main/nonblocking_packet_receiver.cc:127-147 -/
def enqueue (handler : Nat) (sequence : Int) (handlerKey : Nat)
    (r : NonblockingReceiver) : Bool × NonblockingReceiver :=
  match r.map.insertNew sequence (handler, handlerKey) with
  | (false, _) => (false, r)
  | (true, map) =>
    match r.handlerToMessageSeqMap.insertNew handlerKey sequence with
    | (false, _) => (false, { r with map := Dict.erase map sequence })
    | (true, h2s) => (true, { r with map := map, handlerToMessageSeqMap := h2s })

/-- mirrors src/main/nonblocking_packet_receiver.cc:252-272 -/
def remove (key : Nat) (s : NonblockingPacketService) : Bool × NonblockingPacketService :=
  match s.receiver.handlerToMessageSeqMap.find key with
  | none => (false, s)
  | some seq =>
    let s := { s with
      receiver.handlerToMessageSeqMap := s.receiver.handlerToMessageSeqMap.erase key }
    match s.receiver.map.find seq with
    | none => (true, s.emit .aborted)
    | some (h, handlerKey) =>
      if handlerKey = key then
        (true, { s with
          receiver.map := s.receiver.map.erase seq
          log := s.log ++ [.removed h key false] })
      else (true, s.emit .aborted)

end NonblockingReceiver

namespace NonblockingPacketService

/-- mirrors src/main/nonblocking_packet_service.cc:39-51; `call` calls a
handler. -/
def submit (lib : Lib) (call : Completion → NonblockingPacketService → NonblockingPacketService)
    (message : Message) (command : Command) (value : Bytes) (s : NonblockingPacketService) :
    Nat × NonblockingPacketService :=
  let handler := s.handlers
  let key := s.nextKey
  let s := { s with nextKey := (s.nextKey + 1) % 2 ^ 64, handlers := s.handlers + 1 }
  if s.failed then
    (key, call (.error handler ⟨.clientShutdown, "Client already shut down", 0⟩ none)
      (s.emit (.refused handler key)))
  else (key, NonblockingSender.enqueue lib message command value handler key s)

/-- mirrors src/main/nonblocking_packet_service.cc:89-91 -/
def remove (key : Nat) (s : NonblockingPacketService) : Bool × NonblockingPacketService :=
  match NonblockingSender.remove key s with
  | (true, s) => (true, s)
  | (false, s) => NonblockingReceiver.remove key s

end NonblockingPacketService

open NonblockingPacketService

/-! ## Callbacks -/

/-- A callback submits or removes; it cannot submit where that is undefined. -/
def Action.perform (lib : Lib)
    (call : Completion → NonblockingPacketService → NonblockingPacketService) (a : Action)
    (s : NonblockingPacketService) : NonblockingPacketService :=
  match a with
  | .submit m c v => if s.submitDefined then (s.submit lib call m c v).2 else s
  | .remove key => (s.remove key).2

/-- Call a handler: it does what the next script says. Each nested call uses up
a script, so there are never more of them than scripts. -/
def callback (lib : Lib) : Nat → Completion → NonblockingPacketService → NonblockingPacketService
  | 0, c, s => s.emit (.completed c)
  | fuel + 1, c, s =>
    match s.scripts with
    | [] => s.emit (.completed c)
    | script :: rest =>
      script.foldl (fun s a => a.perform lib (callback lib fuel) s)
        { s with scripts := rest, log := s.log ++ [.completed c] }

/-- `handler->Handle(...)` or `handler->Error(...)` -/
def complete (lib : Lib) (c : Completion) (s : NonblockingPacketService) :
    NonblockingPacketService := callback lib s.scripts.length c s

/-! ## Send -/

namespace NonblockingSender

/-- The loop that fails everything queued, at
src/main/nonblocking_packet_sender.cc:68-74 and 105-110. Each turn takes a
request off the queue, and callbacks put back no more than they have left to
submit. -/
def failQueue (lib : Lib) (status : KineticStatus) :
    Nat → NonblockingPacketService → NonblockingPacketService
  | 0, s => s
  | fuel + 1, s =>
    match s.sender.requestQueue with
    | [] => s
    | r :: rest =>
      failQueue lib status fuel
        (complete lib (.error r.handler status none) { s with sender.requestQueue := rest })

/-- mirrors src/main/nonblocking_packet_sender.cc:79-92; `none` is `kIdle`. -/
def startNext (s : NonblockingPacketService) :
    Option (NonblockingPacketWriter × NonblockingPacketService) :=
  match s.sender.currentWriter with
  | some w => some (w, s)
  | none =>
    match s.sender.requestQueue with
    | [] => none
    | r :: rest =>
      let w := NonblockingPacketWriter.create r.message r.value
      some (w, { s with
        sender.requestQueue := rest
        sender.messageSequence := r.command.getSequence
        sender.handlerKey := r.handlerKey
        sender.currentWriter := some w
        sender.handler := some r.handler })

/-- Call the sender's current handler, which must be there. -/
def errorCurrent (lib : Lib) (status : KineticStatus) (s : NonblockingPacketService) :
    NonblockingPacketService :=
  match s.sender.handler with
  | none => s.emit .aborted
  | some h => complete lib (.error h status none) s

def resetHandler (s : NonblockingPacketService) : NonblockingPacketService :=
  { s with sender.handler := none }

/-- mirrors src/main/nonblocking_packet_sender.cc:102-111 -/
def writeFailed (lib : Lib) (s : NonblockingPacketService) : NonblockingPacketService :=
  let status : KineticStatus := ⟨.clientIoError, "I/O write error", 0⟩
  let s := resetHandler (errorCurrent lib status s)
  failQueue lib status s.work s

/-- mirrors src/main/nonblocking_packet_sender.cc:114-124 -/
def finishRequest (lib : Lib) (s : NonblockingPacketService) : NonblockingPacketService :=
  let s := { s with sender.currentWriter := none }
  match s.sender.handler with
  | none => s.emit .aborted
  | some h =>
    let s := s.emit (.written h)
    match s.receiver.enqueue h s.sender.messageSequence s.sender.handlerKey with
    | (true, receiver) => resetHandler { s with receiver }
    | (false, receiver) =>
      resetHandler (errorCurrent lib ⟨.clientInternalError, "Could not enqueue handler", 0⟩
        { s with receiver })

def sendLoop (lib : Lib) : Nat → NonblockingPacketService →
    NonblockingPacketServiceStatus × NonblockingPacketService
  | 0, s => (.ioWait, s)
  | fuel + 1, s =>
    match startNext s with
    | none => (.idle, s)
    | some (w, s) =>
      match w.write lib s.socket with
      | (.inProgress, w, socket) =>
        (.ioWait, { s with socket, sender.currentWriter := some w })
      | (.failed, w, socket) =>
        (.error, writeFailed lib { s with socket, sender.currentWriter := some w })
      | (.done, w, socket) =>
        sendLoop lib fuel (finishRequest lib { s with socket, sender.currentWriter := some w })

/-- mirrors src/main/nonblocking_packet_sender.cc:77-126; each turn but the
last finishes the current request or one of the queue. -/
def send (lib : Lib) (s : NonblockingPacketService) :
    NonblockingPacketServiceStatus × NonblockingPacketService :=
  sendLoop lib (s.work + 2) s

end NonblockingSender

/-! ## Receive -/

namespace NonblockingReceiver

/-- The loop of `CallAllErrorHandlers` over the entries that were there when it
started; one that a callback has removed meanwhile is not visited. -/
def callAllLoop (lib : Lib) (error : KineticStatus) :
    List Int → NonblockingPacketService → NonblockingPacketService
  | [], s => s
  | seq :: seqs, s =>
    match s.receiver.map.find seq with
    | none => callAllLoop lib error seqs s
    | some (h, key) =>
      if key ∈ s.receiver.handlerToMessageSeqMap then
        callAllLoop lib error seqs (complete lib (.error h error none) { s with
          receiver.handlerToMessageSeqMap := s.receiver.handlerToMessageSeqMap.erase key })
      else s.emit .aborted

/-- mirrors src/main/nonblocking_packet_receiver.cc:230-250 -/
def callAllErrorHandlers (lib : Lib) (error : KineticStatus) (s : NonblockingPacketService) :
    NonblockingPacketService :=
  let s := s.emit (.failedAll error)
  let s :=
    match s.receiver.handler with
    | none => s
    | some h =>
      let s := complete lib (.error h error none) s
      { s with receiver.handler := none }
  let s := callAllLoop lib error s.receiver.map.keys s
  { s with receiver.map := ∅ }

/-- mirrors src/main/nonblocking_packet_receiver.cc:152-160; `none` is `kIdle`. -/
def openResponse (s : NonblockingPacketService) :
    Option (NonblockingPacketReader × NonblockingPacketService) :=
  match s.receiver.nonblockingResponse with
  | some r => some (r, s)
  | none =>
    if s.receiver.map = ∅ then none
    else
      let r := NonblockingPacketReader.create
      some (r, { s with receiver.nonblockingResponse := some r })

/-- `nonblocking_response_->Read()`, into `message_` and `value_`; the reader
is deleted once it is done (src/main/nonblocking_packet_receiver.cc:162-173). -/
def readResponse (lib : Lib) (r : NonblockingPacketReader) (s : NonblockingPacketService) :
    NonblockingStringStatus × NonblockingPacketService :=
  let (st, c) := NonblockingPacketReader.read lib
    ⟨r, s.receiver.message, s.receiver.value, s.socket⟩
  let s := { s with
    socket := c.socket
    receiver.message := c.response
    receiver.value := c.value
    receiver.nonblockingResponse := some c.packet }
  match st with
  | .done =>
    (.done, { s with
      receiver.nonblockingResponse := none
      log := s.log ++ [.received c.response c.value] })
  | st => (st, s)

/-- The call that answers handler `h`: `command_` by reference, `value_` moved
out for `Handle` (src/main/nonblocking_packet_receiver.cc:214-220). -/
def answer (h : Nat) (s : NonblockingPacketService) : Completion × NonblockingPacketService :=
  let command := s.receiver.command
  if command.getStatusCode = .success then
    (.handle h command s.receiver.value, { s with receiver.value := none })
  else
    (.error h (getKineticStatus (convertFromProtoStatus command.getStatusCode)
      command.getClusterVersion) (some command), s)

/-- mirrors src/main/nonblocking_packet_receiver.cc:205-222, the entry for the
acksequence having been found. -/
def dispatch (lib : Lib) (seq : Int) (h : Nat) (key : Nat)
    (s : NonblockingPacketService) : NonblockingPacketService :=
  let s := { s with
    receiver.handler := some h
    receiver.map := s.receiver.map.erase seq }
  if key ∈ s.receiver.handlerToMessageSeqMap then
    let (c, s) := answer h { s with
      receiver.handlerToMessageSeqMap := s.receiver.handlerToMessageSeqMap.erase key }
    let s := complete lib c s
    { s with receiver.handler := none }
  else s.emit .aborted

/-- The stored Command and connection id once `command` has been parsed
(src/main/nonblocking_packet_receiver.cc:182-191). -/
def noteCommand (command : Command) (s : NonblockingPacketService) : NonblockingPacketService :=
  let connectionId := command.getHeader.connectionId.getD s.receiver.connectionId
  let command :=
    if s.receiver.message.getAuthType = .unsolicitedStatus then
      command.modifyHeader fun h => { h with ackSequence := some (-1) }
    else command
  { s with receiver.connectionId := connectionId, receiver.command := command }

/-- mirrors src/main/nonblocking_packet_receiver.cc:175-222, what is done with
a packet once it is read; `none` goes on to the next. -/
def processResponse (lib : Lib) (s : NonblockingPacketService) :
    Option NonblockingPacketServiceStatus × NonblockingPacketService :=
  if s.receiver.message.hmacAuth.isSome ∧
      validateHmac lib s.receiver.message s.receiver.hmacKey = false then
    (some .idle, callAllErrorHandlers lib
      ⟨.clientResponseHmacVerificationError, "Response HMAC mismatch", 0⟩ s)
  else
    match lib.parseCommand s.receiver.message.getCommandBytes with
    | (false, command) =>
      (some .error, callAllErrorHandlers lib
        ⟨.clientIoError, "I/O read error parsing proto::Command", 0⟩
        { s with receiver.command := command })
    | (true, command) =>
      let s := noteCommand command s
      match s.receiver.command.getHeader.ackSequence with
      | none =>
        (some .idle, callAllErrorHandlers lib
          ⟨.protocolErrorResponseNoAcksequence, "Response had no acksequence", 0⟩ s)
      | some ack =>
        match s.receiver.map.find ack with
        | none => (none, s)
        | some (h, key) => (none, dispatch lib ack h key s)

def receiveLoop (lib : Lib) : Nat → NonblockingPacketService →
    NonblockingPacketServiceStatus × NonblockingPacketService
  | 0, s => (.ioWait, s)
  | fuel + 1, s =>
    match openResponse s with
    | none => (.idle, s)
    | some (r, s) =>
      match readResponse lib r s with
      | (.inProgress, s) => (.ioWait, s)
      | (.failed, s) =>
        (.error, callAllErrorHandlers lib ⟨.clientIoError, "I/O read error", 0⟩ s)
      | (.done, s) =>
        match processResponse lib s with
        | (some st, s) => (st, s)
        | (none, s) => receiveLoop lib fuel s

/-- mirrors src/main/nonblocking_packet_receiver.cc:150-224; every packet takes
at least one answer of the transport. -/
def receive (lib : Lib) (s : NonblockingPacketService) :
    NonblockingPacketServiceStatus × NonblockingPacketService :=
  receiveLoop lib (s.socket.reads.length + 1) s

end NonblockingReceiver

/-! ## Run and destruction -/

/-- The two sets of descriptors and `nfds` that `Run` fills in. -/
structure FdSets where
  read : List Nat
  write : List Nat
  nfds : Nat
  deriving DecidableEq, Repr

namespace NonblockingPacketService

/-- mirrors src/main/nonblocking_packet_service.cc:81-87 -/
def cleanUp (s : NonblockingPacketService) : NonblockingPacketService := { s with failed := true }

/-- mirrors src/main/nonblocking_packet_service.cc:63-78 -/
def interest (fd : Nat) (senderStatus receiverStatus : NonblockingPacketServiceStatus) : FdSets :=
  let f : FdSets := ⟨[], [], 0⟩
  let f := if senderStatus = .ioWait then { f with write := fd :: f.write, nfds := fd + 1 } else f
  if receiverStatus = .ioWait then { f with read := fd :: f.read, nfds := fd + 1 } else f

/-- mirrors src/main/nonblocking_packet_service.cc:53-79 -/
def run (lib : Lib) (fds : FdSets) (s : NonblockingPacketService) :
    Bool × FdSets × NonblockingPacketService :=
  if s.failed then (false, fds, s)
  else
    match NonblockingSender.send lib s with
    | (.error, s) => (false, fds, s.cleanUp)
    | (senderStatus, s) =>
      match NonblockingReceiver.receive lib s with
      | (.error, s) => (false, fds, s.cleanUp)
      | (receiverStatus, s) =>
        (true, interest s.socket.fd senderStatus receiverStatus, s)

/-- `FD_SET` is undefined for a descriptor from `FD_SETSIZE` on. -/
def fdSetSize : Nat := 1024

/-- `Run` calls `FD_SET` only where it is defined. -/
def runDefined (lib : Lib) (s : NonblockingPacketService) : Bool :=
  decide (s.socket.fd < fdSetSize) || (s.run lib ⟨[], [], 0⟩).2.1.nfds == 0

/-- `~NonblockingPacketService`, then `~NonblockingSender`, then
`~NonblockingReceiver`, which the sender holds the last reference to; the
callbacks do nothing from here on
(src/main/nonblocking_packet_service.cc:35-37,
src/main/nonblocking_packet_sender.cc:67-75,
src/main/nonblocking_packet_receiver.cc:120-125). -/
def destroy (lib : Lib) (s : NonblockingPacketService) : NonblockingPacketService :=
  let s := { s.cleanUp with scripts := [] }
  let s := NonblockingSender.failQueue lib ⟨.clientShutdown, "Sender shutdown", 0⟩ s.work s
  NonblockingReceiver.callAllErrorHandlers lib ⟨.clientShutdown, "Receiver shutdown", 0⟩
    { s with receiver.nonblockingResponse := none }

end NonblockingPacketService
end Kinetic.L2
