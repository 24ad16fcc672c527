import Kinetic.Core.Dict
import Kinetic.Core.Socket
import Kinetic.L1Wire.Hmac
import Kinetic.L1Wire.Packet
import Kinetic.L1Wire.Status
import Mathlib.Algebra.GroupWithZero.Nat

/-!
# The state of the packet service

`NonblockingPacketService` with the sender and the receiver it owns, and around
them what decides a run: the transport, what the callbacks still to come will
do, and the log of everything observable. Handlers are numbered in the order of
their `Submit` calls; the C++ moves a handler from owner to owner, so the number
is its identity, and the log is where its completion, registration and removal
can be read off.

Sequence numbers are `int64_t`: incrementing one past 2^63 - 1 is undefined, so
a run stops short of it (`submitDefined`). Handler keys are `uint64_t` and wrap.
-/
open Kinetic.Core

namespace Kinetic.L2

open L1

/-- mirrors src/main/nonblocking_packet_receiver.h:45-49 -/
inductive NonblockingPacketServiceStatus where
  | idle
  | ioWait
  | error
  deriving DecidableEq, Repr

/-- One call of `HandlerInterface::Handle` or `HandlerInterface::Error`. -/
inductive Completion where
  | handle (handler : Nat) (response : Command) (value : Option Bytes)
  | error (handler : Nat) (status : KineticStatus) (response : Option Command)

def Completion.handler : Completion → Nat
  | .handle h _ _ => h
  | .error h _ _ => h

def Completion.response : Completion → Option Command
  | .handle _ c _ => some c
  | .error _ _ c => c

/-- mirrors src/main/nonblocking_packet_sender.h:75-81 -/
structure Request where
  message : Message
  command : Command
  value : Bytes
  handler : Nat
  handlerKey : Nat

/-- What a callback may do with the service. -/
inductive Action where
  | submit (message : Message) (command : Command) (value : Bytes)
  | remove (key : Nat)

inductive Event where
  /-- `Submit` queued the request. -/
  | submitted (request : Request)
  /-- `Submit` found the service failed. -/
  | refused (handler : Nat) (key : Nat)
  /-- A handler was called. -/
  | completed (c : Completion)
  /-- `Remove` returned true, having found the handler in the sender's queue or
  with the receiver. -/
  | removed (handler : Nat) (key : Nat) (queued : Bool)
  /-- The packet of the handler's request was written to its last byte. -/
  | written (handler : Nat)
  /-- A packet was read to its last byte. -/
  | received (message : Message) (value : Option Bytes)
  /-- `CallAllErrorHandlers` was called. -/
  | failedAll (status : KineticStatus)
  /-- A `CHECK` failed or a null handler was called: the process is gone. -/
  | aborted

/-- mirrors src/main/nonblocking_packet_sender.h:83-92, `connection_options_`
being the identity and the key it is used for. -/
structure NonblockingSender where
  userId : Int
  hmacKey : Bytes
  sequenceNumber : Int
  handlerKey : Nat
  currentWriter : Option NonblockingPacketWriter
  handler : Option Nat
  requestQueue : List Request
  messageSequence : Int

/-- mirrors src/main/nonblocking_packet_receiver.h:78-92 -/
structure NonblockingReceiver where
  hmacKey : Bytes
  nonblockingResponse : Option NonblockingPacketReader
  connectionId : Int
  handler : Option Nat
  message : Message
  command : Command
  value : Option Bytes
  map : Dict Int (Nat × Nat)
  handlerToMessageSeqMap : Dict Nat Int

/-- mirrors src/main/nonblocking_packet_service.h:59-64; below `nextKey`, the
run around it. -/
structure NonblockingPacketService where
  socket : Socket
  sender : NonblockingSender
  receiver : NonblockingReceiver
  failed : Bool
  nextKey : Nat
  /-- What each coming callback does, in order; nothing past the end. -/
  scripts : List (List Action)
  /-- The number of `Submit` calls so far. -/
  handlers : Nat
  log : List Event

/-! ## Reading the log -/

def accepted (log : List Event) : List Request :=
  log.filterMap fun | .submitted r => some r | _ => none

/-- The handlers passed to `Submit`. -/
def issued (log : List Event) : List Nat :=
  log.filterMap fun | .submitted r => some r.handler | .refused h _ => some h | _ => none

def completions (log : List Event) : List Completion :=
  log.filterMap fun | .completed c => some c | _ => none

/-- The handlers called, once for each call. -/
def settled (log : List Event) : List Nat := (completions log).map Completion.handler

/-- The handlers for which `Remove` returned true. -/
def withdrawn (log : List Event) : List Nat :=
  log.filterMap fun | .removed h _ _ => some h | _ => none

/-- The handlers removed from the sender's queue. -/
def unsent (log : List Event) : List Nat :=
  log.filterMap fun | .removed h _ true => some h | _ => none

/-- The handlers whose packets were written. -/
def sentOut (log : List Event) : List Nat :=
  log.filterMap fun | .written h => some h | _ => none

def receivedPackets (log : List Event) : List (Message × Option Bytes) :=
  log.filterMap fun | .received m v => some (m, v) | _ => none

section
variable (l : List Event) (e : Event)

@[simp] theorem accepted_append (m : List Event) : accepted (l ++ m) = accepted l ++ accepted m :=
  List.filterMap_append
@[simp] theorem issued_append (m : List Event) : issued (l ++ m) = issued l ++ issued m :=
  List.filterMap_append
@[simp] theorem completions_append (m : List Event) :
    completions (l ++ m) = completions l ++ completions m := List.filterMap_append
@[simp] theorem settled_append (m : List Event) : settled (l ++ m) = settled l ++ settled m := by
  simp [settled]
@[simp] theorem withdrawn_append (m : List Event) :
    withdrawn (l ++ m) = withdrawn l ++ withdrawn m := List.filterMap_append
@[simp] theorem unsent_append (m : List Event) : unsent (l ++ m) = unsent l ++ unsent m :=
  List.filterMap_append
@[simp] theorem sentOut_append (m : List Event) : sentOut (l ++ m) = sentOut l ++ sentOut m :=
  List.filterMap_append
@[simp] theorem receivedPackets_append (m : List Event) :
    receivedPackets (l ++ m) = receivedPackets l ++ receivedPackets m := List.filterMap_append

end

theorem settled_completed (l : List Event) (c : Completion) :
    settled (l ++ [.completed c]) = settled l ++ [c.handler] := by
  simp [settled, completions]

namespace NonblockingPacketService

variable (s : NonblockingPacketService) (e : Event)

def emit : NonblockingPacketService := { s with log := s.log ++ [e] }

@[simp] theorem emit_socket : (s.emit e).socket = s.socket := rfl
@[simp] theorem emit_sender : (s.emit e).sender = s.sender := rfl
@[simp] theorem emit_receiver : (s.emit e).receiver = s.receiver := rfl
@[simp] theorem emit_failed : (s.emit e).failed = s.failed := rfl
@[simp] theorem emit_nextKey : (s.emit e).nextKey = s.nextKey := rfl
@[simp] theorem emit_scripts : (s.emit e).scripts = s.scripts := rfl
@[simp] theorem emit_handlers : (s.emit e).handlers = s.handlers := rfl
@[simp] theorem emit_log : (s.emit e).log = s.log ++ [e] := rfl

/-- `Submit` is defined: the service has failed, or `sequence_number_` can be
incremented. -/
def submitDefined : Bool := s.failed || decide (s.sender.sequenceNumber < 2 ^ 63 - 1)

def pendingActions : Nat := (s.scripts.map List.length).sum

def work : Nat := s.sender.requestQueue.length + s.pendingActions

end NonblockingPacketService
end Kinetic.L2
