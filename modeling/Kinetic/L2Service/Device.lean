import Kinetic.L1Wire.RoundTrip
import Kinetic.L2Service.Awaiting
import Kinetic.L2Service.Records

/-!
# The service and a device

The other end of the connection: it sends packets, whose bytes arrive in any
pieces, and may answer each request once, as soon as it has got the whole of it.
`network` is the service with such a device; `expected` says, from the log alone,
which calls the packets received should have made.
-/
open Kinetic.Core

namespace Kinetic.L2

open L1 NonblockingPacketService

/-- A packet of the device: the bytes of its Message, and the value. -/
structure Packet where
  bytes : Bytes
  value : Bytes

namespace Packet

variable (lib : Lib) (p : Packet)

def encoded : Bytes := frame p.bytes p.value

def message : Message := (lib.parseMessage p.bytes).2

def command : Command := (lib.parseCommand (p.message lib).getCommandBytes).2

def Unsolicited : Prop := (p.message lib).getAuthType = .unsolicitedStatus

def ackSequence : Option Int := (p.command lib).getHeader.ackSequence

/-- The lengths fit, everything parses, and an HMAC is a valid one. -/
structure WellFormed (hmacKey : Bytes) : Prop where
  length : p.bytes.length < 2 ^ 32
  valueLength : p.value.length < 2 ^ 32
  parses : (lib.parseMessage p.bytes).1 = true
  signed : (p.message lib).hmacAuth.isSome → validateHmac lib (p.message lib) hmacKey = true
  command : (lib.parseCommand (p.message lib).getCommandBytes).1 = true

end Packet

def stream (ps : List Packet) : Bytes := ps.flatMap Packet.encoded

/-- The request with sequence number `seq` has been written. -/
def Answerable (log : List Event) (seq : Option Int) : Prop :=
  ∃ r ∈ accepted log, r.handler ∈ sentOut log ∧ seq = some r.command.getSequence

/-- The device answers only requests that it has, and none of them twice. -/
structure Honest (lib : Lib) (hmacKey : Bytes) (ps : List Packet) (log : List Event) : Prop where
  wellFormed : ∀ p ∈ ps, p.WellFormed lib hmacKey
  answers : ∀ p ∈ ps, p.Unsolicited lib ∨ Answerable log (p.ackSequence lib)
  once : ps.Pairwise fun p q => p.Unsolicited lib ∨ q.Unsolicited lib ∨
    p.ackSequence lib ≠ q.ackSequence lib

section
variable (lib : Lib) (p : Packet) (hmacKey : Bytes) (ps : List Packet) (log : List Event)

instance : Decidable (p.Unsolicited lib) := inferInstanceAs (Decidable (_ = _))

instance : Decidable (p.WellFormed lib hmacKey) :=
  decidable_of_iff (_ ∧ _ ∧ _ ∧ _ ∧ _)
    ⟨fun ⟨a, b, c, d, e⟩ => ⟨a, b, c, d, e⟩, fun ⟨a, b, c, d, e⟩ => ⟨a, b, c, d, e⟩⟩

instance (seq : Option Int) : Decidable (Answerable log seq) :=
  inferInstanceAs (Decidable (∃ r ∈ accepted log, _))

instance : Decidable (Honest lib hmacKey ps log) :=
  decidable_of_iff (_ ∧ _ ∧ _) ⟨fun ⟨a, b, c⟩ => ⟨a, b, c⟩, fun ⟨a, b, c⟩ => ⟨a, b, c⟩⟩

end

/-- The service, the packets the device has sent so far, and those of their
bytes that have arrived. -/
structure Net where
  service : NonblockingPacketService
  packets : List Packet
  arrived : Bytes

/-- The log as the device can know it while `Receive` reads: `Send` is over. -/
def sentLog (lib : Lib) (s : NonblockingPacketService) : List Event :=
  if s.failed then s.log else (NonblockingSender.send lib s).2.log

/-- What an operation may bring from the device: nothing, but for `Run`, during
which it may send further packets. Reads only cut the stream into pieces. -/
def Brings (lib : Lib) (net net' : Net) : Op → Prop
  | .run io _ =>
    net.packets <+: net'.packets ∧
    net'.arrived = net.arrived ++ io.arrives ∧ net'.arrived <+: stream net'.packets ∧
    (∀ r ∈ io.reads, Socket.Fragment r) ∧
    Honest lib net.service.receiver.hmacKey net'.packets (sentLog lib (net.service.supply io))
  | _ => net'.packets = net.packets ∧ net'.arrived = net.arrived

/-- A new connection to an honest device. -/
structure Connected (net : Net) : Prop where
  fresh : Fresh net.service
  incoming : net.service.socket.incoming = []
  packets : net.packets = []
  arrived : net.arrived = []

def network (lib : Lib) : LTS Net Op where
  init := Connected
  step net op net' := op.Defined lib net.service ∧ net'.service = op.apply lib net.service ∧
    Brings lib net net' op

variable {lib : Lib} {net : Net}

theorem network_service (h : (network lib).Reachable net) :
    (service lib).Reachable net.service := by
  refine LTS.Inductive.reachable (M := network lib)
    (P := fun net => (service lib).Reachable net.service) ⟨fun n h0 => ?_, ?_⟩ net h
  · exact ⟨_, [], h0.fresh, .nil _⟩
  · rintro n op n' hr ⟨hd, hs, -⟩
    exact hr.step (l := op) ⟨hd, hs⟩

/-! ## The calls that are due -/

/-- The call that hands a response to handler `h`: its own Command, and its own
value. -/
def response (h : Nat) (c : Command) (v : Option Bytes) : Completion :=
  if c.getStatusCode = .success then .handle h c v
  else .error h (getKineticStatus (convertFromProtoStatus c.getStatusCode) c.getClusterVersion)
    (some c)

/-- The call due for a packet received after `log`: none for an unsolicited
status, else one to the handler of the request it answers, unless that has been
removed. -/
def due (lib : Lib) (log : List Event) (m : Message) (v : Option Bytes) : List Completion :=
  let c := (lib.parseCommand m.getCommandBytes).2
  if m.getAuthType = .unsolicitedStatus then []
  else
    match (accepted log).find? fun r => c.getHeader.ackSequence == some r.command.getSequence with
    | none => []
    | some r => if r.handler ∈ withdrawn log then [] else [response r.handler c v]

/-- The calls due in the events that follow `pre`. -/
def expectedFrom (lib : Lib) (pre : List Event) : List Event → List Completion
  | [] => []
  | .received m v :: post => due lib pre m v ++ expectedFrom lib (pre ++ [.received m v]) post
  | e :: post => expectedFrom lib (pre ++ [e]) post

def expected (lib : Lib) (log : List Event) : List Completion := expectedFrom lib [] log

theorem expectedFrom_append (pre l l' : List Event) :
    expectedFrom lib pre (l ++ l') = expectedFrom lib pre l ++ expectedFrom lib (pre ++ l) l' := by
  induction l generalizing pre with
  | nil => simp [expectedFrom]
  | cons e l ih =>
    have := ih (pre ++ [e])
    rw [List.append_assoc, List.singleton_append] at this
    cases e <;> simp only [List.cons_append, expectedFrom, this, List.append_assoc]

theorem expectedFrom_silent (pre : List Event) {l : List Event} (h : receivedPackets l = []) :
    expectedFrom lib pre l = [] := by
  induction l generalizing pre with
  | nil => rfl
  | cons e l ih =>
    rw [receivedPackets, List.filterMap_eq_nil_iff] at h
    have h0 := h e List.mem_cons_self
    have := ih (pre ++ [e]) (by
      rw [receivedPackets, List.filterMap_eq_nil_iff]
      exact fun e' he' => h e' (List.mem_cons_of_mem _ he'))
    cases e <;> first | exact this | exact absurd h0 (by simp)

theorem expected_silent {l new : List Event} (h : receivedPackets new = []) :
    expected lib (l ++ new) = expected lib l := by
  rw [expected, expectedFrom_append, expectedFrom_silent _ h, List.append_nil]
  rfl

theorem expected_received (l : List Event) (m : Message) (v : Option Bytes) :
    expected lib (l ++ [.received m v]) = expected lib l ++ due lib l m v := by
  rw [expected, expectedFrom_append]
  simp [expectedFrom, expected]

theorem mem_expected {log : List Event} {c : Completion} (h : c ∈ expected lib log) :
    ∃ m v, (m, v) ∈ receivedPackets log ∧ m.getAuthType ≠ .unsolicitedStatus ∧
      ∃ r ∈ accepted log, r.handler = c.handler ∧
        (lib.parseCommand m.getCommandBytes).2.getHeader.ackSequence =
          some r.command.getSequence := by
  suffices hfrom : ∀ pre l, c ∈ expectedFrom lib pre l →
      ∃ m v, (m, v) ∈ receivedPackets l ∧ m.getAuthType ≠ .unsolicitedStatus ∧
        ∃ r ∈ accepted (pre ++ l), r.handler = c.handler ∧
          (lib.parseCommand m.getCommandBytes).2.getHeader.ackSequence =
            some r.command.getSequence by
    simpa using hfrom [] log h
  intro pre l
  induction l generalizing pre with
  | nil => intro h; simp [expectedFrom] at h
  | cons e l ih =>
    intro h
    have hlater : c ∈ expectedFrom lib (pre ++ [e]) l → ∃ m v, (m, v) ∈ receivedPackets (e :: l) ∧
        m.getAuthType ≠ .unsolicitedStatus ∧
        ∃ r ∈ accepted (pre ++ e :: l), r.handler = c.handler ∧
          (lib.parseCommand m.getCommandBytes).2.getHeader.ackSequence =
            some r.command.getSequence := by
      intro h
      obtain ⟨m, v, hm, hu, r, hr, hrest⟩ := ih _ h
      rw [List.append_assoc, List.singleton_append] at hr
      refine ⟨m, v, ?_, hu, r, hr, hrest⟩
      rw [← List.singleton_append, receivedPackets_append]
      exact List.mem_append_right _ hm
    cases e with
    | received m v =>
      rw [expectedFrom, List.mem_append] at h
      rcases h with h | h
      · refine ⟨m, v, by simp [receivedPackets], ?_⟩
        unfold due at h
        dsimp only at h
        split at h
        · cases h
        rename_i hu
        split at h
        · cases h
        rename_i r hr
        split at h
        · cases h
        obtain rfl := List.mem_singleton.1 h
        have hack := List.find?_some hr
        refine ⟨hu, r, ?_, ?_, beq_iff_eq.1 hack⟩
        · rw [accepted_append]
          exact List.mem_append_left _ (List.mem_of_find?_eq_some hr)
        · unfold response
          split <;> rfl
      · exact hlater h
    | _ => exact hlater h

end Kinetic.L2
