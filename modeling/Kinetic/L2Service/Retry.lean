import Kinetic.L1Wire.Retry
import Kinetic.L2Service.Enqueue

/-!
# Receive after a failure

`Receive` keeps the reader of a packet that has failed, and the next `Receive`
calls it again. The packet may begin anywhere in the stream, also behind others that
the same `Receive` has read. Unless it is a half-parsed one the reader is stuck, so
that nobody is called with a response any more; otherwise the half-parsed message is
what the handler of its acksequence gets.

**Assumptions.** A transport that has reported its end or an error delivers nothing
any more (`Sticky`). Callbacks submit and remove what they like, and so does the
caller between two calls of `Receive`.

**Results.**
* `Along.run`: any use of a receiver goes along the stream packet after packet, until
  a `Receive` fails on one.
* `Hopeless.run`: from then on nothing is read any more.
* `failed_packet_stays_failed_iff`: so it is on exactly the streams that do not begin,
  where the failing packet does, with a half-parsed one.
* `half_parsed_dispatched`: a response that does not parse and is handed on.
-/
open Kinetic.Core Kinetic.Core.Socket

namespace Kinetic.L2

open L1 NonblockingPacketReader

variable {lib : Lib} {s t u : NonblockingPacketService}

def ReceiverOp.arrives : ReceiverOp → Bytes
  | .receive io => io.arrives
  | _ => []

def ReceiverOp.answers : ReceiverOp → List IoResult
  | .receive io => io.reads
  | _ => []

/-- Whatever is done with a receiver at the start of a packet, on a transport
that stays at its end: `packets` have been read when a `Receive` fails, and `b` is
the stream behind them. If it failed in reading, `b` begins with the packet it
failed on, and no later `Receive` calls anybody with a response. If not, the last
of `packets` had no Command, and whoever is called later is called with a packet
whose bytes have been taken since. -/
def NeverDispatches (lib : Lib) (b : Bytes) : Prop :=
  ∀ (s : NonblockingPacketService) (before between : List ReceiverOp) (io io' : Io)
    (packets : List (Bytes × Bytes)),
    s.receiver.nonblockingResponse = none → (∀ p ∈ packets, Fits p) →
    let ops := before ++ .receive io :: (between ++ [.receive io'])
    s.socket.incoming ++ ops.flatMap ReceiverOp.arrives =
      packets.flatMap (fun p => frame p.1 p.2) ++ b →
    Sticky (ops.flatMap ReceiverOp.answers) →
    let failed := NonblockingReceiver.receiveAny lib
      ((before.foldl (ReceiverOp.apply lib) s).supply io)
    failed.1 = .error →
    (receivedPackets failed.2.log).length = (receivedPackets s.log).length + packets.length →
    ∀ c t, Dispatches lib ((between.foldl (ReceiverOp.apply lib) failed.2).supply io') c t →
      failed.2.receiver.nonblockingResponse = none ∧ ∃ got : Bytes, got ≠ [] ∧
        failed.2.socket.incoming ++ (between ++ [ReceiverOp.receive io']).flatMap ReceiverOp.arrives =
          got ++ t.socket.incoming

/-! ## Packets read stay read -/

theorem received_noted {ps : List (Message × Option Bytes)} {l : List Event} {e : Event}
    (h : receivedPackets l = ps) (he : receivedPackets [e] = []) :
    receivedPackets (l ++ [e]) = ps := by
  rw [receivedPackets_append, he, List.append_nil, h]

variable (lib) in
theorem received_aside (ps : List (Message × Option Bytes)) :
    Aside lib fun s => receivedPackets s.log = ps where
  kept := {
    shutDown := fun _ => trivial
    call := fun _ _ _ h => received_noted h rfl
    scripts := fun _ _ h => h
    count := fun _ h => h
    accept := fun _ _ _ _ _ _ h => received_noted h rfl
    refuse := fun _ _ _ h => received_noted h rfl
    remove := fun s key h => by
      have hrem := removal key s
      generalize s.remove key = out at hrem ⊢
      cases hrem with
      | unknown _ _ => exact h
      | _ => exact received_noted h rfl }
  failedAll := fun _ _ h => received_noted h rfl
  aborted := fun _ h => received_noted h rfl
  receiver := fun _ _ _ h => h

/-! ## One Receive -/

/-- The reader that the next `Receive` calls, with all that it refers to. -/
def NonblockingPacketService.current (s : NonblockingPacketService) : ReadState :=
  ⟨s.receiver.nonblockingResponse.getD NonblockingPacketReader.create, s.receiver.message,
    s.receiver.value, s.socket⟩

theorem Reads.current {k : Socket} {r : Option NonblockingPacketReader} (h : Reads k r s) :
    s.current.packet = r.getD NonblockingPacketReader.create ∧ s.current.socket = k := by
  unfold NonblockingPacketService.current
  rw [h.socket, h.reader]
  exact ⟨rfl, rfl⟩

theorem openResponse_current {r : NonblockingPacketReader}
    (h : NonblockingReceiver.openResponse s = some (r, t)) :
    s.current = ⟨r, t.receiver.message, t.receiver.value, t.socket⟩ ∧ t.log = s.log := by
  unfold NonblockingPacketService.current
  rcases openResponse_cases h with ⟨hr, rfl⟩ | ⟨hr, -, rfl, rfl⟩
  all_goals
    rw [hr]
    exact ⟨rfl, rfl⟩

theorem called_socket {c : Completion} (h : called lib s = some (c, t)) : t.socket = s.socket := by
  obtain ⟨command, ack, x, key, -, -, -, he⟩ := called_iff.1 h
  rw [show t = _ from congrArg Prod.snd he]
  unfold NonblockingReceiver.answer
  dsimp only
  split <;> rfl

/-- The reader is left in this state, with its transport. -/
def LeftIn (c : ReadState) (s : NonblockingPacketService) : Prop := Reads c.socket (some c.packet) s

variable (lib) in
theorem readResponse_read (r : NonblockingPacketReader) (s : NonblockingPacketService) :
    let c := read lib ⟨r, s.receiver.message, s.receiver.value, s.socket⟩
    let out := NonblockingReceiver.readResponse lib r s
    out.1 = c.1 ∧ (c.1 = .done → Reads c.2.socket none out.2) ∧ (c.1 ≠ .done → LeftIn c.2 out.2) := by
  unfold NonblockingReceiver.readResponse
  dsimp only
  split
  · rename_i hd
    exact ⟨hd.symm, fun _ => ⟨rfl, rfl⟩, fun hnd => absurd hd hnd⟩
  · rename_i hnd
    exact ⟨rfl, fun hd => absurd hd hnd, fun _ => ⟨rfl, rfl⟩⟩

variable (lib) in
/-- **Receive** by what becomes of the packet it begins with, if it is not done. -/
theorem receiveAny_first (hr : s.receiver.nonblockingResponse ≠ none)
    (hd : (read lib s.current).1 ≠ .done) :
    LeftIn (read lib s.current).2 (NonblockingReceiver.receiveAny lib s).2 := by
  unfold NonblockingReceiver.receiveAny NonblockingReceiver.receiveLoop
  cases ho : NonblockingReceiver.openResponse s with
  | none =>
    unfold NonblockingReceiver.openResponse at ho
    split at ho
    · cases ho
    · exact absurd ‹_› hr
  | some out =>
    obtain ⟨r, t⟩ := out
    obtain ⟨hst, -, hleft⟩ := readResponse_read lib r t
    rw [← (openResponse_current ho).1] at hst hleft
    rw [← hst] at hleft hd
    dsimp only
    generalize NonblockingReceiver.readResponse lib r t = out at hst hleft hd ⊢
    obtain ⟨st, u⟩ := out
    cases st with
    | inProgress => exact hleft hd
    | failed => exact Reads.aside.callAll (hleft hd) _
    | done => exact absurd rfl hd

/-! ## Any use of the receiver -/

/-- There is a reader, and it is stuck whatever the operations `ops` bring. -/
structure Hopeless (lib : Lib) (ops : List ReceiverOp) (s : NonblockingPacketService) : Prop where
  kept : s.receiver.nonblockingResponse ≠ none
  stuck : Stuck lib (∀ r ∈ ops.flatMap ReceiverOp.answers, Silent r) s.current

variable {ops : List ReceiverOp} {io : Io}

theorem Reads.same (h : Reads s.socket s.receiver.nonblockingResponse t) :
    t.current.packet = s.current.packet := h.current.1

variable (lib s) in
theorem reads_apply (op : ReceiverOp) (hop : ∀ io, op ≠ .receive io) :
    Reads s.socket s.receiver.nonblockingResponse (op.apply lib s) := by
  cases op with
  | receive io => exact absurd rfl (hop io)
  | remove key => exact (Reads.kept : Kept lib _ _).remove s key ⟨rfl, rfl⟩
  | enqueue x seq key =>
    refine ⟨rfl, ?_⟩
    show (s.receiver.enqueue x seq key).2.nonblockingResponse = _
    rw [NonblockingReceiver.enqueue_eq]
    split <;> rfl

theorem answers_other {op : ReceiverOp} (hop : ∀ io, op ≠ .receive io) :
    op.arrives = [] ∧ op.answers = [] := by
  cases op with
  | receive io => exact absurd rfl (hop io)
  | enqueue _ _ _ => exact ⟨rfl, rfl⟩
  | remove _ => exact ⟨rfl, rfl⟩

namespace Hopeless

/-- **A reader that is stuck** is kept, and gets nobody called. -/
theorem receive (h : Hopeless lib (.receive io :: ops) s) :
    Hopeless lib ops (NonblockingReceiver.receiveAny lib (s.supply io)).2 ∧
      ∀ c t, ¬ Dispatches lib (s.supply io) c t := by
  obtain ⟨hkept, hstuck⟩ := h
  rw [List.flatMap_cons] at hstuck
  have hsup : Stuck lib (∀ r ∈ io.reads ++ ops.flatMap ReceiverOp.answers, Silent r)
      (s.supply io).current := hstuck.of_packet rfl
  obtain ⟨hnd, hafter⟩ := hsup.read fun hs r hr => hs r (List.mem_append_left _ hr)
  have hleft : LeftIn (read lib (s.supply io).current).2
      (NonblockingReceiver.receiveAny lib (s.supply io)).2 →
      Hopeless lib ops (NonblockingReceiver.receiveAny lib (s.supply io)).2 := by
    intro hl
    refine ⟨by rw [hl.reader]; simp, (hafter.of_packet hl.current.1).mono fun hs r hr => ?_⟩
    exact hs r (List.mem_append_right _ hr)
  have hfirst : ∀ r s₁ s₂, NonblockingReceiver.openResponse (s.supply io) = some (r, s₁) →
      NonblockingReceiver.readResponse lib r s₁ ≠ (.done, s₂) := by
    intro r s₁ s₂ ho hr
    have hst := congrArg Prod.fst hr
    rw [(readResponse_read lib r s₁).1, ← (openResponse_current ho).1] at hst
    exact hnd hst
  refine ⟨hleft (receiveAny_first lib hkept hnd), fun c t hd => ?_⟩
  cases hd with
  | here ho hr _ => exact hfirst _ _ _ ho hr
  | later ho hr _ _ => exact hfirst _ _ _ ho hr

theorem apply {op : ReceiverOp} (h : Hopeless lib (op :: ops) s) : Hopeless lib ops (op.apply lib s) := by
  by_cases hop : ∃ io, op = .receive io
  · obtain ⟨io, rfl⟩ := hop
    exact h.receive.1
  · have hop' : ∀ io, op ≠ .receive io := fun io he => hop ⟨io, he⟩
    have hr := reads_apply lib s op hop'
    obtain ⟨hkept, hstuck⟩ := h
    rw [List.flatMap_cons, (answers_other hop').2, List.nil_append] at hstuck
    exact ⟨by rw [hr.reader]; exact hkept, hstuck.of_packet hr.same⟩

theorem run {before : List ReceiverOp} (h : Hopeless lib (before ++ ops) s) :
    Hopeless lib ops (before.foldl (ReceiverOp.apply lib) s) := by
  induction before generalizing s with
  | nil => exact h
  | cons op before ih => exact ih h.apply

end Hopeless

/-! ## Packet after packet -/

/-- `b` is the stream that there was when `n` packets had been read: `packets` have
been read since, the reader has begun the next, and `arrives` and `answers` are
still to come. -/
structure Along (lib : Lib) (arrives : Bytes) (answers : List IoResult) (n : Nat) (b : Bytes)
    (packets : List (Bytes × Bytes)) (s : NonblockingPacketService) : Prop where
  stream : b = packets.flatMap (fun p => frame p.1 p.2) ++
    (s.current.packet.consumed ++ (s.socket.incoming ++ arrives))
  fits : ∀ p ∈ packets, Fits p
  count : (receivedPackets s.log).length = n + packets.length
  sticky : Sticky answers
  stands : Stands lib (∀ r ∈ answers, Silent r) s.current

section
variable {arrives b : Bytes} {answers later : List IoResult} {n : Nat}
  {packets : List (Bytes × Bytes)}

theorem Along.start (hr : s.receiver.nonblockingResponse = none) (hs : Sticky answers) :
    Along lib arrives answers (receivedPackets s.log).length (s.socket.incoming ++ arrives) [] s := by
  have hcur : s.current =
      ⟨NonblockingPacketReader.create, s.receiver.message, s.receiver.value, s.socket⟩ := by
    unfold NonblockingPacketService.current
    rw [hr]
    rfl
  refine ⟨?_, by simp, rfl, hs, ?_⟩
  · rw [hcur]
    rfl
  · rw [hcur]
    exact .going (pending_create lib _ _ _)

namespace Along

theorem still (h : Along lib arrives answers n b packets s)
    (ht : Reads s.socket s.receiver.nonblockingResponse t)
    (hc : receivedPackets t.log = receivedPackets s.log) :
    Along lib arrives answers n b packets t :=
  ⟨by rw [ht.same, ht.socket]; exact h.stream, h.fits, by rw [hc]; exact h.count, h.sticky,
    h.stands.of_packet ht.same⟩

theorem supplied {ops : List ReceiverOp} {io : Io}
    (h : Along lib ((.receive io :: ops).flatMap ReceiverOp.arrives)
      ((.receive io :: ops).flatMap ReceiverOp.answers) n b packets s) :
    Along lib (ops.flatMap ReceiverOp.arrives)
      ((s.supply io).socket.reads ++ ops.flatMap ReceiverOp.answers) n b packets (s.supply io) := by
  refine ⟨?_, h.fits, h.count, h.sticky, h.stands.of_packet rfl⟩
  rw [h.stream, List.flatMap_cons]
  show _ = _ ++ (s.current.packet.consumed ++ (s.socket.incoming ++ io.arrives ++ _))
  rw [List.append_assoc s.socket.incoming]
  rfl

theorem skip (h : Along lib arrives (answers ++ later) n b packets s) :
    Along lib arrives later n b packets s :=
  ⟨h.stream, h.fits, h.count, (List.pairwise_append.1 h.sticky).2.1,
    h.stands.mono fun hs r hr => hs r (List.mem_append_right _ hr)⟩

theorem process (h : Along lib arrives answers n b packets s) :
    Along lib arrives answers n b packets (NonblockingReceiver.processResponse lib s).2 :=
  h.still (Reads.aside.process ⟨rfl, rfl⟩) ((received_aside lib _).process rfl)

theorem callAll (h : Along lib arrives answers n b packets s) (error : KineticStatus) :
    Along lib arrives answers n b packets (NonblockingReceiver.callAllErrorHandlers lib error s) :=
  h.still (Reads.aside.callAll ⟨rfl, rfl⟩ _) ((received_aside lib _).callAll rfl _)

theorem left (h : Along lib arrives answers n b packets s) {c : ReadState} (hl : LeftIn c t)
    (hc : (receivedPackets t.log).length = (receivedPackets s.log).length)
    (hstream : b = packets.flatMap (fun p => frame p.1 p.2) ++
      (c.packet.consumed ++ (c.socket.incoming ++ arrives)))
    (hs : Sticky later) (hstands : Stands lib (∀ r ∈ later, Silent r) c) :
    Along lib arrives later n b packets t := by
  obtain ⟨hpacket, hsocket⟩ := hl.current
  have hsocket : t.socket = c.socket := hsocket
  refine ⟨?_, h.fits, hc.trans h.count, hs, hstands.of_packet hpacket⟩
  rw [hpacket, hsocket]
  exact hstream

theorem packet (h : Along lib arrives answers n b packets s) {p : Bytes × Bytes}
    (hr : t.receiver.nonblockingResponse = none) (hp : Fits p)
    (hc : (receivedPackets t.log).length = (receivedPackets s.log).length + 1)
    (hstream : b = packets.flatMap (fun p => frame p.1 p.2) ++
      (frame p.1 p.2 ++ (t.socket.incoming ++ arrives)))
    (hs : Sticky later) : Along lib arrives later n b (packets ++ [p]) t := by
  have hnew : Along lib arrives later (receivedPackets t.log).length _ [] t := .start hr hs
  refine ⟨?_, fun q hq => ?_, ?_, hs, hnew.stands⟩
  · have hrest := hnew.stream
    rw [List.flatMap_nil, List.nil_append] at hrest
    rw [← hrest, hstream]
    simp
  · rcases List.mem_append.1 hq with hq | hq
    · exact h.fits q hq
    · exact List.mem_singleton.1 hq ▸ hp
  · rw [hc, h.count, List.length_append]
    exact Nat.add_assoc _ _ _

/-- **One Read** of the receiver. -/
theorem readResponse (h : Along lib arrives (s.socket.reads ++ later) n b packets s)
    {r : NonblockingPacketReader} (ho : NonblockingReceiver.openResponse s = some (r, t)) :
    let out := NonblockingReceiver.readResponse lib r t
    let ahead := out.2.socket.reads ++ later
    (out.1 = .inProgress → Along lib arrives ahead n b packets out.2) ∧
    (out.1 = .failed → Along lib arrives ahead n b packets out.2 ∧
      out.2.receiver.nonblockingResponse ≠ none ∧
      (Stuck lib (∀ r ∈ ahead, Silent r) out.2.current ∨ Half lib out.2.current)) ∧
    (out.1 = .done → out.2.receiver.nonblockingResponse = none ∧
      ∃ p, Along lib arrives ahead n b (packets ++ [p]) out.2) := by
  intro out ahead
  obtain ⟨hcur, hlog⟩ := openResponse_current ho
  obtain ⟨hst, hdone, hleft⟩ := readResponse_read lib r t
  obtain ⟨h1, h2⟩ := readResponse_log lib r t
  have hsock : s.current.socket = s.socket := rfl
  obtain ⟨⟨got, ht, hc⟩, hgoing, hfailed, hwhole⟩ :=
    h.stands.comes (show Sticky (s.current.socket.reads ++ later) by rw [hsock]; exact h.sticky)
  rw [← hcur] at hst hdone hleft
  rw [← hst] at hdone hleft hgoing hfailed hwhole
  generalize (read lib s.current).2 = c' at hdone hleft ht hc hgoing hfailed hwhole
  have hstream : b = packets.flatMap (fun p => frame p.1 p.2) ++
      (c'.packet.consumed ++ (c'.socket.incoming ++ arrives)) := by
    rw [h.stream, hc, ← hsock, ht.stream]
    simp only [List.append_assoc]
  have hsticky : Sticky (c'.socket.reads ++ later) := by
    refine h.sticky.sublist ?_
    rw [← hsock]
    exact (ht.reads.sublist).append (List.Sublist.refl _)
  -- a packet that is not done stays the current one
  have hstay : out.1 ≠ .done → out.2.socket = c'.socket ∧
      (Stands lib (∀ a ∈ c'.socket.reads ++ later, Silent a) c' →
        Along lib arrives ahead n b packets out.2) := by
    intro hnd
    have hsocket : out.2.socket = c'.socket := (hleft hnd).socket
    refine ⟨hsocket, fun hstands => ?_⟩
    have hahead : ahead = c'.socket.reads ++ later := by rw [← hsocket]
    rw [hahead]
    exact h.left (hleft hnd) (by rw [h2 hnd, hlog]) hstream hsticky hstands
  refine ⟨fun hio => (hstay (by rw [hio]; simp)).2 (hgoing hio), fun hf => ?_, fun hd => ?_⟩
  · have hnd : out.1 ≠ .done := by rw [hf]; simp
    obtain ⟨hsocket, hstands⟩ := hstay hnd
    have hpacket := (hleft hnd).current.1
    refine ⟨hstands ((hfailed hf).elim .stuck .half), by rw [(hleft hnd).reader]; simp, ?_⟩
    show Stuck lib (∀ r ∈ out.2.socket.reads ++ later, Silent r) _ ∨ _
    rw [hsocket]
    exact (hfailed hf).imp (fun h => h.of_packet hpacket) fun h => h.of_packet hpacket
  · obtain ⟨hsocket, hreader⟩ := hdone hd
    obtain ⟨msg, v, hbytes, hm, hv⟩ := hwhole hd
    rw [hbytes, ← hsocket] at hstream
    refine ⟨hreader, (msg, v), h.packet hreader ⟨hm, hv⟩ ?_ hstream ?_⟩
    · rw [h1 hd, receivedPackets_append, List.length_append, hlog]
      rfl
    · show Sticky (out.2.socket.reads ++ later)
      rw [hsocket]
      exact hsticky

/-- **Receive** reads packets one after the other; if it fails in reading one, the
reader is left, stuck or behind a message that does not parse. -/
theorem receiveLoop (fuel : Nat) (h : Along lib arrives (s.socket.reads ++ later) n b packets s) :
    let out := NonblockingReceiver.receiveLoop lib fuel s
    let ahead := out.2.socket.reads ++ later
    (∃ packets, Along lib arrives ahead n b packets out.2) ∧
    (out.1 = .error → out.2.receiver.nonblockingResponse ≠ none →
      Stuck lib (∀ r ∈ ahead, Silent r) out.2.current ∨ Half lib out.2.current) := by
  induction fuel generalizing s packets with
  | zero => exact ⟨⟨packets, h⟩, fun he => by cases he⟩
  | succ fuel ih =>
    unfold NonblockingReceiver.receiveLoop
    cases ho : NonblockingReceiver.openResponse s with
    | none => exact ⟨⟨packets, h⟩, fun he => by cases he⟩
    | some out =>
      obtain ⟨r, t⟩ := out
      obtain ⟨hio, hf, hd⟩ := h.readResponse ho
      dsimp only
      generalize NonblockingReceiver.readResponse lib r t = out at hio hf hd ⊢
      obtain ⟨st, u⟩ := out
      cases st with
      | inProgress => exact ⟨⟨packets, hio rfl⟩, fun he => by cases he⟩
      | failed =>
        obtain ⟨hu, -, hgiven⟩ := hf rfl
        have hall : Reads u.socket u.receiver.nonblockingResponse
            (NonblockingReceiver.callAllErrorHandlers lib ⟨.clientIoError, "I/O read error", 0⟩ u) :=
          Reads.aside.callAll ⟨rfl, rfl⟩ _
        have hcall := hu.callAll ⟨.clientIoError, "I/O read error", 0⟩
        dsimp only at hgiven ⊢
        rw [hall.socket]
        exact ⟨⟨packets, hcall⟩, fun _ _ => hgiven.imp (fun h => h.of_packet hall.same)
          fun h => h.of_packet hall.same⟩
      | done =>
        obtain ⟨hgone, p, hu⟩ := hd rfl
        have hp := hu.process
        have hk : Reads u.socket u.receiver.nonblockingResponse
            (NonblockingReceiver.processResponse lib u).2 := Reads.aside.process ⟨rfl, rfl⟩
        dsimp only at hp hk hgone ⊢
        generalize NonblockingReceiver.processResponse lib u = out at hp hk ⊢
        obtain ⟨st', w⟩ := out
        dsimp only at hp hk ⊢
        rw [← hk.socket] at hp
        cases st' with
        | some st' => exact ⟨⟨_, hp⟩, fun _ hn => absurd (hk.reader.trans hgone) hn⟩
        | none => exact ih hp

theorem dispatches {c : Completion} (hd : Dispatches lib s c t)
    (h : Along lib arrives (s.socket.reads ++ later) n b packets s) :
    ∃ ps : List (Bytes × Bytes), ps ≠ [] ∧ (∀ p ∈ ps, Fits p) ∧
      b = ps.flatMap (fun p => frame p.1 p.2) ++ (t.socket.incoming ++ arrives) := by
  induction hd generalizing packets with
  | @here s s₁ s₂ t r c ho hr hc =>
    have hread := (h.readResponse ho).2.2
    rw [hr] at hread
    obtain ⟨hgone, p, h2⟩ := hread rfl
    have hcur : s₂.current.packet = NonblockingPacketReader.create := by
      show s₂.receiver.nonblockingResponse.getD _ = _
      rw [hgone]
      rfl
    refine ⟨packets ++ [p], by simp, h2.fits, ?_⟩
    have hstream := h2.stream
    rw [hcur, consumed_create, List.nil_append, ← called_socket hc] at hstream
    exact hstream
  | @later s s₁ s₂ s₃ t r c ho hr hp _ ih =>
    have hread := (h.readResponse ho).2.2
    rw [hr] at hread
    obtain ⟨-, p, h2⟩ := hread rfl
    have h3 := h2.process
    have hk : Reads s₂.socket s₂.receiver.nonblockingResponse
        (NonblockingReceiver.processResponse lib s₂).2 := Reads.aside.process ⟨rfl, rfl⟩
    dsimp only at h3
    rw [hp] at h3 hk
    dsimp only at h3 hk
    rw [← hk.socket] at h3
    exact ih h3

/-- **Any operation** reads on, or reads nothing. -/
theorem apply {op : ReceiverOp} {ops : List ReceiverOp}
    (h : Along lib ((op :: ops).flatMap ReceiverOp.arrives)
      ((op :: ops).flatMap ReceiverOp.answers) n b packets s) :
    ∃ packets, Along lib (ops.flatMap ReceiverOp.arrives) (ops.flatMap ReceiverOp.answers) n b
      packets (op.apply lib s) := by
  by_cases hop : ∃ io, op = .receive io
  · obtain ⟨io, rfl⟩ := hop
    obtain ⟨⟨ps, hps⟩, -⟩ := h.supplied.receiveLoop ((s.supply io).socket.reads.length + 2)
    exact ⟨ps, hps.skip⟩
  · have hop' : ∀ io, op ≠ .receive io := fun io he => hop ⟨io, he⟩
    obtain ⟨harr, hans⟩ := answers_other hop'
    rw [List.flatMap_cons, List.flatMap_cons, harr, hans, List.nil_append, List.nil_append] at h
    refine ⟨packets, h.still (reads_apply lib s op hop') ?_⟩
    cases op with
    | receive io => exact absurd rfl (hop' io)
    | enqueue _ _ _ => rfl
    | remove key => exact (received_aside lib _).kept.remove s key rfl

theorem run {ops later : List ReceiverOp}
    (h : Along lib ((ops ++ later).flatMap ReceiverOp.arrives)
      ((ops ++ later).flatMap ReceiverOp.answers) n b packets s) :
    ∃ packets, Along lib (later.flatMap ReceiverOp.arrives) (later.flatMap ReceiverOp.answers) n b
      packets (ops.foldl (ReceiverOp.apply lib) s) := by
  induction ops generalizing s packets with
  | nil => exact ⟨packets, h⟩
  | cons op ops ih =>
    rw [List.cons_append] at h
    obtain ⟨ps, hps⟩ := h.apply
    exact ih hps

end Along
end

/-- **A Receive that has failed on a packet** is the last to call anybody with it,
if the packet is not half-parsed. -/
theorem neverDispatches {b : Bytes} (hb : ¬ HalfParsed lib b) : NeverDispatches lib b := by
  intro s before between io io' packets hr hfits ops hstream hsticky failed herr hcount c t hd
  have hstart : Along lib (ops.flatMap ReceiverOp.arrives) (ops.flatMap ReceiverOp.answers) _ _ [] s :=
    .start hr hsticky
  obtain ⟨ps, hbefore⟩ := hstart.run
  obtain ⟨⟨ps, hfailed⟩, hgiven⟩ := hbefore.supplied.receiveLoop _
  change Along lib _ (failed.2.socket.reads ++ _) _ _ _ failed.2 at hfailed
  by_cases hleft : failed.2.receiver.nonblockingResponse = none
  · -- the packet has been read, and what is read now comes after it
    refine ⟨hleft, ?_⟩
    have hagain : Along lib ((between ++ [ReceiverOp.receive io']).flatMap ReceiverOp.arrives) _ _ _ []
        failed.2 := .start hleft hfailed.skip.sticky
    obtain ⟨_, hbetween⟩ := hagain.run
    obtain ⟨qs, hne, hq, hbytes⟩ := hbetween.supplied.dispatches hd
    refine ⟨qs.flatMap fun p => frame p.1 p.2, fun hnil => hne ?_, ?_⟩
    · have := packets_delimited.length_le hq
      rw [hnil] at this
      exact List.length_eq_zero_iff.1 (Nat.le_zero.1 this)
    · rw [hbytes]
      simp
  · -- as many packets have been read as before `b`, so `b` is what the reader began with
    have hlen : ps.length = packets.length := by
      have := hfailed.count
      omega
    have hsplit := hfailed.stream
    rw [hstream] at hsplit
    obtain ⟨-, hrest⟩ := packets_delimited.words_cancel hfits hfailed.fits hsplit hlen.symm
    rcases hgiven herr hleft with hstuck | hhalf
    · have hless : Hopeless lib (between ++ [.receive io']) failed.2 :=
        ⟨hleft, hstuck.mono fun h r hr => h r (List.mem_append_right _ hr)⟩
      exact absurd hd (hless.run.receive.2 c t)
    · rw [hrest] at hb
      exact absurd (hhalf.halfParsed _) hb

/-- **A failed packet stays failed** on exactly the streams that do not begin
with a whole packet whose message does not parse: no later `Read` is done, and no
later `Receive` calls anybody with a response. -/
theorem failed_packet_stays_failed_iff (lib : Lib) (b : Bytes) :
    StaysFailed lib b ∧ NeverDispatches lib b ↔ ¬ HalfParsed lib b :=
  ⟨fun h => (staysFailed_iff lib b).1 h.1,
    fun h => ⟨(staysFailed_iff lib b).2 h, neverDispatches h⟩⟩

/-- What a reader that has been left gives, a `Receive` hands on. -/
theorem Dispatches.of_left {h : Nat} {m : Message}
    (hr : s.receiver.nonblockingResponse.isSome = true)
    (hd : (read lib s.current).1 = .done)
    (hc : (called lib (NonblockingReceiver.readResponse lib s.current.packet s).2).map
      (fun p => (p.1.handler, p.2.receiver.message)) = some (h, m)) :
    ∃ c t, Dispatches lib s c t ∧ c.handler = h ∧ t.receiver.message = m := by
  obtain ⟨⟨c, t⟩, hct, he⟩ := Option.map_eq_some_iff.1 hc
  obtain ⟨r, hr⟩ := Option.isSome_iff_exists.1 hr
  have ho : NonblockingReceiver.openResponse s = some (r, s) := by
    unfold NonblockingReceiver.openResponse
    rw [hr]
  have hcur : s.current.packet = r := by
    rw [(openResponse_current ho).1]
  have hst := (readResponse_read lib r s).1
  rw [← (openResponse_current ho).1, hd] at hst
  rw [hcur] at hct
  exact ⟨c, t, .here ho (Prod.ext hst rfl) hct, congrArg Prod.fst he, congrArg Prod.snd he⟩

/-- A packet whose message bytes break off after the command bytes: `Read` fails
and is done, `Receive` fails and calls the handler of the acksequence that the
half-parsed message has. -/
theorem half_parsed_dispatched :
    let cmd : Bytes := [0x0a, 0x02, 0x30, 0x01]
    let msg : Bytes := [0x3a, 0x04] ++ cmd ++ [0xff]
    let m : Message := { commandBytes := some cmd }
    let lib : Lib := ⟨fun _ => true, fun _ => [], fun b => if b = msg then (false, m) else (true, {}),
      fun _ => [], fun b => (true, if b = cmd then { header := some { ackSequence := some 1 } } else {}),
      fun _ _ => []⟩
    let failed := NonblockingReceiver.receiveAny lib
      ((ReceiverOp.apply lib (NonblockingPacketService.create 3 1 [] 0) (.enqueue 0 0 10)).supply {
        arrives := frame msg []
        reads := List.replicate 16 (.count 1) })
    readAll lib (atOnce (frame msg [])) (freshRead {} none 3) = [.failed, .done] ∧
    failed.1 = .error ∧
    (∃ c t, Dispatches lib ((ReceiverOp.apply lib failed.2 (.enqueue 1 1 11)).supply {}) c t ∧
      c.handler = 1 ∧ t.receiver.message = m) ∧
    ¬ ∀ (lib : Lib) (b : Bytes), StaysFailed lib b ∧ NeverDispatches lib b := by
  intro cmd msg m lib failed
  have hb : HalfParsed lib (frame msg []) :=
    ⟨msg, [], [], (List.append_nil _).symm, by decide, by decide, rfl⟩
  refine ⟨hb.readAll {} none 3, by decide +kernel, ?_, fun h => ?_⟩
  · exact Dispatches.of_left (by decide +kernel) (by decide +kernel) (by decide +kernel)
  · exact (staysFailed_iff lib _).1 (h lib (frame msg [])).1 hb

end Kinetic.L2
