import Kinetic.L2Service.Calls

/-!
# No answer is left lying

The dual of `Starvation`, for the bytes that come: the receiver reads as long as
somebody waits, and each `Run` on a readable descriptor takes a byte at least
(`receive_takes`). So an answer that has arrived is handed out after as many of
these as there are bytes up to its end, whatever is submitted, removed and received
meanwhile, and the handler of its request is called with it and with nothing else
(`answers_arrive`).
-/
open Kinetic.Core

namespace Kinetic.L2

open L1 NonblockingPacketService

variable {lib : Lib} {s t : NonblockingPacketService} {net net' : Net} {n i : Nat} {p : Packet}
  {r : Request}

/-! ## One call of Receive -/

theorem readResponse_socket (lib : Lib) (r : NonblockingPacketReader)
    (s : NonblockingPacketService) :
    (NonblockingReceiver.readResponse lib r s).2.socket = (NonblockingPacketReader.read lib
      ⟨r, s.receiver.message, s.receiver.value, s.socket⟩).2.socket := by
  unfold NonblockingReceiver.readResponse
  dsimp only
  split <;> rfl

/-- What waits to be read becomes less, and does if the descriptor is readable and
there is a reader or somebody who waits. -/
theorem receiveLoop_takes (fuel : Nat) (h : Inv s) (hq : Quiet s) (hrd : Reading lib s) :
    (NonblockingReceiver.receiveLoop lib fuel s).2.socket.incoming.length ≤
        s.socket.incoming.length ∧
      (0 < fuel → Socket.Readable s.socket.reads → s.socket.incoming ≠ [] →
        s.receiver.map ≠ ∅ ∨ s.receiver.nonblockingResponse ≠ none →
        (NonblockingReceiver.receiveLoop lib fuel s).2.socket.incoming.length <
          s.socket.incoming.length) := by
  induction fuel generalizing s with
  | zero => exact ⟨Nat.le_refl _, by omega⟩
  | succ fuel ih =>
    rcases receive_turn h hq hrd with
      ⟨he, hm, hr⟩ | ⟨st, r, s₁, t, he, hop, hrs, h2, hq2, -, -, hdone⟩
    · rw [he fuel]
      exact ⟨Nat.le_refl _, fun _ _ _ hw => (hw.elim (· hm) (· hr)).elim⟩
    -- what the read takes
    have hpend := hop.reading r hop.reader
    have hsock := readResponse_socket lib r s₁
    rw [hrs] at hsock
    dsimp only at hsock
    obtain ⟨got, ht⟩ := NonblockingPacketReader.readLoop_took lib 6
      ⟨r, s₁.receiver.message, s₁.receiver.value, s₁.socket⟩
    have hlt := NonblockingPacketReader.read_progress lib hpend
    rw [show NonblockingPacketReader.readLoop lib 6 _ = NonblockingPacketReader.read lib _ from rfl,
      ← hsock] at ht
    rw [← hsock] at hlt
    have hle : t.socket.incoming.length ≤ s.socket.incoming.length := by
      have := congrArg List.length ht.stream
      dsimp only at this
      rw [List.length_append, hop.socket] at this
      omega
    dsimp only at hlt
    rw [hop.socket] at hlt
    -- and what comes after it
    suffices hrest : (NonblockingReceiver.receiveLoop lib (fuel + 1) s).2.socket.incoming.length ≤
        t.socket.incoming.length by
      exact ⟨Nat.le_trans hrest hle, fun _ hk hin _ => Nat.lt_of_le_of_lt hrest (hlt hk hin)⟩
    rw [he fuel]
    cases st with
    | inProgress => exact Nat.le_refl _
    | failed =>
      have hfr : Frame (t.emit (.failedAll ⟨.clientIoError, "I/O read error", 0⟩))
          (NonblockingReceiver.callAllErrorHandlers lib ⟨.clientIoError, "I/O read error", 0⟩ t) :=
        (callAll_moves _ h2 hq2).2.1
      exact Nat.le_of_eq (congrArg (·.incoming.length) hfr.socket)
    | done =>
      have hpr := process_moves hop.settles.inv hop.settles.quiet hrs
      have hnone := (hdone rfl).1
      dsimp only
      cases hp : NonblockingReceiver.processResponse lib t with
      | mk st' u =>
      rw [hp] at hpr
      cases st' with
      | some st => exact Nat.le_of_eq (congrArg (·.incoming.length) hpr.socket)
      | none =>
        have := (ih hpr.settles.inv hpr.settles.quiet fun r' hr' => by
          rw [hpr.reader, hnone] at hr'; cases hr').1
        rwa [hpr.socket] at this

/-- **Receive** takes bytes; on a readable descriptor it takes one if there is one and
somebody waits. -/
theorem receive_takes (h : Inv s) (hq : Quiet s) (hrd : Reading lib s) :
    (NonblockingReceiver.receive lib s).2.socket.incoming.length ≤ s.socket.incoming.length ∧
      (Socket.Readable s.socket.reads → s.socket.incoming ≠ [] →
        s.receiver.map ≠ ∅ ∨ s.receiver.nonblockingResponse ≠ none →
        (NonblockingReceiver.receive lib s).2.socket.incoming.length <
          s.socket.incoming.length) :=
  ⟨(receiveLoop_takes _ h hq hrd).1, (receiveLoop_takes _ h hq hrd).2 (Nat.succ_pos _)⟩

/-! ## An answer that has arrived -/

theorem Brings.grows {op : Op} (hb : Brings lib net net' op) :
    net.packets <+: net'.packets ∧ net.arrived <+: net'.arrived := by
  cases op with
  | run io fds => exact ⟨hb.1, hb.2.1 ▸ List.prefix_append _ _⟩
  | _ => exact ⟨hb.1 ▸ List.prefix_refl _, hb.2 ▸ List.prefix_refl _⟩

/-- The bytes up to the end of packet `i` that have not been taken. -/
def behind (i : Nat) (net : Net) : Nat :=
  (stream (net.packets.take (i + 1))).length -
    (net.arrived.length - net.service.socket.incoming.length)

theorem Matched.untaken (hst : Steady lib net.service) (h : Matched lib net n)
    (hf : net.service.failed = false) {m : Nat} (hm : m ≤ net.packets.length) (hn : n < m)
    (harr : stream (net.packets.take m) <+: net.arrived) :
    (stream (net.packets.take n) ++ taken net.service).length <
      (stream (net.packets.take m)).length := by
  by_contra hge
  have hacc := h.accounted hf
  rw [← List.append_assoc] at hacc
  have hpre : stream (net.packets.take n) ++ taken net.service <+: net.arrived :=
    ⟨_, hacc⟩
  -- the same, had no further byte arrived
  let dry : Net :=
    { net with
      service := { net.service with socket := { net.service.socket with incoming := [] } }
      arrived := stream (net.packets.take n) ++ taken net.service }
  have hstep : Step lib net.service dry.service := .environment _ net.service.scripts rfl
  have hst' : Steady lib dry.service :=
    ⟨hst.inv.step hstep, ⟨hst.quiet.receiver, hst.quiet.awaiting, hst.quiet.current⟩, hst.paired,
      fun hf r hr => pending_congr (hst.reading hf r hr) rfl⟩
  have hdry : Matched lib dry n :=
    ⟨h.heard, h.awaiting.still (l := []) (by simp [dry]) rfl rfl rfl, h.honest,
      fun _ => congrArg _ (List.append_nil _), hpre.trans h.sent⟩
  have := hdry.whole hst' hf rfl hm
    (List.prefix_of_prefix_length_le harr hpre (Nat.le_of_not_lt hge))
  omega

/-- Packet `i` of the device answers the request. -/
structure Answers (lib : Lib) (net : Net) (i : Nat) (p : Packet) (r : Request) : Prop where
  accepted : r ∈ accepted net.service.log
  packet : net.packets[i]? = some p
  solicited : ¬ p.Unsolicited lib
  acknowledges : p.ackSequence lib = some r.command.getSequence

/-- **An answer that has been received** is the only call of the handler, unless
that has been removed. -/
theorem Answers.handed (ha : Answers lib net i p r) (hst : Steady lib net.service)
    (hrec : Records lib net.service) (h : Matched lib net n) (hi : i < n) :
    r.handler ∈ withdrawn net.service.log ∨
      (completions net.service.log).filter (·.handler = r.handler) =
        [response r.handler (p.command lib) (some p.value)] := by
  obtain ⟨hr, hp, hu, hack⟩ := ha
  have hmem : (p.message lib, some p.value) ∈ receivedPackets net.service.log := by
    rw [h.heard.received]
    refine List.mem_map.2 ⟨p, List.mem_of_getElem? (i := i) ?_, rfl⟩
    rw [List.getElem?_take, if_pos hi, hp]
  obtain ⟨e, he, hev⟩ := List.mem_filterMap.1 hmem
  obtain rfl : e = .received (p.message lib) (some p.value) := by
    split at hev
    · rw [← Prod.mk.inj (Option.some.inj hev) |>.1, ← Prod.mk.inj (Option.some.inj hev) |>.2]
    · cases hev
  obtain ⟨pre, post, hl⟩ := List.append_of_mem he
  obtain ⟨r', hr', -, -, hack', -, hcalls⟩ := h.answers hst hrec hl hu
  -- the request that it answers is this one
  have hmem' : r' ∈ L2.accepted net.service.log := by
    rw [hl, accepted_append]; exact List.mem_append_left _ hr'
  have hhandler : r'.handler = r.handler := by
    have h1 := (hrec.numbered r hr).sequence
    have h2 := (hrec.numbered r' hmem').sequence
    have := Option.some.inj (hack'.symm.trans hack)
    omega
  rw [hhandler] at hcalls
  by_cases hw : r.handler ∈ withdrawn pre
  · left
    rw [hl, withdrawn_append]
    exact List.mem_append_left _ hw
  · exact .inr (hcalls hw)

/-- **Who has been called** on a live connection has been answered. -/
theorem Answers.received (ha : Answers lib net i p r) (h : (network lib).Reachable net)
    (hn : Matched lib net n) (hf : net.service.failed = false)
    (hs : r.handler ∈ settled net.service.log) : i < n := by
  obtain ⟨hr, hp, hu, hack⟩ := ha
  have hrec := records (network_service h)
  obtain ⟨c, hc, hh⟩ := List.mem_map.1 hs
  rw [live_delivered h hf, hn.heard.expected] at hc
  obtain ⟨m, v, hm, hmu, r', hr', hh', hseq⟩ := mem_expected hc
  rw [hn.heard.received, List.mem_map] at hm
  obtain ⟨q, hq, hqm⟩ := hm
  obtain ⟨rfl, -⟩ := Prod.mk.inj hqm
  obtain ⟨j, hj, rfl⟩ := List.getElem_of_mem hq
  rw [List.length_take] at hj
  rw [List.getElem_take] at hmu hseq
  obtain ⟨hi, rfl⟩ := List.getElem?_eq_some_iff.1 hp
  have hsame : (net.packets[j].command lib).getHeader.ackSequence =
      (net.packets[i].command lib).getHeader.ackSequence := by
    have h1 := (hrec.numbered r hr).sequence
    have h2 := (hrec.numbered r' hr').sequence
    refine Eq.trans hseq (Eq.trans ?_ hack.symm)
    rw [h1, h2, hh', hh]
  -- the device has not answered twice
  have honce := List.pairwise_iff_getElem.1 hn.honest.once
  rcases Nat.lt_trichotomy i j with hij | rfl | hij
  · omega
  · omega
  · exact absurd hsame (((honce j i (by omega) hi hij).resolve_left hmu).resolve_left hu)

/-! ## Runs -/

/-- The handler has been called or removed, or the service has failed. -/
def Told (h : Nat) (s : NonblockingPacketService) : Prop :=
  h ∈ settled s.log ∨ h ∈ withdrawn s.log ∨ s.failed = true

/-- A `Run` on a readable descriptor. -/
def Op.Readable : Op → Prop
  | .run io _ => Socket.Readable io.reads
  | _ => False

instance : DecidablePred Op.Readable
  | .run io _ => Socket.decidableReadable io.reads
  | .submit _ _ _ _ => .isFalse id
  | .remove _ => .isFalse id

theorem Told.grows {h : Nat} {new : List Event} (hs : Told h s) (hlog : t.log = s.log ++ new)
    (hf : s.failed = true → t.failed = true) : Told h t := by
  unfold Told
  rw [hlog, settled_append, withdrawn_append]
  rcases hs with hs | hs | hs
  · exact .inl (List.mem_append_left _ hs)
  · exact .inr (.inl (List.mem_append_left _ hs))
  · exact .inr (.inr (hf hs))

theorem Told.stays {h : Nat} (hst : Steady lib s) {op : Op} (hd : op.Defined lib s)
    (hs : Told h s) : Told h (op.apply lib s) := by
  obtain ⟨new, hlog⟩ := steps_log (apply_steady op hst hd).1 hst.inv
  exact hs.grows hlog fun hf => apply_failed hst hf op

theorem Answers.step (ha : Answers lib net i p r) (hst : Steady lib net.service) {op : Op}
    (hstep : (network lib).step net op net') :
    Answers lib net' i p r ∧ net'.packets.take (i + 1) = net.packets.take (i + 1) := by
  obtain ⟨hr, hp, hu, hack⟩ := ha
  obtain ⟨hd, hs, hb⟩ := hstep
  obtain ⟨new, hlog⟩ := steps_log (apply_steady op hst hd).1 hst.inv
  obtain ⟨more, hmore⟩ := hb.grows.1
  obtain ⟨hi, -⟩ := List.getElem?_eq_some_iff.1 hp
  refine ⟨⟨?_, ?_, hu, hack⟩, ?_⟩
  · rw [hs, hlog, accepted_append]; exact List.mem_append_left _ hr
  · rw [← hmore, List.getElem?_append_left hi]; exact hp
  · rw [← hmore, List.take_append_of_le_length (by omega)]

/-- **A Run** takes bytes and gives none back; on a readable descriptor it takes one
if there is one and, once `Send` is over, somebody waits. -/
theorem run_takes (hst : Steady lib net.service) (hf : net.service.failed = false) {io : Io}
    {fds : FdSets} (hstep : (network lib).step net (.run io fds) net')
    (hf' : net'.service.failed = false) :
    let u := (NonblockingSender.send lib (net.service.supply io)).2
    (∃ new, net'.service.log = u.log ++ new) ∧
    net'.service.socket.incoming.length + net.arrived.length ≤
      net.service.socket.incoming.length + net'.arrived.length ∧
    (Socket.Readable io.reads → net.service.socket.incoming ≠ [] → u.receiver.map ≠ ∅ →
      net'.service.socket.incoming.length + net.arrived.length <
        net.service.socket.incoming.length + net'.arrived.length) := by
  obtain ⟨-, hs, -, harr, -⟩ := hstep
  have hsup := (supply_steady io hst).2
  obtain ⟨a, b, -, hrd, -, b', -⟩ := sendReceive_moves hsup hf
  obtain ⟨hle, hlt⟩ := receive_takes a.inv a.quiet hrd
  have hin : (NonblockingSender.send lib (net.service.supply io)).2.socket.incoming =
      net.service.socket.incoming ++ io.arrives := b.incoming
  rw [hin, List.length_append] at hle hlt
  rw [b.reads] at hlt
  rw [harr, List.length_append]
  rcases run_cases (s := net.service.supply io) hf fds with ⟨-, he⟩ | ⟨-, -, he⟩ | ⟨-, -, he⟩
  · rw [hs, Op.apply, he] at hf'; cases hf'
  · rw [hs, Op.apply, he] at hf'; cases hf'
  · rw [hs, Op.apply, he]
    refine ⟨b'.log, ?_, fun hk hne hm => ?_⟩
    · dsimp only
      omega
    · have := hlt hk (fun hn => hne (List.append_eq_nil_iff.1 hn).1) (.inl hm)
      dsimp only
      omega

theorem step_takes (hst : Steady lib net.service) {op : Op} (hstep : (network lib).step net op net')
    (hf : net.service.failed = false) (hf' : net'.service.failed = false) :
    net'.service.socket.incoming.length + net.arrived.length ≤
      net.service.socket.incoming.length + net'.arrived.length := by
  obtain ⟨hd, hs, hb⟩ := hstep
  cases op with
  | submit scripts m c v =>
    obtain ⟨-, h2⟩ := scripts_steady scripts hst
    have hsock : net'.service.socket = net.service.socket := by
      rw [hs]
      exact (submit_moves (fun c s hc => complete_moves lib c hc) h2.inv m c v hd).frame.socket
    rw [hsock, hb.2]
  | remove key =>
    have hsock : net'.service.socket = net.service.socket := by
      rw [hs]
      exact (remove_moves lib hst.inv key).frame.socket
    rw [hsock, hb.2]
  | run io fds => exact (run_takes hst hf ⟨hd, hs, hb⟩ hf').2.1

theorem incoming_le (h : (network lib).Reachable net) (hf : net.service.failed = false) :
    net.service.socket.incoming.length ≤ net.arrived.length := by
  obtain ⟨n, hm⟩ := matched h
  rw [← hm.accounted hf, List.length_append, List.length_append]
  omega

theorem still_awaiting (h : (network lib).Reachable net) (hf : net.service.failed = false) {x : Nat}
    (hx : x ∈ sentOut net.service.log) (io : Io)
    (hn : ¬ Told x (NonblockingSender.send lib (net.service.supply io)).2) :
    (NonblockingSender.send lib (net.service.supply io)).2.receiver.map ≠ ∅ := by
  have hst := steady (network_service h)
  obtain ⟨hsup, hst'⟩ := supply_steady io hst
  obtain ⟨a, -⟩ := sendReceive_moves hst' hf
  obtain ⟨n, hm⟩ := matched h
  have hawait := Steps.carry (P := Awaiting) (fun _ _ hi hp hs => Awaiting.step hi hp hs)
    (hsup.trans a.steps) hst.inv hm.awaiting
  obtain ⟨new, hlog⟩ := steps_log (hsup.trans a.steps) hst.inv
  simp only [Told, not_or] at hn
  rcases hawait.sent x (by rw [hlog, sentOut_append]; exact List.mem_append_left _ hx) with
    hs | hw | hfind
  · exact absurd hs hn.1
  · exact absurd hw hn.2.1
  · intro he
    rw [he] at hfind
    cases hfind

theorem untold (h : (network lib).Reachable net) (ha : Answers lib net i p r)
    (harr : stream (net.packets.take (i + 1)) <+: net.arrived) (hn : ¬ Told r.handler net.service) :
    net.arrived.length - net.service.socket.incoming.length <
        (stream (net.packets.take (i + 1))).length ∧
      net.service.socket.incoming ≠ [] ∧ r.handler ∈ sentOut net.service.log := by
  simp only [Told, not_or, Bool.not_eq_true] at hn
  obtain ⟨hset, hwith, hf⟩ := hn
  have hst := steady (network_service h)
  have hrec := records (network_service h)
  obtain ⟨n, hm⟩ := matched h
  obtain ⟨hi, -⟩ := List.getElem?_eq_some_iff.1 ha.packet
  have hle : ¬ i < n := fun hlt => by
    refine hset ?_
    have hone := (ha.handed hst hrec hm hlt).resolve_left hwith
    have hmem := List.mem_of_mem_filter (hone ▸ List.mem_singleton_self
      (response r.handler (p.command lib) (some p.value)))
    refine List.mem_map.2 ⟨_, hmem, ?_⟩
    unfold response
    split <;> rfl
  have hun := hm.untaken hst hf (m := i + 1) hi (by omega) harr
  have hacc := congrArg List.length (hm.accounted hf)
  have harrlen := harr.length_le
  simp only [List.length_append] at hun hacc
  refine ⟨by omega, fun hnil => ?_, ?_⟩
  · rw [hnil, List.length_nil] at hacc
    omega
  · obtain ⟨r', hr', hsent, hseq⟩ :=
      (hm.honest.answers p (List.mem_of_getElem? ha.packet)).resolve_left ha.solicited
    have h1 := (hrec.numbered r ha.accepted).sequence
    have h2 := (hrec.numbered r' hr').sequence
    have := Option.some.inj (ha.acknowledges.symm.trans hseq)
    rwa [show r.handler = r'.handler by omega]

/-- An answer that has arrived counts the bytes down. -/
theorem arrival (lib : Lib) (i : Nat) (p : Packet) (r : Request) :
    LTS.Countdown (network lib)
      (fun net => (network lib).Reachable net ∧ Answers lib net i p r ∧
        stream (net.packets.take (i + 1)) <+: net.arrived)
      (fun net => Told r.handler net.service) Op.Readable (behind i) where
  keeps := by
    rintro net op net' ⟨h, ha, harr⟩ hstep
    obtain ⟨ha', htake⟩ := ha.step (steady (network_service h)) hstep
    exact ⟨h.step hstep, ha', htake ▸ harr.trans hstep.2.2.grows.2⟩
  stays := by
    rintro net op net' ⟨h, -, -⟩ ⟨hd, hs, -⟩ hg
    rw [hs]
    exact hg.stays (steady (network_service h)) hd
  le := by
    rintro net op net' ⟨h, ha, -⟩ hstep hn
    have hst := steady (network_service h)
    have hf' : net'.service.failed = false := by
      simp only [Told, not_or, Bool.not_eq_true] at hn
      exact hn.2.2
    have hf : net.service.failed = false := by
      by_contra hf
      rw [Bool.not_eq_false] at hf
      refine hn (.inr (.inr ?_))
      rw [hstep.2.1]
      exact apply_failed hst hf op
    have := step_takes hst hstep hf hf'
    have := incoming_le h hf
    rw [behind, behind, (ha.step hst hstep).2]
    omega
  lt := by
    rintro net op net' ⟨h, ha, harr⟩ hstep hmark hn
    have hst := steady (network_service h)
    have hn' : ¬ Told r.handler net.service := fun hg => hn (by
      rw [hstep.2.1]; exact hg.stays hst hstep.1)
    obtain ⟨hlt, hne, hsent⟩ := untold h ha harr hn'
    match op with
    | .submit _ _ _ _ => exact absurd hmark id
    | .remove _ => exact absurd hmark id
    | .run io fds =>
      have hf : net.service.failed = false := by
        simp only [Told, not_or, Bool.not_eq_true] at hn'
        exact hn'.2.2
      have hf' : net'.service.failed = false := by
        simp only [Told, not_or, Bool.not_eq_true] at hn
        exact hn.2.2
      obtain ⟨⟨new, hlog⟩, -, htakes⟩ := run_takes hst hf hstep hf'
      have hfu : (NonblockingSender.send lib (net.service.supply io)).2.failed = false :=
        (sendReceive_moves (supply_steady io hst).2 hf).2.1.failed.trans hf
      have := htakes hmark hne (still_awaiting h hf hsent io fun hg => hn (hg.grows hlog
        fun hg' => by rw [hfu] at hg'; cases hg'))
      have := incoming_le h hf
      rw [behind, behind, (ha.step hst hstep).2]
      omega

/-- **Answers are handed out**: on a live connection, once there have been as many
Runs on a readable descriptor as there are bytes to be taken up to the end of an
answer that has arrived, the handler of its request has been called with it and with
nothing else, unless it has been removed. -/
theorem answers_arrive (h : (network lib).Reachable net) {ops : List Op}
    (hrun : (network lib).Run net ops net') (hf : net'.service.failed = false)
    (hr : r ∈ accepted net.service.log) (hp : net.packets[i]? = some p)
    (hu : ¬ p.Unsolicited lib) (hack : p.ackSequence lib = some r.command.getSequence)
    (harr : stream (net.packets.take (i + 1)) <+: net.arrived)
    (hcount : behind i net ≤ ops.countP (fun op => decide op.Readable)) :
    r.handler ∈ withdrawn net'.service.log ∨
      (completions net'.service.log).filter (·.handler = r.handler) =
        [response r.handler (p.command lib) (some p.value)] := by
  have hstart : (network lib).Reachable net ∧ Answers lib net i p r ∧
      stream (net.packets.take (i + 1)) <+: net.arrived := ⟨h, ⟨hr, hp, hu, hack⟩, harr⟩
  obtain ⟨h', ha', -⟩ := (arrival lib i p r).keeps_run hrun hstart
  rcases (arrival lib i p r).reaches (fun net ⟨h, ha, harr⟩ hn => by
    have := (untold h ha harr hn).1
    rw [behind]
    omega) hrun hstart hcount with hs | hw | hf'
  · obtain ⟨n, hn⟩ := matched h'
    exact ha'.handed (steady (network_service h')) (records (network_service h')) hn
      (ha'.received h' hn hf hs)
  · exact .inl hw
  · rw [hf] at hf'; cases hf'

/-- The answers to `asked` have all arrived, and none of their bytes has been taken. -/
def answersArrived : Net :=
  ⟨play Codec.plain (create 5 1 [] 0) (asked ++ [.run { arrives := stream replies } ⟨[], [], 0⟩]),
    replies, stream replies⟩

/-- A byte a `Run`. -/
def bytewise (n : Nat) : List Op :=
  List.replicate n (.run { reads := [.intr, .count 1, .again] } ⟨[], [], 0⟩)

theorem answers_arrive_bytewise :
    behind 0 answersArrived = 21 ∧
    (completions (play Codec.plain answersArrived.service (bytewise 21)).log).filter
      (·.handler = 2) = [.handle 2 { header := some { ackSequence := some 2 }
                                     status := some { code := some .success } } (some [7, 8])] := by
  have h0 : (network Codec.plain).Reachable ⟨play Codec.plain (create 5 1 [] 0) asked, [], []⟩ :=
    reachable_silent asked ⟨_, [], ⟨create_fresh .., rfl, rfl, rfl⟩, .nil _⟩ (by decide +kernel)
      (by simp [asked])
  have h : (network Codec.plain).Reachable answersArrived :=
    h0.step (l := .run { arrives := stream replies } ⟨[], [], 0⟩) ⟨by decide +kernel, rfl, List.nil_prefix, rfl,
      List.prefix_refl _, by simp, by decide +kernel⟩
  have hlast : ∃ r ∈ accepted answersArrived.service.log, r.handler = 2 ∧
      r.command.getSequence = 2 := by decide +kernel
  obtain ⟨r, hr, hh, hseq⟩ := hlast
  refine ⟨by decide +kernel, ?_⟩
  have := (answers_arrive h (run_silent h (bytewise 21) (by decide +kernel)
    (by simp [bytewise, Socket.Fragment])) (by decide +kernel) hr (i := 0) rfl (by decide +kernel)
    (by rw [hseq]; decide +kernel) (by decide +kernel) (by decide +kernel)).resolve_left (by
      rw [hh]; decide +kernel)
  rw [hh] at this
  exact this

end Kinetic.L2
