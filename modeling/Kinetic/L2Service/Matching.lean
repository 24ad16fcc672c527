import Kinetic.L1Wire.Codec
import Kinetic.L2Service.Device

/-!
# Responses are matched to requests

On a connection to an honest device, the packets that `Receive` reads are the
device's, in order and byte for byte, and each response makes the one call that
is due for it: no response is dropped, and none goes to another handler. The
induction is over the packets of one `Receive` (`receiveLoop_hears`), and over the
operations of a run (`responses_matched`).
-/
open Kinetic.Core

namespace Kinetic.L2

open L1 NonblockingPacketService

variable {lib : Lib} {s t u : NonblockingPacketService} {ps : List Packet} {arrived : Bytes} {n : Nat}

/-! ## One packet -/

theorem answer_eq (h : Nat) (s : NonblockingPacketService) :
    (NonblockingReceiver.answer h s).1 = response h s.receiver.command s.receiver.value := by
  unfold NonblockingReceiver.answer response
  dsimp only
  split <;> rfl

/-- No handler waits under -1, the acksequence given to unsolicited statuses. -/
theorem Inv.find_negative (h : Inv s) : s.receiver.map.find (-1) = none := by
  rw [Option.eq_none_iff_forall_ne_some]
  rintro ⟨x, key⟩ hm
  have := (h.map _ _ _ hm).1
  omega

/-- What waits under the number of a request whose packet has been written and
that has not been answered: its handler, unless it was removed. -/
theorem awaiting_find (hi : Inv s) (hq : Quiet s) (ha : Awaiting s) {x : Nat}
    (hx : x ∈ sentOut s.log) (hs : x ∉ settled s.log) :
    s.receiver.map.find (x : Int) = if x ∈ withdrawn s.log then none else some (x, x) := by
  split
  · rename_i hw
    rw [Option.eq_none_iff_forall_ne_some]
    rintro ⟨y, key⟩ hm
    have hxy : x = y := by
      have := (hi.map _ _ _ hm).1
      omega
    subst hxy
    exact (hi.ledger.live (Inv.mem_held_of_map hm) (hq.awaiting_unsettled hi hm)).2 hw
  · rename_i hw
    rcases ha.sent x hx with h | h | h
    · exact absurd h hs
    · exact absurd h hw
    · exact h

theorem Packet.WellFormed.accepts {p : Packet} {hmacKey : Bytes} (h : p.WellFormed lib hmacKey) :
    accepts lib hmacKey (p.message lib) = some (p.command lib) := by
  have hv : ¬ ((p.message lib).hmacAuth.isSome = true ∧
      validateHmac lib (p.message lib) hmacKey = false) := by
    rintro ⟨h1, h2⟩
    rw [h.signed h1] at h2; cases h2
  rw [L2.accepts, if_neg hv]
  have := h.command
  unfold Packet.command
  cases hc : lib.parseCommand (p.message lib).getCommandBytes with
  | mk b c =>
    rw [hc] at this
    obtain rfl : b = true := this
    rfl

/-- **One packet**: it delivers what is due for it. -/
theorem delivery_due {p : Packet} (hi : Inv s) (hq : Quiet s) (ha : Awaiting s)
    (hrec : Records lib s) (hp : p.WellFormed lib s.receiver.hmacKey)
    (hans : p.Unsolicited lib ∨ Answerable s.log (p.ackSequence lib))
    (hun : ∀ r ∈ accepted s.log, ¬ p.Unsolicited lib →
      p.ackSequence lib = some r.command.getSequence → r.handler ∉ settled s.log) :
    delivery lib (p.message lib) (some p.value) s = due lib s.log (p.message lib) (some p.value) := by
  unfold delivery due
  rw [hp.accepts]
  dsimp only
  rw [noteCommand_ackSequence, arrived_message]
  by_cases hu : (p.message lib).getAuthType = .unsolicitedStatus
  · rw [if_pos hu, if_pos hu]
    have : (NonblockingReceiver.noteCommand (p.command lib)
        (s.arrived (p.message lib) (some p.value))).receiver.map.find (-1) = none :=
      hi.find_negative
    simp only [this]
  rw [if_neg hu, if_neg hu]
  obtain ⟨r, hr, hsent, hack⟩ := hans.resolve_left hu
  have hack' : (p.command lib).getHeader.ackSequence = some r.command.getSequence := hack
  -- the first request with this sequence has the same handler
  obtain ⟨r', hfind⟩ : ∃ r', (accepted s.log).find? (fun r =>
      (p.command lib).getHeader.ackSequence == some r.command.getSequence) = some r' := by
    rw [← Option.isSome_iff_exists, List.find?_isSome]
    exact ⟨r, hr, by simp [hack']⟩
  have hr' := List.mem_of_find?_eq_some hfind
  have hseq : r'.command.getSequence = r.command.getSequence := by
    have := List.find?_some hfind
    rw [beq_iff_eq, hack'] at this
    exact (Option.some.inj this).symm
  have hhandler : r'.handler = r.handler := by
    have h1 := (hrec.numbered r hr).sequence
    have h2 := (hrec.numbered r' hr').sequence
    omega
  have hmap := awaiting_find hi hq ha hsent (hun r hr hu hack)
  have hm : (NonblockingReceiver.noteCommand (p.command lib)
      (s.arrived (p.message lib) (some p.value))).receiver.map.find r.command.getSequence =
      if r.handler ∈ withdrawn s.log then none else some (r.handler, r.handler) := by
    rw [(hrec.numbered r hr).sequence]
    exact hmap
  have hcmd : (NonblockingReceiver.noteCommand (p.command lib)
      (s.arrived (p.message lib) (some p.value))).receiver.command = p.command lib := if_neg hu
  have hfind' : (accepted s.log).find? (fun r =>
      (lib.parseCommand (p.message lib).getCommandBytes).2.getHeader.ackSequence ==
        some r.command.getSequence) = some r' := hfind
  rw [hfind', hack']
  dsimp only
  rw [hm, hhandler]
  by_cases hw : r.handler ∈ withdrawn s.log
  · rw [if_pos hw, if_pos hw]
  · rw [if_neg hw, if_neg hw]
    dsimp only
    rw [answer_eq, hcmd]
    rfl

/-! ## One Receive -/

/-- What the log says of the packets received so far. -/
structure Heard (lib : Lib) (ps : List Packet) (log : List Event) (n : Nat) : Prop where
  le : n ≤ ps.length
  received : receivedPackets log = (ps.take n).map fun p => (p.message lib, some p.value)
  expected : delivered log = L2.expected lib log
  earlier : ∀ pre m v post, log = pre ++ .received m v :: post →
    delivered pre = L2.expected lib pre ∧
    (m.getAuthType = .unsolicitedStatus ∨
      Answerable pre (lib.parseCommand m.getCommandBytes).2.getHeader.ackSequence)
  unfailed : ∀ status, Event.failedAll status ∉ log

theorem Heard.append {log new : List Event} (h : Heard lib ps log n)
    (hnew : ∀ e ∈ new, e.Calm ∨ ∃ x, e = .written x) : Heard lib ps (log ++ new) n := by
  have hrec : receivedPackets new = [] := by
    rw [receivedPackets, List.filterMap_eq_nil_iff]
    intro e he
    rcases hnew e he with hc | ⟨x, rfl⟩
    · cases e <;> first | rfl | exact absurd hc id
    · rfl
  have hdel : delivered new = [] := delivered_nil fun c hm => by
    rcases hnew _ hm with hc | ⟨x, hx⟩
    · exact hc
    · cases hx
  refine ⟨h.le, by rw [receivedPackets_append, hrec, List.append_nil]; exact h.received, ?_,
    fun pre m v post hl => ?_, fun status hm => ?_⟩
  · rw [delivered_append, hdel, List.append_nil, expected_silent hrec]; exact h.expected
  · rcases split_append hl with ⟨mid, hs⟩ | ⟨mid, -, hs⟩
    · exact h.earlier pre m v mid hs
    · have hm : Event.received m v ∈ new := by rw [hs]; simp
      rcases hnew _ hm with hc | ⟨x, hx⟩
      · exact absurd hc id
      · cases hx
  · rcases List.mem_append.1 hm with hm | hm
    · exact h.unfailed status hm
    · rcases hnew _ hm with hc | ⟨x, hx⟩
      · exact absurd hc id
      · cases hx

/-- The next packet is received, and what is due for it is delivered. -/
theorem Heard.receive {log : List Event} (h : Heard lib ps log n) {p : Packet}
    (hp : ps[n]? = some p) (hans : p.Unsolicited lib ∨ Answerable log (p.ackSequence lib)) :
    Heard lib ps (log ++ [.received (p.message lib) (some p.value)] ++
      (due lib log (p.message lib) (some p.value)).map .completed) (n + 1) := by
  obtain ⟨hlt, hget⟩ := List.getElem?_eq_some_iff.1 hp
  have hcalls : ∀ l : List Completion, receivedPackets (l.map .completed) = [] ∧
      delivered (l.map .completed) = l.filter (·.response.isSome) ∧
      ∀ status, Event.failedAll status ∉ l.map Event.completed := by
    intro l
    refine ⟨?_, ?_, by simp⟩
    · rw [receivedPackets, List.filterMap_eq_nil_iff]; simp
    · rw [delivered, completions, List.filterMap_map]
      congr 1
      exact List.filterMap_some
  have hdue : (due lib log (p.message lib) (some p.value)).filter (·.response.isSome) =
      due lib log (p.message lib) (some p.value) := by
    rw [List.filter_eq_self]
    intro c hc
    unfold due at hc
    dsimp only at hc
    split at hc
    · cases hc
    split at hc
    · cases hc
    split at hc
    · cases hc
    rw [List.mem_singleton.1 hc, response]
    split <;> rfl
  obtain ⟨h1, h2, h3⟩ := hcalls (due lib log (p.message lib) (some p.value))
  have hdr : delivered [Event.received (p.message lib) (some p.value)] = [] := rfl
  refine ⟨hlt, ?_, ?_, fun pre m v post hl => ?_, fun status hm => ?_⟩
  · rw [receivedPackets_append, receivedPackets_append, h1, List.append_nil, h.received,
      List.take_add_one, hp]
    simp [receivedPackets]
  · rw [delivered_append, delivered_append, hdr, List.append_nil, h2, hdue, h.expected,
      expected_silent h1, expected_received]
  · rw [List.append_assoc] at hl
    rcases split_append hl with ⟨mid, hs⟩ | ⟨mid, hpre, hs⟩
    · exact h.earlier pre m v mid hs
    · cases mid with
      | nil =>
        rw [List.nil_append, List.singleton_append, List.cons.injEq, Event.received.injEq] at hs
        rw [hpre, List.append_nil, ← hs.1.1]
        exact ⟨h.expected, hans⟩
      | cons e mid =>
        rw [List.singleton_append, List.cons_append, List.cons.injEq] at hs
        have hm : Event.received m v ∈ (due lib log (p.message lib) (some p.value)).map
            Event.completed := by rw [hs.2]; simp
        simp at hm
  · simp only [List.mem_append, List.mem_singleton, reduceCtorEq, or_false] at hm
    exact hm.elim (h.unfailed status) (h3 status)

theorem Honest.mono {hmacKey : Bytes} {log new : List Event} (h : Honest lib hmacKey ps log) :
    Honest lib hmacKey ps (log ++ new) := by
  refine ⟨h.wellFormed, fun p hp => (h.answers p hp).imp_right ?_, h.once⟩
  rintro ⟨r, hr, hs, hseq⟩
  exact ⟨r, by rw [accepted_append]; exact List.mem_append_left _ hr,
    by rw [sentOut_append]; exact List.mem_append_left _ hs, hseq⟩

/-- `n` of the packets have been received, and the bytes of the others are on
their way. -/
structure Listening (lib : Lib) (ps : List Packet) (arrived : Bytes)
    (s : NonblockingPacketService) (n : Nat) : Prop where
  inv : Inv s
  quiet : Quiet s
  reading : Reading lib s
  awaiting : Awaiting s
  records : Records lib s
  honest : Honest lib s.receiver.hmacKey ps s.log
  heard : Heard lib ps s.log n
  fragments : s.socket.ReadsFragment
  accounted : stream (ps.take n) ++ (taken s ++ s.socket.incoming) = arrived
  sent : arrived <+: stream ps

/-- The transport will hand over whatever is left of the packets. -/
def Willing (ps : List Packet) (s : NonblockingPacketService) (n : Nat) : Prop :=
  ∃ k, Socket.Eager s.socket.reads k ∧ (stream (ps.drop n)).length ≤ k + (taken s).length

theorem stream_append (ps qs : List Packet) : stream (ps ++ qs) = stream ps ++ stream qs := by
  simp [stream]

theorem Listening.ahead (h : Listening lib ps arrived s n) :
    ∃ later, taken s ++ (s.socket.incoming ++ later) = stream (ps.drop n) := by
  obtain ⟨later, hl⟩ := h.sent
  rw [← h.accounted, ← List.take_append_drop n ps, stream_append, List.append_assoc] at hl
  rw [List.take_append_drop] at hl
  exact ⟨later, by rw [← List.append_cancel_left hl, List.append_assoc]⟩

theorem Listening.unanswered (h : Listening lib ps arrived s n) {p : Packet} (hp : ps[n]? = some p)
    {r : Request} (hr : r ∈ accepted s.log) (hu : ¬ p.Unsolicited lib)
    (hack : p.ackSequence lib = some r.command.getSequence) : r.handler ∉ settled s.log := by
  intro hset
  obtain ⟨hlt, hget⟩ := List.getElem?_eq_some_iff.1 hp
  have same : ∀ {r' : Request}, r' ∈ accepted s.log →
      p.ackSequence lib = some r'.command.getSequence → r'.handler = r.handler := by
    intro r' hr' hack'
    have h1 := (h.records.numbered r hr).sequence
    have h2 := (h.records.numbered r' hr').sequence
    rw [hack, Option.some.injEq] at hack'
    omega
  obtain ⟨r', hr', hsent, hack'⟩ :=
    (h.honest.answers p (List.mem_of_getElem? hp)).resolve_left hu
  rw [same hr' hack'] at hsent
  rcases h.awaiting.answered _ hsent hset with hd | ⟨status, hf⟩
  · -- some earlier packet answered it
    obtain ⟨c, hc, hch⟩ := List.mem_map.1 hd
    rw [h.heard.expected] at hc
    obtain ⟨m, v, hm, hmu, r₂, hr₂, hh, hseq⟩ := mem_expected hc
    rw [h.heard.received, List.mem_map] at hm
    obtain ⟨q, hq, hqm⟩ := hm
    obtain ⟨rfl, -⟩ := Prod.mk.inj hqm
    obtain ⟨i, hi, rfl⟩ := List.getElem_of_mem hq
    rw [List.length_take] at hi
    have hin : i < n := by omega
    have hone := List.pairwise_iff_getElem.1 h.honest.once i n (by omega) hlt hin
    rw [List.getElem_take] at hmu hseq
    rw [hget] at hone
    refine (hone.resolve_left hmu).resolve_left hu ?_
    rw [hack]
    have h1 := (h.records.numbered r hr).sequence
    have h2 := (h.records.numbered r₂ hr₂).sequence
    refine Eq.trans hseq ?_
    rw [h1, h2, hh, hch]
  · exact h.heard.unfailed status hf

theorem stream_drop {p : Packet} (hp : ps[n]? = some p) :
    stream (ps.drop n) = p.encoded ++ stream (ps.drop (n + 1)) := by
  obtain ⟨hlt, rfl⟩ := List.getElem?_eq_some_iff.1 hp
  rw [List.drop_eq_getElem_cons hlt]
  rfl

theorem Listening.eager (h : Listening lib ps arrived s n) {r : NonblockingPacketReader}
    {st : NonblockingStringStatus} {c : ReadState} (hop : Opened lib s r u)
    (hrd : NonblockingPacketReader.read lib
      ⟨r, u.receiver.message, u.receiver.value, u.socket⟩ = (st, c))
    {p : Packet} (hp : ps[n]? = some p) {k : Nat} (hk : Socket.Eager s.socket.reads k)
    (hle : (stream (ps.drop n)).length ≤ k + (taken s).length) :
    (st = .inProgress → c.socket.incoming = []) ∧
    (st = .done → Socket.Eager c.socket.reads
      (k + (taken s).length - c.packet.consumed.length)) := by
  have hwf := h.honest.wellFormed p (List.mem_of_getElem? hp)
  have hlen : (stream (ps.drop n)).length =
      (frame p.bytes p.value).length + (stream (ps.drop (n + 1))).length := by
    rw [stream_drop hp, List.length_append]; rfl
  obtain ⟨later, hahead⟩ := h.ahead
  have := NonblockingPacketReader.readLoop_eager lib 6 k
    ⟨r, u.receiver.message, u.receiver.value, u.socket⟩ p.bytes p.value later
    (stream (ps.drop (n + 1))) (hop.reading r hop.reader).ok (NonblockingPacketReader.rank_lt _)
    hwf.length hwf.valueLength ?_ (by rw [hop.socket]; exact hk) ?_
  · rw [show NonblockingPacketReader.readLoop lib 6 _ = _ from hrd] at this
    rw [← hop.taken]
    exact this
  · dsimp only
    rw [hop.socket, hop.taken, hahead]
    exact stream_drop hp
  · dsimp only
    rw [hop.taken]; omega

/-- **One read** waits, with the transport having given all it had, or
completes the next packet of the device. -/
theorem Listening.read (h : Listening lib ps arrived s n) {r : NonblockingPacketReader}
    {st : NonblockingStringStatus} (hop : Opened lib s r u)
    (hrs : NonblockingReceiver.readResponse lib r u = (st, t)) :
    t.socket.ReadsFragment ∧
    ((st = .inProgress ∧ taken t ++ t.socket.incoming = taken s ++ s.socket.incoming ∧
        (Willing ps s n → t.socket.incoming = [])) ∨
      (st = .done ∧ ∃ p, ps[n]? = some p ∧ t.receiver.message = p.message lib ∧
        t.receiver.value = some p.value ∧
        p.encoded ++ t.socket.incoming = taken s ++ s.socket.incoming ∧
        (Willing ps s n → ∃ k, Socket.Eager t.socket.reads k ∧
          (stream (ps.drop (n + 1))).length ≤ k))) := by
  have hpend := hop.reading r hop.reader
  obtain ⟨got, ht, hc, ho⟩ := NonblockingPacketReader.read_spec lib
    ⟨r, u.receiver.message, u.receiver.value, u.socket⟩ hpend.ok
    id
  have hfrag : u.socket.ReadsFragment := by rw [hop.socket]; exact h.fragments
  obtain ⟨later, hahead⟩ := h.ahead
  have hin : s.socket.incoming = got ++ (NonblockingPacketReader.read lib
      ⟨r, u.receiver.message, u.receiver.value, u.socket⟩).2.socket.incoming := by
    rw [← hop.socket]; exact ht.stream
  rw [show NonblockingPacketReader.consumed _ = taken s from hop.taken] at hc
  unfold NonblockingReceiver.readResponse at hrs
  generalize hrd : NonblockingPacketReader.read lib
    ⟨r, u.receiver.message, u.receiver.value, u.socket⟩ = out at ht hc ho hin hrs
  obtain ⟨st', c⟩ := out
  have hbytes : c.packet.consumed ++ c.socket.incoming = taken s ++ s.socket.incoming := by
    rw [hc, hin, List.append_assoc]
  have hfrag' := ht.readsFragment hfrag
  by_cases hn : n < ps.length
  · -- the reader is at the next packet
    obtain ⟨p, hp⟩ : ∃ p, ps[n]? = some p := ⟨_, List.getElem?_eq_getElem hn⟩
    have hwf := h.honest.wellFormed p (List.mem_of_getElem? hp)
    have hstr : c.packet.consumed ++ (c.socket.incoming ++ later) =
        frame p.bytes p.value ++ stream (ps.drop (n + 1)) := by
      rw [← List.append_assoc, hbytes, List.append_assoc, hahead]
      exact stream_drop hp
    have hlen : (stream (ps.drop n)).length =
        (frame p.bytes p.value).length + (stream (ps.drop (n + 1))).length := by
      rw [stream_drop hp, List.length_append]; rfl
    rcases ho.on_frame hwf.length hwf.valueLength hwf.parses hstr with
      ⟨rfl, hcons, -, hresp, hval⟩ | ⟨-, -, -, hprog⟩
    · obtain ⟨rfl, rfl⟩ := Prod.mk.inj hrs
      refine ⟨hfrag', .inr ⟨rfl, p, hp, (congrArg Prod.snd hresp).symm, hval, ?_, ?_⟩⟩
      · rw [← hbytes, hcons]; rfl
      · rintro ⟨k, hk, hle⟩
        refine ⟨_, (h.eager hop hrd hp hk hle).2 rfl, ?_⟩
        rw [hcons]; omega
    · obtain rfl := hprog hfrag
      obtain ⟨rfl, rfl⟩ := Prod.mk.inj hrs
      refine ⟨hfrag', .inl ⟨rfl, hbytes, ?_⟩⟩
      rintro ⟨k, hk, hle⟩
      exact (h.eager hop hrd hp hk hle).1 rfl
  · -- nothing is left of the stream
    have hnil : taken s ++ (s.socket.incoming ++ later) = [] := by
      rw [hahead, List.drop_eq_nil_of_le (by omega)]; rfl
    simp only [List.append_eq_nil_iff] at hnil
    rw [hnil.1, hnil.2.1, List.append_nil, List.append_eq_nil_iff] at hbytes
    rcases ho.on_other (b := 0) (by decide)
        (show _ ++ [0] = 0 :: [] by rw [hbytes.1]; rfl) with
      ⟨-, hcons⟩ | ⟨-, -, -, hprog⟩
    · rw [hbytes.1] at hcons; cases hcons
    · obtain rfl := hprog hfrag
      obtain ⟨rfl, rfl⟩ := Prod.mk.inj hrs
      refine ⟨hfrag', .inl ⟨rfl, ?_, fun _ => hbytes.2⟩⟩
      rw [hnil.1, hnil.2.1]
      exact List.append_eq_nil_iff.2 hbytes

theorem Listening.still (h : Listening lib ps arrived s n) (hs : Settles lib s t)
    (hlog : t.log = s.log) (hkey : t.receiver.hmacKey = s.receiver.hmacKey) (hrd : Reading lib t)
    (hfrag : t.socket.ReadsFragment)
    (hbytes : taken t ++ t.socket.incoming = taken s ++ s.socket.incoming) :
    Listening lib ps arrived t n := by
  refine ⟨hs.inv, hs.quiet, hrd, ?_, ?_, ?_, ?_, hfrag, ?_, h.sent⟩
  · exact Steps.carry (P := Awaiting) (fun _ _ hi hp hst => Awaiting.step hi hp hst) hs.steps h.inv
      h.awaiting
  · exact Steps.carry (P := Records lib) (fun _ _ hi hp hst => Records.step hi hp hst) hs.steps h.inv
      h.records
  · rw [hlog, hkey]; exact h.honest
  · rw [hlog]; exact h.heard
  · rw [hbytes]; exact h.accounted

/-- **A packet of the device** is accepted, delivers what is due for it, and
`Receive` goes on to the next. -/
theorem Listening.process (h : Listening lib ps arrived s n) {r : NonblockingPacketReader}
    (hop : Opened lib s r u) (hrs : NonblockingReceiver.readResponse lib r u = (.done, t))
    (hfrag : t.socket.ReadsFragment) (hnone : t.receiver.nonblockingResponse = none)
    {p : Packet} (hp : ps[n]? = some p) (hm : t.receiver.message = p.message lib)
    (hv : t.receiver.value = some p.value)
    (hbytes : p.encoded ++ t.socket.incoming = taken s ++ s.socket.incoming) :
    (NonblockingReceiver.processResponse lib t).1 = none ∧
      Listening lib ps arrived (NonblockingReceiver.processResponse lib t).2 (n + 1) := by
  have hwf := h.honest.wellFormed p (List.mem_of_getElem? hp)
  have hans := h.honest.answers p (List.mem_of_getElem? hp)
  obtain ⟨hset, hfr, hsock, hrdr, -, -⟩ := process_moves hop.settles.inv
    hop.settles.quiet hrs
  -- the state before the packet, with what is left of the stream
  have hsent := (readResponse_frame lib r u).sent
  rw [hrs] at hsent
  have hstep : Step lib u { u with socket := t.socket } := .environment t.socket u.scripts hsent
  have hs' : Settles lib s { u with socket := t.socket } :=
    ⟨hop.settles.steps.tail hstep, hop.settles.inv.step hstep, hop.settles.quiet.receiver,
      hop.settles.quiet.awaiting, hop.settles.quiet.current⟩
  have hkey : { u with socket := t.socket }.receiver.hmacKey = s.receiver.hmacKey :=
    hop.frame.hmacKey
  have hlog : { u with socket := t.socket }.log = s.log := hop.log
  have hawait := Steps.carry (P := Awaiting) (fun _ _ hi hp hst => Awaiting.step hi hp hst)
    hs'.steps h.inv h.awaiting
  have hrec := Steps.carry (P := Records lib) (fun _ _ hi hp hst => Records.step hi hp hst)
    hs'.steps h.inv h.records
  have ht := readResponse_arrived hrs
  rw [hm, hv] at ht
  have htkey : t.receiver.hmacKey = s.receiver.hmacKey := by rw [ht]; exact hkey
  generalize { u with socket := t.socket } = s' at hs' hkey hlog hawait hrec ht
  -- what the packet delivers
  have hacc : accepts lib s'.receiver.hmacKey (p.message lib) = some (p.command lib) := by
    rw [hkey]; exact hwf.accepts
  obtain ⟨ack, hack⟩ : ∃ ack, (NonblockingReceiver.noteCommand (p.command lib)
      (s'.arrived (p.message lib) (some p.value))).receiver.command.getHeader.ackSequence =
        some ack := by
    rw [noteCommand_ackSequence]
    split
    · exact ⟨_, rfl⟩
    · rename_i hu
      obtain ⟨q, -, -, hseq⟩ := hans.resolve_left hu
      exact ⟨_, hseq⟩
  have hdue := delivery_due (p := p) hs'.inv hs'.quiet hawait hrec (by rw [hkey]; exact hwf)
    (by rw [hlog]; exact hans)
    (by rw [hlog]; exact fun q hq hu hseq => h.unanswered hp hq hu hseq)
  obtain ⟨hst, new, hnew, hcalm⟩ := process_continues hs'.inv hs'.quiet hacc hack
  rw [← ht] at hst hnew
  rw [hdue, hlog] at hnew
  refine ⟨hst, hset.inv, hset.quiet, ?_, ?_, ?_, ?_, ?_, ?_, ?_, h.sent⟩
  · intro r' hr'; rw [hrdr, hnone] at hr'; cases hr'
  · exact Steps.carry (P := Awaiting) (fun _ _ hi hp hst => Awaiting.step hi hp hst)
      (hop.settles.steps.trans hset.steps) h.inv h.awaiting
  · exact Steps.carry (P := Records lib) (fun _ _ hi hp hst => Records.step hi hp hst)
      (hop.settles.steps.trans hset.steps) h.inv h.records
  · rw [hfr.hmacKey, htkey, hnew, List.append_assoc, List.append_assoc]
    exact h.honest.mono
  · rw [hnew]
    exact (h.heard.receive hp hans).append fun e he => .inl (hcalm e he)
  · rw [hsock]; exact hfrag
  · rw [hsock, taken, hrdr, hnone, List.nil_append, List.take_add_one, hp, Option.toList_some,
      stream_append, List.append_assoc, show stream [p] = p.encoded by simp [stream], hbytes]
    exact h.accounted

/-- **Receive** reads the device's packets one after the other, and stops for
want of bytes, or of a handler that waits. -/
theorem receiveLoop_hears (fuel : Nat) (h : Listening lib ps arrived s n)
    (hfuel : s.socket.reads.length < fuel) :
    (∃ n', Listening lib ps arrived (NonblockingReceiver.receiveLoop lib fuel s).2 n') ∧
      (NonblockingReceiver.receiveLoop lib fuel s).1 ≠ .error ∧
      (Willing ps s n → (NonblockingReceiver.receiveLoop lib fuel s).1 = .ioWait →
        (NonblockingReceiver.receiveLoop lib fuel s).2.socket.incoming = []) := by
  induction fuel generalizing s n with
  | zero => omega
  | succ fuel ih =>
    rcases receive_turn h.inv h.quiet h.reading with
      ⟨he, -⟩ | ⟨st, r, u, t, he, hop, hrs, h2, hq2, hfr, hwait, hdone⟩
    · rw [he fuel]
      exact ⟨⟨n, h⟩, by simp, by simp⟩
    rw [he fuel]
    obtain ⟨hfrag, ⟨rfl, hbytes, hempty⟩ | ⟨rfl, p, hp, hm, hv, hbytes, hwill⟩⟩ := h.read hop hrs
    · have hset : Settles lib s t := ⟨hop.settles.steps.tail (.read hrs (by simp)), h2, hq2⟩
      obtain ⟨-, hl2⟩ := readResponse_log lib r u
      rw [hrs] at hl2
      have hlog : t.log = s.log := (hl2 (by simp)).trans hop.log
      exact ⟨⟨n, h.still hset hlog hfr.hmacKey (hwait rfl).1 hfrag hbytes⟩, by simp,
        fun hw _ => hempty hw⟩
    · obtain ⟨hnone, hlt⟩ := hdone rfl
      obtain ⟨hst, hnext⟩ := h.process hop hrs hfrag hnone hp hm hv hbytes
      obtain ⟨-, -, hsock, hrdr, -, -⟩ := process_moves hop.settles.inv
        hop.settles.quiet hrs
      dsimp only
      generalize NonblockingReceiver.processResponse lib t = out at hst hnext hsock hrdr
      obtain ⟨st', v⟩ := out
      dsimp only at hst hnext hsock hrdr ⊢
      subst hst
      obtain ⟨h3, h4, h5⟩ := ih hnext (by rw [hsock]; omega)
      refine ⟨h3, h4, fun hw => h5 ?_⟩
      obtain ⟨k, hk, hle⟩ := hwill hw
      exact ⟨k, by rw [hsock]; exact hk, Nat.le_trans hle (Nat.le_add_right _ _)⟩

end Kinetic.L2
