import Kinetic.L1Wire.PacketStream
import Kinetic.L2Service.Auth
import Kinetic.L2Service.Device
import Kinetic.L2Service.Sending
import Kinetic.L2Service.Signing
import Kinetic.L2Service.Wire

/-!
# What a device makes of the wire

A device that takes packets off the bytes it has got, checks and parses each,
hears the Commands of the requests whose packets have been written, one after
the other, each signed as it was submitted (`device_hears`). So what the log calls
a written request, and C++ code calls an awaiting handler, is what the other end
can know. The invariant of the moves is `Spoken`: the requests written, the one
that the sender is at, and how far it has got with it.
-/
open Kinetic.Core

namespace Kinetic.L2

open L1 NonblockingPacketService

variable {lib : Lib} {s t : NonblockingPacketService}

/-- The serialized message of a request, and its value. -/
def Request.parts (lib : Lib) (r : Request) : Bytes × Bytes :=
  (lib.serializeMessage r.message, r.value)

/-- The packets of `ready` have been written, that of `current` is under way, those
of `drained` were failed, and the rest is queued. -/
structure Spoken (lib : Lib) (s : NonblockingPacketService) (ready : List Request)
    (current : Option Request) (drained : List Request) : Prop where
  order : outgoing s.log = ready ++ (current.toList ++ (drained ++ s.sender.requestQueue))
  written : sentOut s.log = ready.map (·.handler)
  bytes : ∃ out, s.socket.sent = ready.flatMap (Request.packet lib) ++ out ∧
    out ++ unwritten lib s = current.toList.flatMap (Request.packet lib)
  writer : current = none ↔ s.sender.currentWriter = none
  handler : ∀ x, s.sender.handler = some x → ∃ r, current = some r ∧ r.handler = x
  drains : drained ≠ [] → s.failed = true ∨ s.sender.currentWriter ≠ none ∧ s.sender.handler = none

theorem outgoing_removeQueued (hi : Inv s) (hr : Records lib s) {front : List Request}
    (ho : outgoing s.log = front ++ s.sender.requestQueue) {key : Nat} {r : Request}
    (hf : s.sender.requestQueue.find? (·.handlerKey == key) = some r) :
    outgoing (s.log ++ [.removed r.handler key true]) =
      front ++ s.sender.requestQueue.eraseP (·.handlerKey == key) := by
  have hmem := List.mem_of_find?_eq_some hf
  have hkey : r.handler = key := by
    have := List.find?_some hf
    rw [← (hi.queue r hmem).key]
    exact beq_iff_eq.1 this
  have hsorted := hr.sorted.sublist (outgoing_sublist s.log)
  rw [ho, List.pairwise_append] at hsorted
  obtain ⟨-, hq, hfq⟩ := hsorted
  have hfront : front.filter (·.handler ≠ r.handler) = front := by
    refine List.filter_eq_self.2 fun x hx => ?_
    have := hfq x hx r hmem
    simp only [ne_eq, decide_eq_true_eq]
    omega
  rw [outgoing_removed, ho, List.filter_append, hfront, hkey,
    filter_eq_eraseP (fun x hx => (hi.queue x hx).key) hq]

namespace Spoken

variable {ready drained : List Request} {current : Option Request}

theorem frame (h : Spoken lib s ready current drained) (hsent : t.socket.sent = s.socket.sent)
    (hsender : t.sender = s.sender) (hf : s.failed = true → t.failed = true)
    (hlog : outgoing t.log = outgoing s.log) (hout : sentOut t.log = sentOut s.log) :
    Spoken lib t ready current drained := by
  obtain ⟨h1, h2, h3, h4, h5, h6⟩ := h
  refine ⟨by rw [hlog, hsender]; exact h1, by rw [hout]; exact h2, ?_, by rw [hsender]; exact h4,
    by rw [hsender]; exact h5, fun hd => ?_⟩
  · rw [hsent, unwritten, hsender]; exact h3
  · rw [hsender]; exact (h6 hd).imp_left hf

theorem silent (h : Spoken lib s ready current drained) {new : List Event}
    (hlog : t.log = s.log ++ new) (hacc : accepted new = []) (hun : unsent new = [])
    (hout : sentOut new = []) (hsent : t.socket.sent = s.socket.sent) (hsender : t.sender = s.sender)
    (hf : s.failed = true → t.failed = true) : Spoken lib t ready current drained := by
  refine h.frame hsent hsender hf ?_ ?_
  · rw [hlog]; exact outgoing_append hacc hun
  · rw [hlog, sentOut_append, hout, List.append_nil]

theorem undrained (h : Spoken lib s ready current drained) (hf : s.failed = false)
    (hc : s.sender.currentWriter = none ∨ s.sender.handler ≠ none) : drained = [] := by
  by_contra hd
  rcases h.drains hd with hf' | ⟨hw, hh⟩
  · rw [hf] at hf'; cases hf'
  · exact hc.elim hw (absurd hh)

theorem read (h : Spoken lib s ready current drained) (r : NonblockingPacketReader) :
    Spoken lib (NonblockingReceiver.readResponse lib r s).2 ready current drained := by
  have hf := readResponse_frame lib r s
  obtain ⟨h1, h2⟩ := readResponse_log lib r s
  by_cases hd : (NonblockingReceiver.readResponse lib r s).1 = .done
  · exact h.silent (h1 hd) rfl rfl rfl hf.sent hf.sender (by rw [hf.failed]; exact id)
  · exact h.silent (show _ = s.log ++ [] by rw [h2 hd]; simp) rfl rfl rfl hf.sent hf.sender
      (by rw [hf.failed]; exact id)

/-- **Every move keeps the account of the packets.** -/
theorem step (hi : Inv s) (hr : Records lib s) (h : Spoken lib s ready current drained)
    (hst : Step lib s t) : ∃ ready current drained, Spoken lib t ready current drained := by
  cases hst with
  | environment socket scripts hs => exact ⟨_, _, _, h.frame hs rfl id rfl rfl⟩
  | accept m c v hf hd =>
    obtain ⟨r, he, hh, -⟩ := enqueue_spec lib m c v s.handlers s.nextKey s.count
    rw [he]
    refine ⟨ready, current, drained, ?_, ?_, h.bytes, h.writer, h.handler, h.drains⟩
    · show outgoing (s.log ++ [.submitted r]) = _
      rw [outgoing_submitted hi hh, h.order]
      simp [count]
    · show sentOut (s.log ++ [.submitted r]) = _
      rw [sentOut_append, h.written]
      exact List.append_nil _
  | refuse hf =>
    have hlog : ((s.count.emit (.refused s.handlers s.nextKey)).emit
        (.completed (.error s.handlers alreadyShutDown none))).log = s.log ++
          [.refused s.handlers s.nextKey, .completed (.error s.handlers alreadyShutDown none)] := by
      simp [count]
    exact ⟨_, _, _, h.silent hlog rfl rfl rfl rfl rfl id⟩
  | @removeQueued key r hf =>
    refine ⟨ready, current, drained, ?_, ?_, h.bytes, h.writer, h.handler, h.drains⟩
    · have ho := h.order
      rw [← List.append_assoc, ← List.append_assoc] at ho
      rw [← List.append_assoc, ← List.append_assoc]
      exact outgoing_removeQueued hi hr ho hf
    · dsimp only
      rw [sentOut_append, h.written]
      exact List.append_nil _
  | removeAwaiting _ _ =>
    exact ⟨_, _, _, h.silent rfl rfl rfl rfl rfl rfl id⟩
  | @start r rest hf hw hh hq =>
    have hd := h.undrained hf (.inl hw)
    subst hd
    have hc := h.writer.2 hw
    subst hc
    refine ⟨ready, some r, [], ?_, h.written, ?_, by simp, fun x hx => ⟨r, rfl, ?_⟩,
      fun hd => absurd rfl hd⟩
    · have := h.order
      rw [hq] at this
      simpa using this
    · obtain ⟨out, h1, h2⟩ := h.bytes
      obtain rfl : out = [] := by
        simp only [Option.toList_none, List.flatMap_nil, List.append_eq_nil_iff] at h2
        exact h2.1
      refine ⟨[], h1, ?_⟩
      dsimp only [unwritten]
      rw [NonblockingPacketWriter.remaining_create]
      simp [Request.packet]
    · exact Option.some.inj hx
  | @write w w' st k hf hw hwr =>
    obtain ⟨got, hg, hrem, -⟩ := w.write_spec lib s.socket
    rw [hwr] at hg hrem
    dsimp only at hg hrem
    refine ⟨ready, current, drained, h.order, h.written, ?_, ?_, h.handler, fun hd => ?_⟩
    · obtain ⟨out, h1, h2⟩ := h.bytes
      rw [unwritten, hw] at h2
      refine ⟨out ++ got, ?_, ?_⟩
      · dsimp only
        rw [hg.sent, h1, List.append_assoc]
      · dsimp only [unwritten] at h2 ⊢
        rw [List.append_assoc, ← hrem]
        exact h2
    · have := h.writer
      rw [hw] at this
      simpa using this
    · exact (h.drains hd).imp_right fun hh => ⟨by simp, hh.2⟩
  | @finish w x hf hw hrem hh hun =>
    have hd := h.undrained hf (.inr (by rw [hh]; simp))
    subst hd
    obtain ⟨r, rfl, rfl⟩ := h.handler x hh
    refine ⟨ready ++ [r], none, [], ?_, ?_, ⟨[], ?_, rfl⟩, by simp, fun x hx => (by cases hx),
      fun hd => absurd rfl hd⟩
    · dsimp only
      rw [outgoing_append rfl rfl, h.order]
      simp
    · dsimp only
      rw [sentOut_append, h.written, List.map_append]
      rfl
    · obtain ⟨out, h1, h2⟩ := h.bytes
      rw [unwritten, hw] at h2
      dsimp only at h2 ⊢
      rw [hrem, List.append_nil] at h2
      rw [h1, h2, List.append_nil, List.flatMap_append]
      rfl
  | writeFail status _ _ => exact ⟨_, _, _, h.silent rfl rfl rfl rfl rfl rfl id⟩
  | letGo _ =>
    refine ⟨ready, current, drained, h.order, h.written, h.bytes, h.writer, fun x hx => (by cases hx),
      fun hd => ?_⟩
    exact (h.drains hd).imp_right fun hh => ⟨hh.1, rfl⟩
  | @failQueued r rest status hg hq =>
    refine ⟨ready, current, drained ++ [r], ?_, ?_, h.bytes, h.writer, h.handler, fun _ => hg⟩
    · dsimp only [emit_log, emit_sender]
      rw [outgoing_append rfl rfl, h.order, hq]
      simp
    · dsimp only [emit_log]
      rw [sentOut_append, h.written]
      exact List.append_nil _
  | bookkeeping r x => exact ⟨_, _, _, h.frame rfl rfl id rfl rfl⟩
  | @read s' r st hrd _ =>
    have := h.read r
    rw [hrd] at this
    exact ⟨_, _, _, this⟩
  | @deliver s' r command ack x key hrd _ _ _ _ =>
    have := h.read r
    rw [hrd] at this
    obtain ⟨v, hv⟩ := answered_eq ack x key (NonblockingReceiver.noteCommand command s')
    rw [hv]
    exact ⟨_, _, _, this.silent rfl rfl rfl rfl rfl rfl id⟩
  | @drop s' r command ack hrd _ _ _ =>
    have := h.read r
    rw [hrd] at this
    exact ⟨_, _, _, this.frame rfl rfl id rfl rfl⟩
  | @reject s' r command connectionId status hrd =>
    have := h.read r
    rw [hrd] at this
    exact ⟨_, _, _, this.silent rfl rfl rfl rfl rfl rfl id⟩
  | failAll status => exact ⟨_, _, _, h.silent rfl rfl rfl rfl rfl rfl id⟩
  | failOne status _ _ _ => exact ⟨_, _, _, h.silent rfl rfl rfl rfl rfl rfl id⟩
  | clear _ => exact ⟨_, _, _, h.frame rfl rfl id rfl rfl⟩
  | cleanUp => exact ⟨_, _, _, h.frame rfl rfl (fun _ => rfl) rfl rfl⟩

end Spoken

theorem Fresh.spoken (h : Fresh s) : Spoken lib s [] none [] := by
  refine ⟨?_, ?_, ⟨[], by simp [h.sent], ?_⟩, by simp [h.currentWriter], fun x hx => ?_,
    fun hd => absurd rfl hd⟩
  · simp [h.log, h.requestQueue, outgoing, accepted]
  · simp [h.log, sentOut]
  · simp [unwritten, h.currentWriter]
  · rw [h.senderHandler] at hx; cases hx

theorem spoken (h : (service lib).Reachable s) :
    ∃ ready current drained, Spoken lib s ready current drained :=
  (invariant_of_moves (P := fun s => Records lib s ∧ ∃ ready current drained,
      Spoken lib s ready current drained)
    (fun _ h0 => ⟨h0.records, _, _, _, h0.spoken⟩)
    (fun _ _ hi hp hst => ⟨hp.1.step hi hst, by
      obtain ⟨hr, ready, current, drained, hs⟩ := hp
      exact hs.step hi hr hst⟩) h).2

/-! ## Signatures -/

/-- Every HMACAUTH request was signed under the key of the connection. -/
def Signed (lib : Lib) (s : NonblockingPacketService) : Prop :=
  ∀ r ∈ accepted s.log, r.message.getAuthType = .hmacAuth →
    validateHmac lib r.message s.sender.hmacKey = true

theorem Signed.frame (h : Signed lib s) {new : List Event} (hlog : t.log = s.log ++ new)
    (hacc : accepted new = []) (hkey : t.sender.hmacKey = s.sender.hmacKey) : Signed lib t := by
  intro r hr
  rw [hlog, accepted_append, hacc, List.append_nil] at hr
  rw [hkey]
  exact h r hr

theorem Signed.read (h : Signed lib s) (r : NonblockingPacketReader) :
    Signed lib (NonblockingReceiver.readResponse lib r s).2 := by
  have hf := readResponse_frame lib r s
  obtain ⟨h1, h2⟩ := readResponse_log lib r s
  by_cases hd : (NonblockingReceiver.readResponse lib r s).1 = .done
  · exact h.frame (h1 hd) rfl (by rw [hf.sender])
  · exact h.frame (show _ = s.log ++ [] by rw [h2 hd]; simp) rfl (by rw [hf.sender])

theorem Signed.step (h : Signed lib s) (hst : Step lib s t) : Signed lib t := by
  cases hst with
  | accept m c v _ _ =>
    intro r hr hm
    obtain ⟨r', he, -, -, -, -, hauth⟩ := enqueue_spec lib m c v s.handlers s.nextKey s.count
    rw [he] at hr ⊢
    dsimp only at hr
    rw [accepted_append, List.mem_append] at hr
    rcases hr with hr | hr
    · exact h r hr hm
    · obtain rfl := List.mem_singleton.1 hr
      obtain ⟨r', hq, -, -, -, hv⟩ := enqueue_signs lib m c v s.handlers s.nextKey s.count
        (hauth ▸ hm)
      rw [he, List.append_cancel_left_eq, List.cons.injEq] at hq
      exact hq.1 ▸ hv
  | environment _ _ _ => exact h
  | refuse _ =>
    have hlog : ((s.count.emit (.refused s.handlers s.nextKey)).emit
        (.completed (.error s.handlers alreadyShutDown none))).log = s.log ++
          [.refused s.handlers s.nextKey, .completed (.error s.handlers alreadyShutDown none)] := by
      simp [count]
    exact h.frame hlog rfl rfl
  | start _ _ _ _ => exact h
  | write _ _ _ => exact h
  | letGo _ => exact h
  | bookkeeping _ _ => exact h
  | @read s' r st hrd _ =>
    have := h.read r
    rwa [hrd] at this
  | @deliver s' r command ack x key hrd _ _ _ _ =>
    have := h.read r
    rw [hrd] at this
    obtain ⟨v, hv⟩ := answered_eq ack x key (NonblockingReceiver.noteCommand command s')
    rw [hv]
    exact this.frame rfl rfl rfl
  | @drop s' r _ _ hrd _ _ _ =>
    have := h.read r
    rw [hrd] at this
    exact this
  | @reject s' r _ _ _ hrd =>
    have := h.read r
    rw [hrd] at this
    exact this.frame rfl rfl rfl
  | clear _ => exact h
  | cleanUp => exact h
  | _ => exact h.frame rfl rfl rfl

theorem signed_requests (h : (service lib).Reachable s) : Signed lib s :=
  invariant_of_moves (fun s h0 => by intro r hr; simp [h0.log, accepted] at hr)
    (fun _ _ _ hp hst => hp.step hst) h

/-! ## The device -/

/-- A device makes a Command and a value of a packet: the message parses, carries
its own MAC if it says so, and its Command parses. -/
def hearPacket (lib : Lib) (hmacKey : Bytes) (p : Bytes × Bytes) : Option (Command × Bytes) :=
  match lib.parseMessage p.1 with
  | (false, _) => none
  | (true, m) =>
    if m.getAuthType = .hmacAuth ∧ validateHmac lib m hmacKey = false then none
    else
      match lib.parseCommand m.getCommandBytes with
      | (false, _) => none
      | (true, c) => some (c, p.2)

/-- What it makes of the bytes it has got; `none` for a packet it rejects. -/
def hear (lib : Lib) (hmacKey : Bytes) (b : Bytes) : List (Option (Command × Bytes)) :=
  (decode unframe b).1.map (hearPacket lib hmacKey)

/-- The lengths of the request fit into the header, and the codec gives back the
Message and the Command it is given. -/
structure Request.Legible (lib : Lib) (r : Request) : Prop where
  fits : Fits (r.parts lib)
  message : lib.parseMessage (lib.serializeMessage r.message) = (true, r.message)
  command : lib.parseCommand (lib.serializeCommand r.command) = (true, r.command)

theorem Request.Legible.heard {r : Request} (h : r.Legible lib) {hmacKey : Bytes}
    (hbytes : r.message.getCommandBytes = lib.serializeCommand r.command)
    (hsigned : r.message.getAuthType = .hmacAuth → validateHmac lib r.message hmacKey = true) :
    hearPacket lib hmacKey (r.parts lib) = some (r.command, r.value) := by
  unfold hearPacket Request.parts
  dsimp only
  rw [h.message]
  dsimp only
  rw [if_neg, hbytes, h.command]
  rintro ⟨ha, hv⟩
  rw [hsigned ha] at hv
  cases hv

/-- The packets on the wire: those written, and perhaps the whole of the one under
way, if the service has failed. -/
theorem Spoken.decoded {ready drained : List Request} {current : Option Request}
    (h : Spoken lib s ready current drained) (hfits : ∀ r ∈ outgoing s.log, Fits (r.parts lib)) :
    ∃ last, last <+: current.toList ∧
      (decode unframe s.socket.sent).1 = (ready ++ last).map (Request.parts lib) ∧
      (unwritten lib s ≠ [] → last = []) := by
  obtain ⟨out, hsent, hout⟩ := h.bytes
  have hwords : ∀ {rs : List Request}, (∀ r ∈ rs, r ∈ outgoing s.log) →
      ∀ p ∈ rs.map (Request.parts lib), Fits p := by
    intro rs hrs p hp
    obtain ⟨r, hr, rfl⟩ := List.mem_map.1 hp
    exact hfits r (hrs r hr)
  have hflat : ∀ rs : List Request, rs.flatMap (Request.packet lib) =
      (rs.map (Request.parts lib)).flatMap fun p => L1.frame p.1 p.2 := by
    intro rs
    rw [List.flatMap_map]
    rfl
  have hready : ∀ r ∈ ready, r ∈ outgoing s.log := fun r hr => by
    rw [h.order]
    exact List.mem_append_left _ hr
  cases current with
  | none =>
    obtain rfl : out = [] := by
      simp only [Option.toList_none, List.flatMap_nil, List.append_eq_nil_iff] at hout
      exact hout.1
    refine ⟨[], List.prefix_refl _, ?_, fun _ => rfl⟩
    rw [hsent, hflat, packets_delimited.decode_words (hwords hready) packets_delimited.split_nil,
      List.append_nil]
  | some r =>
    have hr : r ∈ outgoing s.log := by
      rw [h.order]
      simp
    have hpkt : out ++ unwritten lib s = L1.frame (r.parts lib).1 (r.parts lib).2 := by
      simpa [Request.packet, encode, Request.parts] using hout
    by_cases hu : unwritten lib s = []
    · refine ⟨[r], List.prefix_refl _, ?_, fun hne => absurd hu hne⟩
      rw [hu, List.append_nil] at hpkt
      have hall := packets_delimited.decode_words
        (hwords (fun x hx => ?_ : ∀ x ∈ ready ++ [r], _)) packets_delimited.split_nil
      · rw [List.append_nil, ← hflat, List.flatMap_append, List.flatMap_singleton] at hall
        rw [hsent, hpkt]
        exact congrArg Prod.fst hall
      · rcases List.mem_append.1 hx with hx | hx
        · exact hready x hx
        · rw [List.mem_singleton.1 hx]; exact hr
    · refine ⟨[], List.nil_prefix, ?_, fun _ => rfl⟩
      have hnone := packets_delimited.split_beginning (a := r.parts lib) (hfits r hr) ⟨_, hpkt⟩
        fun he => hu (List.append_right_eq_self.1 (hpkt.trans he.symm))
      rw [hsent, hflat, packets_delimited.decode_words (hwords hready) hnone, List.append_nil]

/-- **A device hears the requests that have been written**, in the order of their
submission and none of those removed in time: each authentic, its Command as it
was submitted, under a higher sequence number than the one before. On a live
connection what it may answer is what it has heard. -/
theorem device_hears (h : (service lib).Reachable s) (hl : ∀ r ∈ accepted s.log, r.Legible lib) :
    ∃ heard, heard <+: outgoing s.log ∧
      hear lib s.sender.hmacKey s.socket.sent = heard.map (fun r => some (r.command, r.value)) ∧
      heard.Pairwise (fun r r' => r.command.getSequence < r'.command.getSequence) ∧
      sentOut s.log <+: heard.map (·.handler) ∧ heard.length ≤ (sentOut s.log).length + 1 ∧
      (s.failed = false → heard.map (·.handler) = sentOut s.log ∧
        ∀ q, Answerable s.log q ↔ ∃ c v, some (c, v) ∈ hear lib s.sender.hmacKey s.socket.sent ∧
          q = some c.getSequence) := by
  obtain ⟨ready, current, drained, hsp⟩ := spoken h
  have hrec := records h
  have hout : ∀ r ∈ outgoing s.log, r ∈ accepted s.log := fun r hr =>
    (outgoing_sublist s.log).subset hr
  obtain ⟨last, hlast, hdec, hwhole⟩ := hsp.decoded fun r hr => (hl r (hout r hr)).fits
  have hpre : ready ++ last <+: outgoing s.log := by
    obtain ⟨more, hmore⟩ := hlast
    rw [hsp.order, ← hmore, List.append_assoc, ← List.append_assoc ready]
    exact List.prefix_append _ _
  have hmem : ∀ r ∈ ready ++ last, r ∈ accepted s.log := fun r hr => hout r (hpre.subset hr)
  have hhear : hear lib s.sender.hmacKey s.socket.sent =
      (ready ++ last).map fun r => some (r.command, r.value) := by
    rw [hear, hdec, List.map_map]
    refine List.map_congr_left fun r hr => ?_
    exact (hl r (hmem r hr)).heard (hrec.carries r (hmem r hr))
      (signed_requests h r (hmem r hr))
  refine ⟨ready ++ last, hpre, hhear, ?_, ?_, ?_, fun hf => ?_⟩
  · refine (hrec.sorted.sublist (hpre.sublist.trans (outgoing_sublist s.log))).imp_of_mem
      fun {r r'} hr hr' hlt => ?_
    rw [(hrec.numbered r (hmem r hr)).sequence, (hrec.numbered r' (hmem r' hr')).sequence]
    exact_mod_cast hlt
  · rw [hsp.written, List.map_append]
    exact List.prefix_append _ _
  · have : last.length ≤ 1 := Nat.le_trans hlast.length_le (by cases current <;> simp)
    rw [hsp.written, List.length_append, List.length_map]
    omega
  · -- on a live connection the packet under way is not whole
    have hnil : last = [] := by
      cases hc : current with
      | none =>
        rw [hc] at hlast
        exact List.prefix_nil.1 hlast
      | some r =>
        refine hwhole fun hu => ?_
        obtain ⟨w, hw⟩ := Option.ne_none_iff_exists'.1
          (fun hw => by simpa [hc] using hsp.writer.2 hw : s.sender.currentWriter ≠ none)
        rw [unwritten, hw] at hu
        exact midway h hf w hw (List.append_eq_nil_iff.1 hu).1
    rw [hnil, List.append_nil] at hhear hmem ⊢
    refine ⟨hsp.written.symm, fun q => ⟨?_, ?_⟩⟩
    · rintro ⟨r, hr, hs, rfl⟩
      rw [hsp.written] at hs
      obtain ⟨r', hr', hrr⟩ := List.mem_map.1 hs
      refine ⟨r'.command, r'.value, by rw [hhear]; exact List.mem_map.2 ⟨r', hr', rfl⟩, ?_⟩
      rw [(hrec.numbered r hr).sequence, (hrec.numbered r' (hmem r' hr')).sequence, hrr]
    · rintro ⟨c, v, hc, rfl⟩
      rw [hhear] at hc
      obtain ⟨r, hr, hrc⟩ := List.mem_map.1 hc
      obtain ⟨rfl, -⟩ := Prod.mk.inj (Option.some.inj hrc)
      refine ⟨r, hmem r hr, ?_, rfl⟩
      rw [hsp.written]
      exact List.mem_map.2 ⟨r, hr, rfl⟩

/-- Of three authenticated requests the second is removed, and the others are written. -/
def removedOne : NonblockingPacketService :=
  play macs (create 5 1 [107, 101, 121] 0) [.submit [] { authType := some .hmacAuth } {} [],
    .submit [] { authType := some .hmacAuth } {} [], .submit [] { authType := some .hmacAuth } {} [],
    .remove 1,
    .run { writes := [.count 1, .count 4, .count 4, .count 20, .count 16, .count 1, .again] }
      ⟨[], [], 0⟩,
    .run { writes := [.count 2, .count 2, .intr, .count 4, .count 36] } ⟨[], [], 0⟩]

theorem removedOne_accepted : ∃ r r' r'', accepted removedOne.log = [r, r', r''] ∧
    r.Legible macs ∧ r'.Legible macs ∧ r''.Legible macs :=
  ⟨_, _, _, rfl, ⟨by decide +kernel, by decide +kernel, rfl⟩,
    ⟨by decide +kernel, by decide +kernel, rfl⟩, ⟨by decide +kernel, by decide +kernel, rfl⟩⟩

/-- Two of three authenticated requests are heard, as numbers 0 and 2. -/
theorem device_hears_removedOne :
    (hear macs [107, 101, 121] removedOne.socket.sent).map (Option.map fun p => p.1.getSequence) =
      [some 0, some 2] ∧
    ∃ heard, heard <+: outgoing removedOne.log ∧ heard.map (·.handler) = [0, 2] ∧
      hear macs removedOne.sender.hmacKey removedOne.socket.sent =
        heard.map fun r => some (r.command, r.value) := by
  refine ⟨by decide +kernel, ?_⟩
  obtain ⟨r, r', r'', hr, hl, hl', hl''⟩ := removedOne_accepted
  have hreach : (service macs).Reachable removedOne := reachable_session _ (by decide +kernel)
  obtain ⟨heard, hpre, hhear, -, -, -, hlive⟩ := device_hears hreach fun x hx => by
    rw [hr] at hx
    simp only [List.mem_cons, List.not_mem_nil, or_false] at hx
    rcases hx with rfl | rfl | rfl
    · exact hl
    · exact hl'
    · exact hl''
  refine ⟨heard, hpre, ?_, hhear⟩
  rw [(hlive (by decide +kernel)).1]
  decide +kernel

end Kinetic.L2
