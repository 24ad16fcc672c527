import Kinetic.L2Service.Matching

/-!
# No response is lost or crossed

The runs of `network`: the device's packets are received in order, none is left
out, and the calls that carry a response are those due for the packets received
(`responses_matched`). The invariant is `Matched`: it is carried over `Submit` and
`Remove` by their frames and over `Run` by `receiveLoop_hears`.
-/
open Kinetic.Core

namespace Kinetic.L2

open L1 NonblockingPacketService

variable {lib : Lib} {s t u : NonblockingPacketService} {net net' : Net} {n : Nat}

/-! ## Runs -/

/-- The first `n` packets of the device have been received. -/
structure Matched (lib : Lib) (net : Net) (n : Nat) : Prop where
  heard : Heard lib net.packets net.service.log n
  awaiting : Awaiting net.service
  honest : Honest lib net.service.receiver.hmacKey net.packets net.service.log
  accounted : net.service.failed = false →
    stream (net.packets.take n) ++ (taken net.service ++ net.service.socket.incoming) = net.arrived
  sent : net.arrived <+: stream net.packets

theorem Connected.matched (h : Connected net) : Matched lib net 0 := by
  obtain ⟨hf, hin, hp, ha⟩ := h
  refine ⟨⟨Nat.zero_le _, ?_, ?_, ?_, ?_⟩, hf.awaiting, ⟨?_, ?_, ?_⟩, fun _ => ?_, ?_⟩
  all_goals
    simp [hp, hf.log, hin, ha, taken, hf.nonblockingResponse, stream, receivedPackets, delivered,
      completions, expected, expectedFrom]

theorem Matched.moves (h : Matched lib net n) (hi : Inv net.service) (hm : Moves lib net.service t) :
    Matched lib { net with service := t } n := by
  obtain ⟨new, hlog, hcalm⟩ := hm.frame.log
  refine ⟨?_, ?_, ?_, fun hf => ?_, h.sent⟩
  all_goals dsimp only
  · rw [hlog]; exact h.heard.append fun e he => .inl (hcalm e he)
  · exact Steps.carry (P := Awaiting) (fun _ _ hi hp hst => Awaiting.step hi hp hst) hm.steps hi
      h.awaiting
  · rw [hlog, hm.frame.receiver]; exact h.honest.mono
  · rw [taken, hm.frame.receiver, hm.frame.socket]
    exact h.accounted (by rw [← hm.frame.failed]; exact hf)

theorem Heard.more {ps qs : List Packet} {log : List Event} (h : Heard lib ps log n)
    (hp : ps <+: qs) : Heard lib qs log n := by
  obtain ⟨more, rfl⟩ := hp
  refine ⟨?_, ?_, h.expected, h.earlier, h.unfailed⟩
  · rw [List.length_append]; exact Nat.le_add_right_of_le h.le
  · rw [h.received, List.take_append_of_le_length h.le]

/-- What `Run` leaves behind: the transport is drained, or nobody waits. -/
def Drained (s : NonblockingPacketService) : Prop :=
  s.failed = false → s.receiver.map = ∅ ∨ s.socket.incoming = []

theorem Matched.listening (hst : Steady lib net.service) (hrec : Records lib net.service)
    (h : Matched lib net n) (hf : net.service.failed = false) {io : Io} {fds : FdSets}
    (hb : Brings lib net net' (.run io fds)) :
    let v := (NonblockingSender.send lib (net.service.supply io)).2
    Listening lib net'.packets net'.arrived v n ∧
      (Socket.Eager io.reads (stream net'.packets).length → Willing net'.packets v n) := by
  obtain ⟨hp, harr, hpre, hfrag, hhon⟩ := hb
  obtain ⟨hsup, hst'⟩ := supply_steady io hst
  obtain ⟨a, b, -, hrd, -⟩ := sendReceive_moves hst' hf
  have hs : (net.service.supply io).failed = false := hf
  rw [sentLog, if_neg (by rw [hs]; simp)] at hhon
  have htaken : taken (NonblockingSender.send lib (net.service.supply io)).2 = taken net.service := by
    rw [taken, b.receiver]; rfl
  have hkey : (NonblockingSender.send lib (net.service.supply io)).2.receiver.hmacKey =
      net.service.receiver.hmacKey := by rw [b.receiver]; rfl
  obtain ⟨new, hlog, hcalm⟩ := b.log
  obtain ⟨more, hmore⟩ := hp
  refine ⟨⟨a.inv, a.quiet, hrd, ?_, ?_, ?_, ?_, ?_, ?_, hpre⟩,
    fun he => ⟨(stream net'.packets).length, ?_, ?_⟩⟩
  · exact Steps.carry (P := Awaiting) (fun _ _ hi hp hst => Awaiting.step hi hp hst)
      (hsup.trans a.steps) hst.inv h.awaiting
  · exact Steps.carry (P := Records lib) (fun _ _ hi hp hst => Records.step hi hp hst)
      (hsup.trans a.steps) hst.inv hrec
  · rw [hkey]; exact hhon
  · rw [hlog]
    exact (h.heard.more ⟨more, hmore⟩).append hcalm
  · rw [Socket.ReadsFragment, b.reads]; exact hfrag
  · rw [htaken, b.incoming, harr, ← h.accounted hf, ← hmore,
      List.take_append_of_le_length h.heard.le]
    simp only [supply, List.append_assoc]
  · rw [b.reads]; exact he
  · have := congrArg List.length (stream_append (net'.packets.take n) (net'.packets.drop n))
    rw [List.take_append_drop, List.length_append] at this
    omega

/-- **Run**: further packets are received, and none that has arrived is left if
the transport hands over what it has and somebody waits. -/
theorem Matched.run (hst : Steady lib net.service) (hrec : Records lib net.service)
    (h : Matched lib net n) {io : Io} {fds : FdSets} (hb : Brings lib net net' (.run io fds))
    (hs : net'.service = ((net.service.supply io).run lib fds).2.2) :
    (∃ n', Matched lib net' n') ∧
      (Socket.Eager io.reads (stream net'.packets).length → Drained net'.service) := by
  have hsup := (supply_steady io hst).2
  obtain ⟨service, packets, arrived⟩ := net'
  dsimp only at hs
  subst hs
  cases hf : net.service.failed with
  | true =>
    -- a failed service does nothing
    have hf' : (net.service.supply io).failed = true := hf
    obtain ⟨hp, -, hpre, -, hhon⟩ := hb
    rw [sentLog, if_pos hf'] at hhon
    simp only [NonblockingPacketService.run, hf', if_true]
    exact ⟨⟨n, h.heard.more hp, h.awaiting.still (l := []) (by simp [supply]) rfl rfl rfl, hhon,
      fun hf => absurd (hf'.symm.trans hf) (by simp), hpre⟩,
      fun _ hf => absurd (hf'.symm.trans hf) (by simp)⟩
  | false =>
    obtain ⟨hl, hw⟩ := h.listening hst hrec hf hb
    obtain ⟨⟨n', hn⟩, hne, hdry⟩ := receiveLoop_hears _ hl (Nat.lt_succ_self _)
    obtain ⟨-, -, -, -, -, -, hends⟩ := sendReceive_moves hsup hf
    rcases run_cases (s := net.service.supply io) hf fds with
      ⟨-, he⟩ | ⟨-, he, -⟩ | ⟨-, -, he⟩
    · rw [he]
      refine ⟨⟨n, ?_⟩, fun _ hf' => by cases hf'⟩
      exact ⟨hl.heard, hl.awaiting.still (l := []) (by simp [cleanUp]) rfl rfl rfl, hl.honest,
        fun hf' => (by cases hf'), hl.sent⟩
    · exact absurd he hne
    · rw [he]
      refine ⟨⟨n', hn.heard, hn.awaiting, hn.honest, fun _ => hn.accounted, hn.sent⟩,
        fun heag _ => ?_⟩
      cases hrt : (NonblockingReceiver.receive lib
        (NonblockingSender.send lib (net.service.supply io)).2).1 with
      | idle => exact .inl (hends.idle hrt).1
      | ioWait => exact .inr (hdry (hw heag) hrt)
      | error => exact absurd hrt hne

/-- **One operation**, of the caller and of the device. -/
theorem Matched.step (hst : Steady lib net.service) (hrec : Records lib net.service)
    (h : Matched lib net n) {op : Op} (hstep : (network lib).step net op net') :
    ∃ n', Matched lib net' n' := by
  obtain ⟨hd, hs, hb⟩ := hstep
  cases op with
  | submit scripts m c v =>
    obtain ⟨service, packets, arrived⟩ := net'
    obtain ⟨rfl, rfl⟩ := hb
    obtain rfl := hs
    obtain ⟨h1, h2⟩ := scripts_steady scripts hst
    have h' : Matched lib { net with service := { net.service with scripts } } n :=
      ⟨h.heard, h.awaiting.still (l := []) (by simp) rfl rfl rfl, h.honest, h.accounted, h.sent⟩
    exact ⟨n, h'.moves h2.inv
      (submit_moves (fun c s hc => complete_moves lib c hc) h2.inv m c v hd)⟩
  | remove key =>
    obtain ⟨service, packets, arrived⟩ := net'
    obtain ⟨rfl, rfl⟩ := hb
    obtain rfl := hs
    exact ⟨n, h.moves hst.inv (remove_moves lib hst.inv key)⟩
  | run io fds => exact (h.run hst hrec hb hs).1

theorem matched (h : (network lib).Reachable net) : ∃ n, Matched lib net n := by
  refine (LTS.Inductive.reachable (M := network lib)
    (P := fun net => (service lib).Reachable net.service ∧ ∃ n, Matched lib net n)
    ⟨fun _ h0 => ⟨⟨_, [], h0.fresh, .nil _⟩, 0, h0.matched⟩, ?_⟩ net h).2
  rintro net op net' ⟨hr, n, hn⟩ hst
  exact ⟨hr.step (l := op) ⟨hst.1, hst.2.1⟩, hn.step (steady hr) (records hr) hst⟩

/-! ## What the runs show -/

/-- While a packet is the latest, the responses handed out are those due for it. -/
theorem Heard.between {ps : List Packet} {log pre mid post : List Event} {m : Message}
    {v : Option Bytes} (h : Heard lib ps log n) (hl : log = pre ++ .received m v :: (mid ++ post))
    (hmid : receivedPackets mid = [])
    (hpost : post = [] ∨ ∃ m' v' post', post = .received m' v' :: post') :
    delivered mid = due lib pre m v := by
  have hpre : delivered pre = L2.expected lib pre := (h.earlier pre m v _ hl).1
  have hall : delivered (pre ++ [.received m v] ++ mid) =
      L2.expected lib (pre ++ [.received m v] ++ mid) := by
    rcases hpost with rfl | ⟨m', v', post', rfl⟩
    · have := h.expected
      rw [hl] at this
      simpa using this
    · exact (h.earlier (pre ++ [.received m v] ++ mid) m' v' post' (by rw [hl]; simp)).1
  rw [expected_silent hmid, expected_received, ← hpre, delivered_append, delivered_append,
    show delivered [Event.received m v] = [] from rfl, List.append_nil] at hall
  exact List.append_cancel_left hall

theorem due_eq {log : List Event} {m : Message} (v : Option Bytes) {r : Request}
    (hn : ∀ r ∈ accepted log, r.command.getSequence = r.handler) (hr : r ∈ accepted log)
    (hu : m.getAuthType ≠ .unsolicitedStatus)
    (hack : (lib.parseCommand m.getCommandBytes).2.getHeader.ackSequence =
      some r.command.getSequence) :
    due lib log m v = if r.handler ∈ withdrawn log then []
      else [response r.handler (lib.parseCommand m.getCommandBytes).2 v] := by
  unfold due
  dsimp only
  rw [if_neg hu]
  split
  · rename_i hnone
    have := List.find?_eq_none.1 hnone r hr
    simp [hack] at this
  · rename_i r' hsome
    have hr' := List.mem_of_find?_eq_some hsome
    have hseq := List.find?_some hsome
    rw [hack, beq_iff_eq, Option.some.injEq, hn r hr, hn r' hr', Int.natCast_inj] at hseq
    rw [hseq]

theorem called_alone {l : List Completion} {c : Completion} (hc : c ∈ l)
    (h : (l.map Completion.handler).count c.handler ≤ 1) :
    l.filter (·.handler = c.handler) = [c] := by
  have hmem : c ∈ l.filter (·.handler = c.handler) := List.mem_filter.2 ⟨hc, by simp⟩
  rw [List.count, List.countP_map, List.countP_eq_length_filter] at h
  have hle : (l.filter (·.handler = c.handler)).length ≤ 1 := by
    refine Nat.le_trans (Nat.le_of_eq (congrArg List.length (List.filter_congr fun x _ => ?_))) h
    rw [Function.comp_apply, beq_eq_decide]
  generalize l.filter (·.handler = c.handler) = l' at hmem hle
  match l' with
  | [] => cases hmem
  | [x] => rw [List.mem_singleton.1 hmem]
  | _ :: _ :: _ => simp at hle

/-- **A response** calls the handler of its request and no other, once; if the
handler had been removed, it is not called at all. -/
theorem Matched.answers (hst : Steady lib net.service) (hrec : Records lib net.service)
    (h : Matched lib net n) {pre post : List Event} {m : Message} {v : Option Bytes}
    (hl : net.service.log = pre ++ .received m v :: post)
    (hu : m.getAuthType ≠ .unsolicitedStatus) :
    ∃ r ∈ accepted pre, r.handler ∈ sentOut pre ∧
      r.message.getCommandBytes = lib.serializeCommand r.command ∧
      (lib.parseCommand m.getCommandBytes).2.getHeader.ackSequence = some r.command.getSequence ∧
      (r.handler ∈ withdrawn pre → r.handler ∉ settled net.service.log) ∧
      (r.handler ∉ withdrawn pre → (completions net.service.log).filter (·.handler = r.handler) =
        [response r.handler (lib.parseCommand m.getCommandBytes).2 v]) := by
  obtain ⟨r, hr, hsent, hack⟩ := ((h.heard.earlier pre m v post hl).2).resolve_left hu
  have hsub : ∀ r ∈ accepted pre, r ∈ accepted net.service.log := fun r hr => by
    rw [hl, accepted_append]; exact List.mem_append_left _ hr
  have hdue := due_eq v (fun r hr => (hrec.numbered r (hsub r hr)).sequence) hr hu hack
  refine ⟨r, hr, hsent, hrec.carries r (hsub r hr), hack, fun hw hs => ?_, fun hw => ?_⟩
  · refine hst.inv.ledger.not_both hs ?_
    rw [hl, withdrawn_append]; exact List.mem_append_left _ hw
  · -- the response has been handed out, and the handler is called only once
    rw [if_neg hw] at hdue
    have hc : response r.handler (lib.parseCommand m.getCommandBytes).2 v ∈
        completions net.service.log := by
      have : response r.handler (lib.parseCommand m.getCommandBytes).2 v ∈
          delivered net.service.log := by
        rw [h.heard.expected, hl, expected, expectedFrom_append]
        simp [expectedFrom, hdue]
      exact List.mem_of_mem_filter this
    have hh : (response r.handler (lib.parseCommand m.getCommandBytes).2 v).handler = r.handler := by
      unfold response
      split <;> rfl
    have := called_alone hc (hst.inv.ledger.settled_once _)
    rwa [hh] at this

/-- Every packet that has wholly arrived has been received, if no byte waits. -/
theorem Matched.whole (hst : Steady lib net.service) (h : Matched lib net n)
    (hf : net.service.failed = false) (hin : net.service.socket.incoming = []) {m : Nat}
    (hm : m ≤ net.packets.length) (harr : stream (net.packets.take m) <+: net.arrived) : m ≤ n := by
  by_contra hlt
  have hn : n < net.packets.length := by omega
  obtain ⟨p, hp⟩ : ∃ p, net.packets[n]? = some p := ⟨_, List.getElem?_eq_getElem hn⟩
  have hwf := h.honest.wellFormed p (List.mem_of_getElem? hp)
  have hacc := h.accounted hf
  rw [hin, List.append_nil] at hacc
  -- the reader holds less than the next packet
  have htaken : (taken net.service).length < p.encoded.length := by
    unfold taken
    split
    · rw [Packet.encoded, frame_length, List.length_nil]
      omega
    · rename_i r hr
      have hpend := hst.reading hf r hr
      obtain ⟨later, hlater⟩ := h.sent
      have hstr : r.consumed ++ later = p.encoded ++ stream (net.packets.drop (n + 1)) := by
        rw [← stream_drop hp]
        rw [← hacc, taken, hr, List.append_assoc] at hlater
        refine List.append_cancel_left (hlater.trans ?_)
        rw [← stream_append, List.take_append_drop]
      have hfits := hpend.ok.fits hpend.unfinished hwf.length hwf.valueLength hstr
      have hshort := hpend.short
      unfold Packet.encoded
      dsimp only at hfits hshort
      omega
  -- but the arrived bytes have it
  have hle := harr.length_le
  rw [← hacc, List.length_append] at hle
  have htake : net.packets.take m = net.packets.take n ++ ((net.packets.drop n).take (m - n)) := by
    rw [← List.take_add]; congr 1; omega
  obtain ⟨k, hk⟩ : ∃ k, m - n = k + 1 := ⟨m - n - 1, by omega⟩
  obtain ⟨hlt', rfl⟩ := List.getElem?_eq_some_iff.1 hp
  rw [htake, stream_append, List.length_append, List.drop_eq_getElem_cons hn, hk,
    List.take_succ_cons, show stream (_ :: _) = Packet.encoded _ ++ stream _ from rfl,
    List.length_append] at hle
  omega

/-- `t` is `s` without the handler of `key`: whoever else waits still does, in
the same place. -/
structure Without (key : Nat) (s t : NonblockingPacketService) : Prop where
  socket : t.socket = s.socket
  failed : t.failed = s.failed
  sender : t.sender = { s.sender with requestQueue := t.sender.requestQueue }
  queue : t.sender.requestQueue.Sublist s.sender.requestQueue
  queued : ∀ r ∈ s.sender.requestQueue, r.handlerKey ≠ key → r ∈ t.sender.requestQueue
  receiver : t.receiver = { s.receiver with
    map := t.receiver.map, handlerToMessageSeqMap := t.receiver.handlerToMessageSeqMap }
  awaiting : ∀ seq x k, k ≠ key →
    (t.receiver.map.find seq = some (x, k) ↔ s.receiver.map.find seq = some (x, k))
  log : ∃ new, t.log = s.log ++ new ∧ ∀ e ∈ new, ∃ q, e = .removed key key q

theorem remove_spares (h : Inv s) (key : Nat) : Without key s (s.remove key).2 := by
  have hrem := removal key s
  generalize s.remove key = out at hrem ⊢
  cases hrem with
  | @queued r hr =>
    have hmem := List.mem_of_find?_eq_some hr
    have hkey := List.find?_some hr
    rw [beq_iff_eq, (h.queue r hmem).key] at hkey
    refine ⟨rfl, rfl, rfl, List.eraseP_sublist, fun r' hr' hne => ?_, rfl, fun _ _ _ _ => Iff.rfl,
      [_], rfl, fun e he => ⟨true, ?_⟩⟩
    · exact (List.mem_eraseP_of_neg (by simpa using hne)).2 hr'
    · rw [List.mem_singleton.1 he, hkey]
  | unknown _ _ =>
    exact ⟨rfl, rfl, rfl, List.Sublist.refl _, fun _ hr _ => hr, rfl, fun _ _ _ _ => Iff.rfl, [],
      by simp, by simp⟩
  | broken hb hn =>
    obtain ⟨x, hm⟩ := h.back key _ hb
    exact absurd hm (hn x)
  | @awaiting seq x _ hb hm =>
    have hkey := (h.map _ _ _ hm).2.1
    refine ⟨rfl, rfl, rfl, List.Sublist.refl _, fun _ hr _ => hr, rfl, fun q y k hne => ?_, [_],
      rfl, fun e he => ⟨false, ?_⟩⟩
    · dsimp only
      rw [Dict.find_erase]
      split
      · rename_i hq
        rw [hq, hm]
        simp only [reduceCtorEq, Option.some.injEq, Prod.mk.injEq, false_iff, not_and]
        exact fun _ hk => hne hk.symm
      · exact Iff.rfl
    · rw [List.mem_singleton.1 he, hkey]

/-- **No response is lost or crossed.** On a connection to an honest device the
packets are received in order and every byte of them is accounted for; between
one packet and the next the responses handed out are those due for the first, so
none for an unsolicited status, and there are no others; a response calls the
handler whose Command went out with its acksequence, with its own Command and
value, and nobody else calls that handler, unless it was removed; a `Run` whose
transport hands over what it has leaves no packet unread while somebody waits;
and a removal at any moment spares everybody else. -/
theorem responses_matched (h : (network lib).Reachable net) :
    (∃ n, receivedPackets net.service.log =
        (net.packets.take n).map (fun p => (p.message lib, some p.value)) ∧
      (net.service.failed = false → stream (net.packets.take n) ++
        (taken net.service ++ net.service.socket.incoming) = net.arrived)) ∧
    delivered net.service.log = expected lib net.service.log ∧
    (∀ pre m v mid post, net.service.log = pre ++ .received m v :: (mid ++ post) →
      receivedPackets mid = [] → (post = [] ∨ ∃ m' v' post', post = .received m' v' :: post') →
      delivered mid = due lib pre m v) ∧
    (∀ pre m v post, net.service.log = pre ++ .received m v :: post →
      m.getAuthType ≠ .unsolicitedStatus →
      let c := (lib.parseCommand m.getCommandBytes).2
      ∃ r ∈ accepted pre, r.handler ∈ sentOut pre ∧
        r.message.getCommandBytes = lib.serializeCommand r.command ∧
        c.getHeader.ackSequence = some r.command.getSequence ∧
        (r.handler ∈ withdrawn pre → r.handler ∉ settled net.service.log) ∧
        (r.handler ∉ withdrawn pre →
          (completions net.service.log).filter (·.handler = r.handler) =
            [response r.handler c v])) ∧
    (∀ io fds net', (network lib).step net (.run io fds) net' →
      Socket.Eager io.reads (stream net'.packets).length → net'.service.failed = false →
      (∀ x ∈ sentOut net'.service.log,
        x ∈ settled net'.service.log ∨ x ∈ withdrawn net'.service.log) ∨
      ∀ m ≤ net'.packets.length, stream (net'.packets.take m) <+: net'.arrived →
        m ≤ (receivedPackets net'.service.log).length) ∧
    ∀ t, Steps lib net.service t → ∀ key, Without key t (t.remove key).2 := by
  have hr := network_service h
  have hst := steady hr
  obtain ⟨n, hn⟩ := matched h
  refine ⟨⟨n, hn.heard.received, hn.accounted⟩, hn.heard.expected,
    fun pre m v mid post hl hmid hpost => hn.heard.between hl hmid hpost,
    fun pre m v post hl hu => hn.answers hst (records hr) hl hu, fun io fds net' hstep heag hf => ?_,
    fun t ht key => remove_spares (hst.inv.steps ht) key⟩
  have hst' := steady (network_service (h.step hstep))
  obtain ⟨⟨n', hn'⟩, hdry⟩ := hn.run hst (records hr) hstep.2.2 hstep.2.1
  rcases hdry heag hf with hmap | hin
  · refine .inl fun x hx => ?_
    rcases hn'.awaiting.sent x hx with hs | hw | hm
    · exact .inl hs
    · exact .inr hw
    · rw [hmap] at hm; cases hm
  · refine .inr fun m hm harr => ?_
    rw [hn'.heard.received, List.length_map, List.length_take]
    have := hn'.whole hst' hf hin hm harr
    omega

/-! ## An exchange -/

def reply (authType : Option AuthType) (ack : Int) (code : ProtoStatusCode) (value : Bytes) : Packet where
  bytes := Codec.serializeMessage {
    authType
    commandBytes := some (Codec.serializeCommand {
      header := some { ackSequence := some ack }
      status := some { code := some code } }) }
  value

/-- The second of three requests is removed once all are written; the responses
come in another order, with an unsolicited status among them. -/
def asked : List Op :=
  [.submit [] {} {} [], .submit [] {} {} [], .submit [] {} {} [],
    .run { writes := List.replicate 24 (.count 100) } ⟨[], [], 0⟩, .remove 1]

def replies : List Packet :=
  [reply none 2 .success [7, 8], reply (some .unsolicitedStatus) 0 .success [],
    reply none 1 .success [], reply none 0 (.other 3) []]

def answering : Io where
  arrives := stream replies
  reads := List.replicate 24 (.count 9)

theorem reachable_silent {s : NonblockingPacketService} (ops : List Op)
    (h : (network lib).Reachable ⟨s, [], []⟩) (hl : Legal lib s ops)
    (hs : ∀ io fds, Op.run io fds ∈ ops → io.arrives = [] ∧ ∀ r ∈ io.reads, Socket.Fragment r) :
    (network lib).Reachable ⟨play lib s ops, [], []⟩ := by
  induction ops generalizing s with
  | nil => exact h
  | cons op ops ih =>
    refine ih (h.step (l := op) ⟨hl.1, rfl, ?_⟩) hl.2 fun io fds hm =>
      hs io fds (List.mem_cons_of_mem _ hm)
    cases op with
    | run io fds =>
      obtain ⟨ha, hr⟩ := hs io fds List.mem_cons_self
      exact ⟨List.prefix_refl _, by simp [ha], List.prefix_refl _, hr, by simp, by simp,
        List.Pairwise.nil⟩
    | _ => exact ⟨rfl, rfl⟩

theorem responses_matched_outOfOrder :
    let s := ((play Codec.plain (create 5 1 [] 0) asked).supply answering).run Codec.plain ⟨[], [], 0⟩
    (delivered s.2.2.log).map Completion.handler = [2, 0] ∧
    delivered s.2.2.log = expected Codec.plain s.2.2.log ∧
    ∀ key, Without key s.2.2 (s.2.2.remove key).2 := by
  intro s
  have h0 : (network Codec.plain).Reachable ⟨play Codec.plain (create 5 1 [] 0) asked, [], []⟩ :=
    reachable_silent asked ⟨_, [], ⟨create_fresh .., rfl, rfl, rfl⟩, .nil _⟩ (by decide +kernel)
      (by simp [asked])
  have h : (network Codec.plain).Reachable ⟨s.2.2, replies, stream replies⟩ :=
    h0.step (l := .run answering ⟨[], [], 0⟩) ⟨by decide +kernel, rfl, List.nil_prefix, rfl,
      List.prefix_refl _, by simp [answering, Socket.Fragment], by decide +kernel⟩
  exact ⟨by decide +kernel, (responses_matched h).2.1,
    fun key => (responses_matched h).2.2.2.2.2 s.2.2 .refl key⟩

end Kinetic.L2
