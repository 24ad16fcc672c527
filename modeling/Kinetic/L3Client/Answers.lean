import Kinetic.L2Service.Calls
import Kinetic.L3Client.Agreement

/-!
# What blocking operations return

On a connection to an honest device, whatever was pending on it before: an
operation that returns `OK` has been answered, by a packet that was received while
it waited and acknowledges its own request, and its out parameters are those of
that packet. A late response to an operation that had timed out is not mistaken for
that of a later one.

**Assumptions.** The device is honest (`Honest`), and does what it likes while an
operation waits. Other requests may be pending, and their callbacks do as they like.

**Results.**
* `mem_expected_due`, `answer_of_call`: a call with a response is one for a packet
  received after the operation began.
* `Performs.answered`: what one operation is told.
* `session_answered`: what the operations of a session are told, no two of them by
  the same packet.
-/
open Kinetic.Core

namespace Kinetic.L3

open L1 L2 NonblockingPacketService

variable {lib : Lib} {s t : NonblockingPacketService} {net net' : Net}

/-! ## The packet behind a call -/

theorem mem_expected_due {log : List Event} {c : Completion} (h : c ∈ expected lib log) :
    ∃ pre m v post, log = pre ++ .received m v :: post ∧ c ∈ due lib pre m v := by
  suffices hfrom : ∀ pre l, c ∈ expectedFrom lib pre l →
      ∃ mid m v post, l = mid ++ .received m v :: post ∧ c ∈ due lib (pre ++ mid) m v by
    obtain ⟨mid, m, v, post, hl, hc⟩ := hfrom [] log h
    exact ⟨mid, m, v, post, hl, hc⟩
  intro pre l
  induction l generalizing pre with
  | nil => intro h; cases h
  | cons e l ih =>
    intro h
    have hlater : c ∈ expectedFrom lib (pre ++ [e]) l →
        ∃ mid m v post, e :: l = mid ++ .received m v :: post ∧ c ∈ due lib (pre ++ mid) m v := by
      intro h
      obtain ⟨mid, m, v, post, rfl, hc⟩ := ih _ h
      exact ⟨e :: mid, m, v, post, rfl, by rw [List.append_assoc] at hc; exact hc⟩
    cases e with
    | received m v =>
      rw [expectedFrom, List.mem_append] at h
      rcases h with h | h
      · exact ⟨[], m, v, l, rfl, by rw [List.append_nil]; exact h⟩
      · exact hlater h
    | _ => exact hlater h

/-- It is the response to a request accepted before. -/
theorem mem_due {log : List Event} {m : Message} {v : Option Bytes} {c : Completion}
    (h : c ∈ due lib log m v) :
    m.getAuthType ≠ .unsolicitedStatus ∧ ∃ r ∈ accepted log,
      (lib.parseCommand m.getCommandBytes).2.getHeader.ackSequence = some r.command.getSequence ∧
      c = response r.handler (lib.parseCommand m.getCommandBytes).2 v := by
  unfold due at h
  dsimp only at h
  split at h
  · cases h
  rename_i hu
  split at h
  · cases h
  rename_i r hr
  split at h
  · cases h
  have hack := List.find?_some hr
  exact ⟨hu, r, List.mem_of_find?_eq_some hr, beq_iff_eq.1 hack, List.mem_singleton.1 h⟩

/-- A handler is that of one request. -/
theorem accepted_unique (hrec : Records lib s) {r r' : Request} (hr : r ∈ accepted s.log)
    (hr' : r' ∈ accepted s.log) (h : r.handler = r'.handler) : r = r' := by
  have hnodup : ((accepted s.log).map Request.handler).Nodup :=
    List.pairwise_map.2 (hrec.sorted.imp fun h => Nat.ne_of_lt h)
  exact List.inj_on_of_nodup_map hnodup hr hr' h

/-! ## The answer to an operation -/

/-- The `i`-th packet was received between the two states, and answers the request. -/
structure AnsweredBy (lib : Lib) (net net' : Net) (r : Request) (i : Nat) (p : Packet) : Prop where
  packet : net'.packets[i]? = some p
  after : (receivedPackets net.service.log).length ≤ i
  before : i < (receivedPackets net'.service.log).length
  solicited : ¬ p.Unsolicited lib
  acknowledges : p.ackSequence lib = some r.command.getSequence

/-- The status that a response stands for. -/
def statusOf (lib : Lib) (p : Packet) : KineticStatus :=
  if (p.command lib).getStatusCode = .success then ⟨.ok, "", 0⟩
  else getKineticStatus (convertFromProtoStatus (p.command lib).getStatusCode)
    (p.command lib).getClusterVersion

/-- The operation returns, and the device has done what it liked meanwhile. -/
structure Performs (lib : Lib) (net : Net) (op : Operation) (status : KineticStatus) (net' : Net) :
    Prop where
  defined : op.Defined lib net.service
  run : ∃ ops, (network lib).Run net ops net'
  returns : op.perform lib net.service = (some status, net'.service)

/-- A call made with a response on behalf of the operation's handler. -/
theorem answer_of_call (h : (network lib).Reachable net) (h' : (network lib).Reachable net')
    {new : List Event} (hlog : net'.service.log = net.service.log ++ new) {c : Completion}
    (hc : c ∈ delivered net'.service.log) (hh : c.handler = net.service.handlers) :
    ∃ r ∈ accepted net'.service.log, r.handler = net.service.handlers ∧ ∃ i p,
      AnsweredBy lib net net' r i p ∧ c = response r.handler (p.command lib) (some p.value) := by
  have hs := steady (network_service h)
  obtain ⟨n, hn⟩ := matched h'
  rw [hn.heard.expected] at hc
  obtain ⟨pre, m, v, post, hl, hdue⟩ := mem_expected_due hc
  obtain ⟨hu, r, hr, hack, rfl⟩ := mem_due hdue
  have hrh : r.handler = net.service.handlers := by
    rw [← hh]
    unfold response
    split <;> rfl
  -- the request was accepted after the operation began, and the packet received after that
  obtain ⟨mid, hmid⟩ : net.service.log <+: pre := by
    refine List.prefix_of_prefix_length_le (hlog ▸ List.prefix_append _ _)
      (hl ▸ List.prefix_append _ _) (Nat.le_of_not_lt fun hlt => ?_)
    have hp : pre <+: net.service.log := List.prefix_of_prefix_length_le
      (hl ▸ List.prefix_append _ _) (hlog ▸ List.prefix_append _ _) (Nat.le_of_lt hlt)
    obtain ⟨rest, hrest⟩ := hp
    have hold : r ∈ accepted net.service.log := by
      rw [← hrest, accepted_append]
      exact List.mem_append_left _ hr
    have := hs.inv.issued_lt _ (accepted_issued hold)
    omega
  have hreceived : receivedPackets net'.service.log =
      receivedPackets pre ++ (m, v) :: receivedPackets post := by
    rw [hl, receivedPackets_append]
    rfl
  have hat : (receivedPackets net'.service.log)[(receivedPackets pre).length]? = some (m, v) := by
    rw [hreceived, List.getElem?_append_right (Nat.le_refl _), Nat.sub_self]
    rfl
  rw [hn.heard.received, List.getElem?_map, List.getElem?_take] at hat
  obtain ⟨p, hp, hpm⟩ := Option.map_eq_some_iff.1 hat
  obtain ⟨rfl, rfl⟩ := Prod.mk.inj hpm
  refine ⟨r, ?_, hrh, (receivedPackets pre).length, p, ⟨?_, ?_, ?_, hu, hack⟩, rfl⟩
  · rw [hl, accepted_append]
    exact List.mem_append_left _ hr
  · split at hp
    · exact hp
    · cases hp
  · rw [← hmid, receivedPackets_append, List.length_append]
    exact Nat.le_add_right _ _
  · rw [hreceived, List.length_append, List.length_cons]
    omega

/-! ## The operation -/

theorem submit_accepts (lib : Lib) (op : Operation) (hd : op.Defined lib s) (hf : s.failed = false) :
    ∃ r, (op.submit lib s).log = s.log ++ [.submitted r] ∧ r.handler = s.handlers := by
  obtain ⟨⟨m, c, v⟩, hreq⟩ := Option.isSome_iff_exists.1 hd.1
  obtain ⟨r, he, hr, -⟩ := enqueue_spec lib m c v s.handlers s.nextKey
    ({ s with scripts := [] } : NonblockingPacketService).count
  refine ⟨r, ?_, hr⟩
  simp only [Operation.submit, hreq, Op.apply, NonblockingPacketService.submit, hf,
    Bool.false_eq_true, if_false]
  exact congrArg NonblockingPacketService.log he

theorem wait_shut (lib : Lib) (hs : Steady lib s) (op : Operation) (hd : op.Defined lib s)
    (hf : s.failed = true) :
    (wait lib s.handlers op.first op.turns op.fds (op.submit lib s)).1 =
      some .connectionFailed := by
  obtain ⟨ops, hrun⟩ := submit_run op hd
  have hfu : (op.submit lib s).failed = true := run_failed hrun hs hf
  rw [wait_failed op.turns]
  simp [NonblockingPacketService.run, supply, hfu]

theorem run_false {fds : FdSets} (h : (s.run lib fds).1 = false) :
    (s.run lib fds).2.2.failed = true := by
  cases hf : s.failed with
  | true => simp [NonblockingPacketService.run, hf]
  | false =>
    rcases run_cases hf fds with ⟨-, he⟩ | ⟨-, -, he⟩ | ⟨-, -, he⟩
    · rw [he]; rfl
    · rw [he]; rfl
    · rw [he] at h; cases h

theorem remove_failed (lib : Lib) (hi : Inv s) (key : Nat) : (s.remove key).2.failed = s.failed :=
  (remove_moves lib hi key).frame.failed

/-- The only call of the operation's callback, if it is made with a response. -/
theorem call_answered (h : (network lib).Reachable net) (h' : (network lib).Reachable net')
    {r : Request} {new : List Event} (hr : r.handler = net.service.handlers)
    (hlog : net'.service.log = net.service.log ++ [.submitted r] ++ new) {c : Completion}
    (hc : c ∈ delivered net'.service.log) (hh : c.handler = net.service.handlers) :
    ∃ i p, AnsweredBy lib net net' r i p ∧ c = response r.handler (p.command lib) (some p.value) := by
  obtain ⟨r', hmem, hr', i, p, hp, he⟩ := answer_of_call h h'
    (hlog.trans (List.append_assoc _ [.submitted r] new)) hc hh
  have hin : r ∈ accepted net'.service.log := by
    rw [hlog, accepted_append, accepted_append]
    exact List.mem_append_left _ (List.mem_append_right _ List.mem_cons_self)
  obtain rfl := accepted_unique (records (network_service h')) hmem hin (hr'.trans hr.symm)
  exact ⟨i, p, hp, he⟩

/-- What an operation that is done returns. -/
theorem done_answered (h : (network lib).Reachable net) (h' : (network lib).Reachable net')
    {r : Request} {new : List Event} (hr : r.handler = net.service.handlers)
    (hlog : net'.service.log = net.service.log ++ [.submitted r] ++ new)
    (hd : (callbackState net.service.handlers net'.service.log).done = true) (callback : Callback)
    {status : KineticStatus}
    (hst : status = (Exit.leave net.service.handlers net.service.nextKey net'.service .done).1) :
    (status.code = .ok → ∃ i p, AnsweredBy lib net net' r i p ∧
      (p.command lib).getStatusCode = .success ∧
      ∀ out, outputs callback out net.service.handlers net'.service.log =
        callback.success (p.command lib) (some p.value) out) ∧
    (net'.service.failed = false → status.code ≠ .ok →
      (∃ i p, AnsweredBy lib net net' r i p ∧ status = statusOf lib p) ∧
      ∀ out, outputs callback out net.service.handlers net'.service.log = out) := by
  have hr' := network_service h'
  have hi := (steady hr').inv
  have hok : status.code = .ok ↔ Succeeded net.service.handlers net'.service.log := by
    rw [hst]
    exact done_status hi (sound hr') hd
  have hans : ∀ {c}, c ∈ delivered net'.service.log → c.handler = net.service.handlers → _ :=
    fun hc hh => call_answered h h' hr hlog hc hh
  refine ⟨fun hs => ?_, fun hf hs =>
    ⟨?_, fun out => outputs_unsucceeded _ _ fun hsu => hs (hok.2 hsu)⟩⟩
  · obtain ⟨command, v, hm⟩ := hok.1 hs
    have hcall : callsOf net.service.handlers net'.service.log =
        [.handle net.service.handlers command v] := by
      have hmem : Completion.handle net.service.handlers command v ∈
          callsOf net.service.handlers net'.service.log := mem_callsOf.2 ⟨hm, rfl⟩
      rcases callsOf_cases hi net.service.handlers with hn | ⟨c, hc⟩
      · rw [hn] at hmem; cases hmem
      · rw [hc, List.mem_singleton] at hmem
        rw [hc, hmem]
    obtain ⟨i, p, hp, he⟩ := hans (List.mem_filter.2 ⟨hm, rfl⟩) rfl
    unfold response at he
    split at he
    · rename_i hsuccess
      obtain ⟨-, rfl, rfl⟩ := Completion.handle.inj he
      refine ⟨i, p, hp, hsuccess, fun out => ?_⟩
      unfold outputs
      rw [hcall]
      rfl
    · cases he
  · rcases callsOf_cases hi net.service.handlers with hn | ⟨c, hc⟩
    · rw [callbackState, hn] at hd
      cases hd
    obtain ⟨hm, hh⟩ := mem_callsOf.1 (by rw [hc]; exact List.mem_singleton_self c)
    have hdel : c ∈ delivered net'.service.log := by
      rw [← live_delivered h' hf]
      exact hm
    obtain ⟨i, p, hp, he⟩ := hans hdel hh
    refine ⟨i, p, hp, ?_⟩
    rw [hst]
    simp only [Exit.leave, callbackState, hc, List.foldl_cons, List.foldl_nil]
    unfold response at he
    split at he
    · rename_i hsuccess
      rw [he] at hm
      exact absurd (hok.2 ⟨_, _, hr ▸ hm⟩) hs
    · rename_i hne
      rw [he, statusOf, if_neg hne]
      rfl

theorem perform_first {op : Operation} {fds : FdSets}
    (hr : ((op.submit lib s).supply op.first).run lib op.fds = (true, fds, t))
    (hd : (callbackState s.handlers t.log).done = true) :
    op.perform lib s = (some (Exit.leave s.handlers s.nextKey t .done).1, t) := by
  unfold Operation.perform runOperation wait
  rw [hr]
  dsimp only
  unfold waitLoop
  rw [if_pos hd]
  rfl

/-- What an operation that has returned `status` has been told: with `OK`, a packet
received meanwhile acknowledges its own request with `SUCCESS`, and the out
parameters are those of this packet. If the connection has not failed by then, any
other status is that of the packet which answers the request, or the operation gave
up before it was answered; either way the out parameters are as they were. -/
structure Answered (lib : Lib) (net : Net) (op : Operation) (status : KineticStatus) (net' : Net) :
    Prop where
  ok : status.code = .ok → ∃ r i p,
    (op.submit lib net.service).log = net.service.log ++ [.submitted r] ∧
    AnsweredBy lib net net' r i p ∧ (p.command lib).getStatusCode = .success ∧
    ∀ out, outputs op.call.callback out net.service.handlers net'.service.log =
      op.call.callback.success (p.command lib) (some p.value) out
  other : net'.service.failed = false → status.code ≠ .ok →
    ((∃ r i p, (op.submit lib net.service).log = net.service.log ++ [.submitted r] ∧
        AnsweredBy lib net net' r i p ∧ status = statusOf lib p) ∨
      status.code = .clientIoError ∧ net.service.handlers ∉ settled net'.service.log) ∧
    ∀ out, outputs op.call.callback out net.service.handlers net'.service.log = out

/-- **One operation** is told what answers its own request. -/
theorem Performs.answered (h : (network lib).Reachable net) {op : Operation} {status : KineticStatus}
    (hp : Performs lib net op status net') : Answered lib net op status net' := by
  obtain ⟨hd, ⟨ops, hrun⟩, hret⟩ := hp
  have h' : (network lib).Reachable net' := h.run hrun
  have hr := network_service h
  have hs := steady hr
  have hr' := network_service h'
  have hs' := steady hr'
  obtain ⟨sops, hsub⟩ := submit_run op hd
  obtain ⟨wops, hwait⟩ := wait_run hd.2.2
  obtain ⟨hst₁, hs₁⟩ := run_steps hsub hs
  obtain ⟨hst₂, hs₂⟩ := run_steps hwait hs₁
  have hends := wait_ends lib op net.service
  have hshut := wait_shut lib hs op hd
  unfold Operation.perform runOperation at hret
  cases he : wait lib net.service.handlers op.first op.turns op.fds (op.submit lib net.service) with
  | mk exit w =>
  rw [he] at hret hst₂ hs₂ hends hshut
  dsimp only at hret hst₂ hs₂ hends hshut
  obtain ⟨new, hnew⟩ := steps_log hst₂ hs₁.inv
  -- an operation that gave up has not been answered
  have hgave : ∀ e, exit = some e → e ≠ .done → e ≠ .connectionFailed →
      net.service.handlers ∉ settled (w.remove net.service.nextKey).2.log := by
    intro e hx h1 h2 hm
    have hnot := hends.waiting e hx h1 h2
    rw [← Bool.not_eq_true, done_iff hs₂.inv] at hnot
    obtain ⟨-, -, -, -, -, -, -, new', hlog', hrem⟩ := remove_spares hs₂.inv net.service.nextKey
    rw [hlog', settled_append, List.mem_append] at hm
    refine hm.elim hnot fun hm => ?_
    obtain ⟨c, hc, -⟩ := List.mem_map.1 hm
    obtain ⟨e, he, hce⟩ := List.mem_filterMap.1 hc
    obtain ⟨q, rfl⟩ := hrem e he
    cases hce
  have hunanswered : net.service.handlers ∉ settled net'.service.log →
      ∀ out, outputs op.call.callback out net.service.handlers net'.service.log = out :=
    fun hn out => outputs_unsucceeded _ _ fun hsu => hn hsu.settled
  match exit with
  | none => cases hret
  | some .done =>
    obtain ⟨hst, hw⟩ := Prod.mk.inj hret
    obtain rfl : w = net'.service := hw
    have hlive : net.service.failed = false := by
      cases hf : net.service.failed with
      | false => rfl
      | true => cases hshut hf
    obtain ⟨r, hlog, hrh⟩ := submit_accepts lib op hd hlive
    obtain ⟨hok, herr⟩ := done_answered h h' hrh (by rw [hnew, hlog]) (hends.done rfl)
      op.call.callback (Option.some.inj hst).symm
    refine ⟨fun hc => ?_, fun hf hc => ?_⟩
    · obtain ⟨i, p, hp⟩ := hok hc
      exact ⟨r, i, p, hlog, hp⟩
    · obtain ⟨⟨i, p, hp⟩, hout⟩ := herr hf hc
      exact ⟨.inl ⟨r, i, p, hlog, hp⟩, hout⟩
  | some .connectionFailed =>
    obtain ⟨hst, hw⟩ := Prod.mk.inj hret
    obtain rfl := (Option.some.inj hst).symm
    obtain ⟨before, u, -, -, hfail, rfl⟩ := hends.failed rfl
    refine ⟨fun hok => (by cases hok), fun hf => ?_⟩
    have hf' := (remove_failed lib hs₂.inv net.service.nextKey).trans (run_false hfail)
    rw [← hw] at hf
    exact absurd (hf'.symm.trans hf) (by simp)
  | some (.selectFailed message) =>
    obtain ⟨hst, hw⟩ := Prod.mk.inj hret
    obtain rfl := (Option.some.inj hst).symm
    have hn : net.service.handlers ∉ settled net'.service.log :=
      hw ▸ hgave _ rfl (by simp) (by simp)
    exact ⟨fun hok => (by cases hok), fun _ _ => ⟨.inr ⟨rfl, hn⟩, hunanswered hn⟩⟩
  | some .timedOut =>
    obtain ⟨hst, hw⟩ := Prod.mk.inj hret
    obtain rfl := (Option.some.inj hst).symm
    have hn : net.service.handlers ∉ settled net'.service.log :=
      hw ▸ hgave _ rfl (by simp) (by simp)
    exact ⟨fun hok => (by cases hok), fun _ _ => ⟨.inr ⟨rfl, hn⟩, hunanswered hn⟩⟩

/-! ## Sessions -/

/-- An operation that has returned, and the states around it. -/
structure Performed where
  before : Net
  op : Operation
  status : KineticStatus
  after : Net

/-- Operations one after another, whatever other requests are pending. -/
inductive Session (lib : Lib) (net : Net) : List Performed → Net → Prop
  | nil : Session lib net [] net
  | snoc {calls : List Performed} {u v : Net} {op : Operation} {status : KineticStatus} :
      Session lib net calls u → Performs lib u op status v →
      Session lib net (calls ++ [⟨u, op, status, v⟩]) v

theorem Performs.reachable (h : (network lib).Reachable net) {op : Operation}
    {status : KineticStatus} (hp : Performs lib net op status net') :
    (network lib).Reachable net' := by
  obtain ⟨ops, hrun⟩ := hp.run
  exact h.run hrun

theorem Performs.received_le (h : (network lib).Reachable net) {op : Operation}
    {status : KineticStatus} (hp : Performs lib net op status net') :
    (receivedPackets net.service.log).length ≤ (receivedPackets net'.service.log).length := by
  obtain ⟨ops, hrun⟩ := hp.run
  obtain ⟨new, hlog⟩ := steps_log (run_steps (network_run hrun) (steady (network_service h))).1
    (steady (network_service h)).inv
  rw [hlog, receivedPackets_append, List.length_append]
  exact Nat.le_add_right _ _

theorem Session.performs (h : (network lib).Reachable net) {calls : List Performed}
    (hs : Session lib net calls net') :
    (network lib).Reachable net' ∧ ∀ c ∈ calls,
      (network lib).Reachable c.before ∧ Performs lib c.before c.op c.status c.after := by
  induction hs with
  | nil => exact ⟨h, by simp⟩
  | @snoc calls u v op status _ hp ih =>
    obtain ⟨hu, hcalls⟩ := ih
    refine ⟨hp.reachable hu, fun c hc => ?_⟩
    rcases List.mem_append.1 hc with hc | hc
    · exact hcalls c hc
    · rw [List.mem_singleton.1 hc]
      exact ⟨hu, hp⟩

/-- What an operation receives it receives after what the ones before it have. -/
theorem Session.received (h : (network lib).Reachable net) {calls : List Performed}
    (hs : Session lib net calls net') :
    (∀ c ∈ calls, (receivedPackets c.after.service.log).length ≤
      (receivedPackets net'.service.log).length) ∧
    calls.Pairwise fun c d => (receivedPackets c.after.service.log).length ≤
      (receivedPackets d.before.service.log).length := by
  induction hs with
  | nil => exact ⟨by simp, .nil⟩
  | @snoc calls u v op status hs hp ih =>
    obtain ⟨hcalls, hpair⟩ := ih
    have hle := hp.received_le (hs.performs h).1
    refine ⟨fun c hc => ?_, ?_⟩
    · rcases List.mem_append.1 hc with hc | hc
      · exact Nat.le_trans (hcalls c hc) hle
      · rw [List.mem_singleton.1 hc]
    · rw [List.pairwise_append]
      refine ⟨hpair, List.pairwise_singleton _ _, fun c hc d hd => ?_⟩
      rw [List.mem_singleton.1 hd]
      exact hcalls c hc

/-- **The operations of a session** are answered, each by a packet of its own: one
that returns `OK` has the data of a packet that acknowledges its own request, and
no packet answers two of them. -/
theorem session_answered (h : (network lib).Reachable net) {calls : List Performed}
    (hs : Session lib net calls net') :
    (∀ c ∈ calls, Answered lib c.before c.op c.status c.after) ∧
    calls.Pairwise fun c d => ∀ r i p r' j q, AnsweredBy lib c.before c.after r i p →
      AnsweredBy lib d.before d.after r' j q → i < j := by
  refine ⟨fun c hc => ?_, (hs.received h).2.imp fun hle r i p r' j q hi hj => ?_⟩
  · obtain ⟨hr, hp⟩ := (hs.performs h).2 c hc
    exact hp.answered hr
  · exact Nat.lt_of_lt_of_le hi.before (Nat.le_trans hle hj.after)

/-- An operation of one `Run`, and what the device does in it. -/
theorem first_run {op : Operation} (hd : op.Defined lib net.service) {packets : List Packet}
    {arrived : Bytes}
    (hb : Brings lib ⟨op.submit lib net.service, net.packets, net.arrived⟩
      ⟨(((op.submit lib net.service).supply op.first).run lib op.fds).2.2, packets, arrived⟩
      (.run op.first op.fds)) :
    ∃ ops, (network lib).Run net ops
      ⟨(((op.submit lib net.service).supply op.first).run lib op.fds).2.2, packets, arrived⟩ := by
  obtain ⟨⟨m, c, v⟩, hreq⟩ := Option.isSome_iff_exists.1 hd.1
  have hsubmit : (network lib).step net (.submit [] m c v)
      ⟨op.submit lib net.service, net.packets, net.arrived⟩ :=
    ⟨hd.2.1, by simp only [Operation.submit, hreq], rfl, rfl⟩
  have hrun : (network lib).step ⟨op.submit lib net.service, net.packets, net.arrived⟩
      (.run op.first op.fds)
      ⟨(((op.submit lib net.service).supply op.first).run lib op.fds).2.2, packets, arrived⟩ :=
    ⟨hd.2.2 _ List.mem_cons_self, rfl, hb⟩
  exact ⟨_, .cons hsubmit (.cons hrun (.nil _))⟩

/-- An operation that is done after its first `Run`, in which an honest device sends
this. -/
theorem performs_first {op : Operation} (hd : op.Defined lib net.service) {packets : List Packet}
    {arrived : Bytes} {fds : FdSets} {status : KineticStatus}
    (hb : Brings lib ⟨op.submit lib net.service, net.packets, net.arrived⟩
      ⟨(((op.submit lib net.service).supply op.first).run lib op.fds).2.2, packets, arrived⟩
      (.run op.first op.fds))
    (hok : (((op.submit lib net.service).supply op.first).run lib op.fds).1 = true)
    (hfds : (((op.submit lib net.service).supply op.first).run lib op.fds).2.1 = fds)
    (hdone : (callbackState net.service.handlers
      (((op.submit lib net.service).supply op.first).run lib op.fds).2.2.log).done = true)
    (hstatus : (Exit.leave net.service.handlers net.service.nextKey
      (((op.submit lib net.service).supply op.first).run lib op.fds).2.2 .done).1 = status) :
    Performs lib net op status
      ⟨(((op.submit lib net.service).supply op.first).run lib op.fds).2.2, packets, arrived⟩ := by
  refine ⟨hd, first_run hd hb, ?_⟩
  rw [perform_first (Prod.ext hok (Prod.ext hfds rfl)) hdone, hstatus]

/-- An operation has timed out, its request written and its handler removed. -/
def abandoned : Net where
  service := play Codec.plain (create 5 1 [] 0)
    [.submit [] {} {} [], .run { writes := List.replicate 8 (.count 100) } ⟨[], [], 0⟩, .remove 0]
  packets := []
  arrived := []

/-- A `Get` whose response, or responses, come in its first `Run`. -/
def prompt (packets : List Packet) : Operation where
  connection := ⟨⟨0⟩⟩
  call := .getS [107]
  first := {
    writes := List.replicate 8 (.count 100)
    arrives := stream packets
    reads := List.replicate (8 * packets.length) (.count 9) }
  turns := []
  fds := ⟨[], [], 0⟩

/-- The connection after the operation, all of whose packets arrived in its `Run`. -/
def answered (net : Net) (op : Operation) (packets : List Packet) : Net where
  service := (((op.submit Codec.plain net.service).supply op.first).run Codec.plain op.fds).2.2
  packets := net.packets ++ packets
  arrived := net.arrived ++ stream packets

/-- The late response comes before that of the operation. -/
def lateFirst : List Packet := [reply none 0 .success [9], reply none 1 .success [7]]

def answeredLate : Net := answered abandoned (prompt lateFirst) lateFirst

def answeredNext : Net :=
  answered answeredLate (prompt [reply none 2 .success [8]]) [reply none 2 .success [8]]

theorem performs_late :
    Performs Codec.plain abandoned (prompt lateFirst) ⟨.ok, "", 0⟩ answeredLate :=
  performs_first (by decide +kernel)
    ⟨List.prefix_append _ _, rfl, by decide +kernel,
      by simp [prompt, Socket.Fragment, lateFirst], by decide +kernel⟩
    (by decide +kernel) rfl (by decide +kernel) (by decide +kernel)

theorem performs_next :
    Performs Codec.plain answeredLate (prompt [reply none 2 .success [8]]) ⟨.ok, "", 0⟩
      answeredNext :=
  performs_first (by decide +kernel)
    ⟨List.prefix_append _ _, rfl, by decide +kernel,
      by simp [prompt, Socket.Fragment], by decide +kernel⟩
    (by decide +kernel) rfl (by decide +kernel) (by decide +kernel)

/-- Each of two operations has the value of its own response, and not the late one. -/
theorem session_answered_late :
    ∃ r i p r' j q,
      AnsweredBy Codec.plain abandoned answeredLate r i p ∧ p.value = [7] ∧
      AnsweredBy Codec.plain answeredLate answeredNext r' j q ∧ q.value = [8] ∧ i < j := by
  have h : (network Codec.plain).Reachable abandoned :=
    reachable_silent _ ⟨_, [], ⟨create_fresh 5 1 [] 0, rfl, rfl, rfl⟩, .nil _⟩ (by decide +kernel)
      (by simp)
  have hs : Session Codec.plain abandoned
      [⟨abandoned, prompt lateFirst, ⟨.ok, "", 0⟩, answeredLate⟩,
        ⟨answeredLate, prompt [reply none 2 .success [8]], ⟨.ok, "", 0⟩, answeredNext⟩]
      answeredNext := Session.snoc (Session.snoc .nil performs_late) performs_next
  obtain ⟨hall, hpair⟩ := session_answered h hs
  obtain ⟨r, i, p, -, ha, -, hout⟩ := (hall _ List.mem_cons_self).ok rfl
  obtain ⟨r', j, q, -, ha', -, hout'⟩ := (hall _ (List.mem_cons_of_mem _ List.mem_cons_self)).ok rfl
  have hvalue : (outputs (.get false) {} abandoned.service.handlers
      answeredLate.service.log).record.bind KineticRecord.value = some [7] := by decide +kernel
  have hvalue' : (outputs (.get false) {} answeredLate.service.handlers
      answeredNext.service.log).record.bind KineticRecord.value = some [8] := by decide +kernel
  rw [show outputs (.get false) _ _ _ = _ from hout {}] at hvalue
  rw [show outputs (.get false) _ _ _ = _ from hout' {}] at hvalue'
  exact ⟨r, i, p, r', j, q, ha, Option.some.inj hvalue, ha', Option.some.inj hvalue',
    List.rel_of_pairwise_cons hpair (List.mem_singleton_self _) _ _ _ _ _ _ ha ha'⟩

end Kinetic.L3
