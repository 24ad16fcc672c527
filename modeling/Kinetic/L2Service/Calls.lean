import Kinetic.L2Service.Responses
import Kinetic.L2Service.Starvation

/-!
# Nobody is called for nothing

As long as the service has not failed, a handler is called with a response and for
no other reason: on a connection to an honest device the calls made are those that
are due (`calls_due`). And it does not fail as long as the transport reports no
error (`never_fails`), so that every request goes out in the end.
-/
open Kinetic.Core

namespace Kinetic.L2

open L1 NonblockingPacketService

variable {lib : Lib} {s t : NonblockingPacketService} {net net' : Net}

/-! ## Calls without a response -/

/-- The service has failed, or is about to. -/
def Troubled (s : NonblockingPacketService) : Prop :=
  s.failed = true ∨ (∃ status, Event.failedAll status ∈ s.log) ∨
    s.sender.currentWriter ≠ none ∧ ∀ x, s.sender.handler = some x → x ∈ settled s.log

/-- Out of trouble every call carries a response. -/
structure OnlyAnswers (s : NonblockingPacketService) : Prop where
  handed : s.sender.currentWriter = none → s.sender.handler = none
  calls : Troubled s ∨ completions s.log = delivered s.log

theorem OnlyAnswers.frame (h : OnlyAnswers s) {new : List Event} (hlog : t.log = s.log ++ new)
    (hnew : completions new = delivered new) (hw : t.sender.currentWriter = s.sender.currentWriter)
    (hh : t.sender.handler = s.sender.handler) (hf : s.failed = true → t.failed = true) :
    OnlyAnswers t := by
  refine ⟨by rw [hw, hh]; exact h.handed, ?_⟩
  rcases h.calls with (hc | ⟨status, hc⟩ | ⟨hc, hx⟩) | hc
  · exact .inl (.inl (hf hc))
  · exact .inl (.inr (.inl ⟨status, by rw [hlog]; exact List.mem_append_left _ hc⟩))
  · refine .inl (.inr (.inr ⟨by rw [hw]; exact hc, fun x hxs => ?_⟩))
    rw [hlog, settled_append]
    exact List.mem_append_left _ (hx x (hh ▸ hxs))
  · exact .inr (by rw [hlog, completions_append, delivered_append, hc, hnew])

theorem OnlyAnswers.read (lib : Lib) (h : OnlyAnswers s) (r : NonblockingPacketReader) :
    OnlyAnswers (NonblockingReceiver.readResponse lib r s).2 := by
  have hf := readResponse_frame lib r s
  obtain ⟨h1, h2⟩ := readResponse_log lib r s
  by_cases hd : (NonblockingReceiver.readResponse lib r s).1 = .done
  · exact h.frame (h1 hd) rfl (by rw [hf.sender]) (by rw [hf.sender]) (by rw [hf.failed]; exact id)
  · exact h.frame (show _ = s.log ++ [] by rw [h2 hd]; simp) rfl (by rw [hf.sender])
      (by rw [hf.sender]) (by rw [hf.failed]; exact id)

theorem OnlyAnswers.step (h : OnlyAnswers s) (hst : Step lib s t) : OnlyAnswers t := by
  cases hst with
  | environment _ _ _ => exact h.frame (show _ = s.log ++ [] by simp) rfl rfl rfl id
  | accept m c v _ _ =>
    obtain ⟨r, he, -⟩ := enqueue_spec lib m c v s.handlers s.nextKey s.count
    rw [he]
    exact h.frame rfl rfl rfl rfl id
  | refuse hf => exact ⟨h.handed, .inl (.inl hf)⟩
  | removeQueued _ => exact h.frame rfl rfl rfl rfl id
  | removeAwaiting _ _ => exact h.frame rfl rfl rfl rfl id
  | start hf hw hh hq =>
    refine ⟨fun hw' => (by cases hw'), ?_⟩
    rcases h.calls with (hc | hc | ⟨hc, -⟩) | hc
    · exact .inl (.inl hc)
    · exact .inl (.inr (.inl hc))
    · exact absurd hw hc
    · exact .inr hc
  | write hf hw hwr =>
    refine ⟨fun hw' => (by cases hw'), ?_⟩
    rcases h.calls with (hc | hc | ⟨-, hx⟩) | hc
    · exact .inl (.inl hc)
    · exact .inl (.inr (.inl hc))
    · exact .inl (.inr (.inr ⟨by simp, hx⟩))
    · exact .inr hc
  | @finish w x hf hw hrem hh hun =>
    refine ⟨fun _ => rfl, ?_⟩
    rcases h.calls with (hc | ⟨status, hc⟩ | ⟨-, hx⟩) | hc
    · exact .inl (.inl hc)
    · exact .inl (.inr (.inl ⟨status, List.mem_append_left _ hc⟩))
    · exact absurd (hx x hh) hun
    · exact .inr (by simpa [completions_append, delivered_append, completions, delivered] using hc)
  | @writeFail x status hh hun =>
    refine ⟨h.handed, .inl (.inr (.inr ⟨fun hw => ?_, fun y hy => ?_⟩))⟩
    · rw [h.handed hw] at hh; cases hh
    · rw [emit_sender, hh] at hy
      obtain rfl := Option.some.inj hy
      rw [emit_log, settled_completed]
      exact List.mem_append_right _ List.mem_cons_self
  | letGo hcalled =>
    refine ⟨fun _ => rfl, ?_⟩
    rcases h.calls with (hc | hc | ⟨hc, -⟩) | hc
    · exact .inl (.inl hc)
    · exact .inl (.inr (.inl hc))
    · exact .inl (.inr (.inr ⟨hc, fun x hx => by cases hx⟩))
    · exact .inr hc
  | failQueued status hg hq =>
    refine ⟨h.handed, .inl ?_⟩
    rcases hg with hf | ⟨hw, hh⟩
    · exact .inl hf
    · exact .inr (.inr ⟨hw, fun x hx => by
        rw [emit_sender] at hx
        dsimp only at hx
        rw [hh] at hx
        cases hx⟩)
  | bookkeeping _ _ => exact h.frame (show _ = s.log ++ [] by simp) rfl rfl rfl id
  | @read s' r st hrd _ =>
    have := h.read lib r
    rwa [hrd] at this
  | @deliver s' r command ack x key hrd _ _ _ _ =>
    have := h.read lib r
    rw [hrd] at this
    obtain ⟨v, hv⟩ := answered_eq ack x key (NonblockingReceiver.noteCommand command s')
    rw [hv]
    refine this.frame rfl ?_ rfl rfl id
    simp [completions, delivered, answer_response]
  | @drop s' r _ _ hrd _ _ _ =>
    have := h.read lib r
    rw [hrd] at this
    exact this.frame (show _ = s'.log ++ [] by simp [NonblockingReceiver.noteCommand]) rfl rfl rfl id
  | @reject s' r _ _ _ hrd =>
    have := h.read lib r
    rw [hrd] at this
    exact this.frame rfl rfl rfl rfl id
  | failAll status => exact h.frame rfl rfl rfl rfl id
  | failOne status hm _ _ =>
    exact ⟨h.handed, .inl (.inr (.inl ⟨status, List.mem_append_left _ hm⟩))⟩
  | clear _ => exact h.frame (show _ = s.log ++ [] by simp) rfl rfl rfl id
  | cleanUp => exact ⟨h.handed, .inl (.inl rfl)⟩

theorem only_answers (h : (service lib).Reachable s) : OnlyAnswers s :=
  invariant_of_moves (fun s h0 => ⟨fun _ => h0.senderHandler, .inr (by
    simp [h0.log, completions, delivered])⟩) (fun _ _ _ hp hst => hp.step hst) h

/-- Before it fails, a connection to an honest device makes no call without a
response. -/
theorem live_delivered (h : (network lib).Reachable net) (hf : net.service.failed = false) :
    completions net.service.log = delivered net.service.log := by
  have hr := network_service h
  have hst := steady hr
  obtain ⟨n, hn⟩ := matched h
  rcases (only_answers hr).calls with (hc | ⟨status, hc⟩ | ⟨hw, hx⟩) | hc
  · rw [hf] at hc; cases hc
  · exact absurd hc (hn.heard.unfailed status)
  · obtain ⟨x, hh⟩ := Option.ne_none_iff_exists'.1
      (fun hh => hw ((hst.paired hf).2 hh) : net.service.sender.handler ≠ none)
    exact absurd (hx x hh) (hst.quiet.current x hh)
  · exact hc

/-- **On a live connection** to an honest device the calls are those that are due
for the packets received: no handler is called for any other reason. -/
theorem calls_due (h : (network lib).Reachable net) (hf : net.service.failed = false) :
    completions net.service.log = expected lib net.service.log := by
  obtain ⟨n, hn⟩ := matched h
  rw [live_delivered h hf, hn.heard.expected]

/-- The exchange `asked`, answered out of order. -/
def answeredOutOfOrder : NonblockingPacketService :=
  (Op.run answering ⟨[], [], 0⟩).apply Codec.plain (play Codec.plain (create 5 1 [] 0) asked)

theorem reachable_outOfOrder :
    (network Codec.plain).Reachable ⟨answeredOutOfOrder, replies, stream replies⟩ := by
  have h0 : (network Codec.plain).Reachable ⟨play Codec.plain (create 5 1 [] 0) asked, [], []⟩ :=
    reachable_silent asked ⟨_, [], ⟨create_fresh .., rfl, rfl, rfl⟩, .nil _⟩ (by decide +kernel)
      (by simp [asked])
  exact h0.step (l := .run answering ⟨[], [], 0⟩) ⟨by decide +kernel, rfl, List.nil_prefix, rfl,
    List.prefix_refl _, by simp [answering, Socket.Fragment], by decide +kernel⟩

theorem calls_due_outOfOrder :
    (completions answeredOutOfOrder.log).map Completion.handler = [2, 0] ∧
    completions answeredOutOfOrder.log = expected Codec.plain answeredOutOfOrder.log :=
  ⟨by decide +kernel, calls_due reachable_outOfOrder (by decide +kernel)⟩

/-! ## A transport without errors -/

/-- The transport of a `Run` reports no error to the writer. -/
def Op.Sound : Op → Prop
  | .run io _ => false ∉ io.fstats ∧ ∀ r ∈ io.writes, r ≠ .count 0 ∧ r ≠ .error
  | _ => True

/-- The packet under way is of a request that was accepted. -/
def Writing (s : NonblockingPacketService) : Prop :=
  ∀ w, s.sender.currentWriter = some w → ∃ r ∈ accepted s.log, w.message = r.message

theorem Writing.step (hi : Inv s) (hrec : Records lib s) (h : Writing s) (hst : Step lib s t) :
    Writing t := by
  have grows : ∀ {w : NonblockingPacketWriter}, (∃ r ∈ accepted s.log, w.message = r.message) →
      ∃ r ∈ accepted t.log, w.message = r.message := by
    rintro w ⟨r, hr, hm⟩
    obtain ⟨new, hlog, -⟩ := hst.extends_cases hi
    exact ⟨r, by rw [hlog, accepted_append]; exact List.mem_append_left _ hr, hm⟩
  intro w hw
  refine grows ?_
  cases hst with
  | accept m c v _ _ =>
    obtain ⟨r, he, -⟩ := enqueue_spec lib m c v s.handlers s.nextKey s.count
    rw [he] at hw
    exact h w hw
  | @start r rest _ _ _ hq =>
    obtain rfl := Option.some.inj hw
    exact ⟨r, hrec.queued r (by rw [hq]; exact List.mem_cons_self), rfl⟩
  | @write w₀ w' st k hf hw₀ hwr =>
    obtain rfl := Option.some.inj hw
    have hm := NonblockingPacketWriter.write_message lib w₀ s.socket
    rw [hwr] at hm
    obtain ⟨r, hr, hr'⟩ := h w₀ hw₀
    exact ⟨r, hr, hm.trans hr'⟩
  | finish _ _ _ _ _ => cases hw
  | @read s' r st hrd _ =>
    have := (readResponse_frame lib r s).sender
    rw [hrd] at this
    exact h w (this ▸ hw)
  | @deliver s' r command ack x key hrd _ _ _ _ =>
    have := (readResponse_frame lib r s).sender
    rw [hrd] at this
    obtain ⟨v, hv⟩ := answered_eq ack x key (NonblockingReceiver.noteCommand command s')
    rw [hv] at hw
    exact h w (this ▸ hw)
  | @drop s' r _ _ hrd _ _ _ =>
    have := (readResponse_frame lib r s).sender
    rw [hrd] at this
    exact h w (this ▸ hw)
  | @reject s' r _ _ _ hrd =>
    have := (readResponse_frame lib r s).sender
    rw [hrd] at this
    exact h w (this ▸ hw)
  | _ => exact h w hw

theorem Steps.writing (hs : Steps lib s t) (hi : Inv s) (hrec : Records lib s) (h : Writing s) :
    Records lib t ∧ Writing t :=
  Steps.carry (P := fun u => Records lib u ∧ Writing u)
    (fun _ _ hi hp hst => ⟨hp.1.step hi hst, hp.2.step hi hp.1 hst⟩) hs hi ⟨hrec, h⟩

theorem writing (h : (service lib).Reachable s) : Writing s :=
  (invariant_of_moves (P := fun s => Records lib s ∧ Writing s)
    (fun s h0 => ⟨h0.records, fun w hw => by rw [h0.currentWriter] at hw; cases hw⟩)
    (fun _ _ hi hp hst => ⟨hp.1.step hi hst, hp.2.step hi hp.1 hst⟩) h).2

theorem sendLoop_sound (fuel : Nat) (h : Inv s) (hq : Quiet s) (hp : Paired s) (hf : s.failed = false)
    (hfuel : s.packets < fuel) (hrec : Records lib s) (hw : Writing s)
    (hinit : ∀ r ∈ accepted s.log, lib.serializeToString r.message = true) (hk : s.socket.Sound) :
    (NonblockingSender.sendLoop lib fuel s).1 ≠ .error := by
  induction fuel generalizing s with
  | zero => omega
  | succ fuel ih =>
    cases hs : NonblockingSender.startNext s with
    | none => simp [NonblockingSender.sendLoop, hs]
    | some p =>
      obtain ⟨w₀, s₁⟩ := p
      have hstart : s₁.socket = s.socket ∧ s₁.log = s.log ∧
          ∃ r ∈ accepted s.log, w₀.message = r.message := by
        unfold NonblockingSender.startNext at hs
        split at hs
        · rename_i w hw'
          obtain ⟨rfl, rfl⟩ := Prod.mk.inj (Option.some.inj hs)
          exact ⟨rfl, rfl, hw _ hw'⟩
        · split at hs
          · cases hs
          · rename_i r rest hqueue
            obtain ⟨rfl, rfl⟩ := Prod.mk.inj (Option.some.inj hs)
            exact ⟨rfl, rfl, r, hrec.queued r (by rw [hqueue]; exact List.mem_cons_self), rfl⟩
      obtain ⟨hsock, hlog, r, hr, hm⟩ := hstart
      have hsound := NonblockingPacketWriter.write_sound lib (w := w₀) (k := s₁.socket)
        (by rw [hm]; exact hinit r hr) (by rw [hsock]; exact hk)
      obtain ⟨out, hg, -⟩ := w₀.write_spec lib s₁.socket
      cases hwr : w₀.write lib s₁.socket with
      | mk st wk =>
      obtain ⟨w', k⟩ := wk
      rw [hwr] at hsound hg
      obtain ⟨h1, -, h3⟩ := sendLoop_turn h hq hp hf hfuel hs hwr
      cases st with
      | inProgress => rw [h1 rfl]; simp
      | failed => exact absurd rfl hsound
      | done =>
        obtain ⟨u, he, rfl, ⟨x, hlog'⟩, hsu, -, hi, hq', hp', hf', hlt⟩ := h3 rfl
        rw [he]
        obtain ⟨hrec', hw''⟩ := Steps.writing hsu h hrec hw
        refine ih hi hq' hp' hf' hlt hrec' hw'' ?_ (hg.sound (by rw [hsock]; exact hk))
        rw [hlog', accepted_append, show accepted [Event.written x] = [] from rfl, List.append_nil]
        exact hinit

theorem accepted_run {ops : List Op} (hrun : (service lib).Run s ops t) (h : Steady lib s) :
    accepted s.log ⊆ accepted t.log := by
  obtain ⟨new, hlog⟩ := steps_log (run_steps hrun h).1 h.inv
  rw [hlog, accepted_append]
  exact List.subset_append_left _ _

theorem network_run {ops : List Op} (hrun : (network lib).Run net ops net') :
    (service lib).Run net.service ops net'.service := by
  induction hrun with
  | nil => exact .nil _
  | @cons _ _ _ op _ hs _ ih => exact .cons (l := op) ⟨hs.1, hs.2.1⟩ ih

/-- One operation on a live service, with a transport that reports no error. -/
theorem Matched.stays_live {n : Nat} (h : (network lib).Reachable net) (hn : Matched lib net n)
    {op : Op} (hstep : (network lib).step net op net') (hs : op.Sound)
    (hinit : ∀ r ∈ accepted net.service.log, lib.serializeToString r.message = true)
    (hf : net.service.failed = false) : net'.service.failed = false := by
  have hr := network_service h
  have hst := steady hr
  obtain ⟨hd, hs', hb⟩ := hstep
  rw [hs']
  cases op with
  | submit scripts m c v =>
    obtain ⟨-, h2⟩ := scripts_steady scripts hst
    exact (submit_moves (fun c s hc => complete_moves lib c hc) h2.inv m c v hd).frame.failed.trans hf
  | remove key => exact (remove_moves lib hst.inv key).frame.failed.trans hf
  | run io fds =>
    obtain ⟨hl, -⟩ := hn.listening hst (records hr) hf hb
    obtain ⟨-, hne, -⟩ := receiveLoop_hears _ hl (Nat.lt_succ_self _)
    have hsup := (supply_steady io hst).2
    have hsend := sendLoop_sound _ hsup.inv hsup.quiet (hsup.paired hf) hf (packets_lt _)
      (records hr |>.step hst.inv (.environment _ io.scripts rfl)) (fun w hw => writing hr w hw) hinit
      ⟨hs.1, hs.2⟩
    obtain ⟨-, b, -, -, -, b', -⟩ := sendReceive_moves hsup hf
    rcases run_cases (s := net.service.supply io) hf fds with ⟨he, -⟩ | ⟨-, he, -⟩ | ⟨-, -, he⟩
    · exact absurd he hsend
    · exact absurd he hne
    · rw [Op.apply, he]
      exact b'.failed.trans (b.failed.trans hf)

theorem live_run (h : (network lib).Reachable net) {ops : List Op}
    (hrun : (network lib).Run net ops net') (hs : ∀ op ∈ ops, op.Sound)
    (hinit : ∀ r ∈ accepted net'.service.log, lib.serializeToString r.message = true)
    (hf : net.service.failed = false) : net'.service.failed = false := by
  induction hrun with
  | nil => exact hf
  | @cons net u net' op ops hstep hrun ih =>
    have hu := h.step hstep
    obtain ⟨n, hn⟩ := matched h
    refine ih hu (fun op hop => hs op (List.mem_cons_of_mem _ hop)) hinit
      (hn.stays_live h hstep (hs op List.mem_cons_self) (fun r hr => hinit r ?_) hf)
    have hone : (service lib).Run net.service [op] u.service := .cons ⟨hstep.1, hstep.2.1⟩ (.nil _)
    exact accepted_run (network_run hrun) (steady (network_service hu))
      (accepted_run hone (steady (network_service h)) hr)

/-- **A connection whose transport reports no error**, to an honest device, does not
fail, and everything submitted goes out: a request that has not been removed is
written after as many Runs on a writable descriptor as there are bytes up to its
end. -/
theorem never_fails (h : (network lib).Reachable net) {ops : List Op}
    (hrun : (network lib).Run net ops net') (hs : ∀ op ∈ ops, op.Sound)
    (hinit : ∀ r ∈ accepted net'.service.log, lib.serializeToString r.message = true)
    (hf : net.service.failed = false) :
    net'.service.failed = false ∧
      ∀ r ∈ accepted net.service.log,
        ahead lib r.handler net.service ≤ ops.countP (fun op => decide op.Writable) →
        r.handler ∈ sentOut net'.service.log ∨ r.handler ∈ withdrawn net'.service.log := by
  have hlive := live_run h hrun hs hinit hf
  refine ⟨hlive, fun r hr hc => ?_⟩
  rcases (countdown lib r).reaches (fun _ hu => ahead_pos hu.1 hu.2) (network_run hrun)
    ⟨network_service h, hr⟩ hc with hs | hw | hf'
  · exact .inl hs
  · exact .inr hw
  · rw [hlive] at hf'; cases hf'

theorem run_silent (h : (network lib).Reachable net) (ops : List Op) (hl : Legal lib net.service ops)
    (hs : ∀ io fds, Op.run io fds ∈ ops → io.arrives = [] ∧ ∀ r ∈ io.reads, Socket.Fragment r) :
    (network lib).Run net ops { net with service := play lib net.service ops } := by
  induction ops generalizing net with
  | nil => exact .nil _
  | cons op ops ih =>
    have hstep : (network lib).step net op { net with service := op.apply lib net.service } := by
      refine ⟨hl.1, rfl, ?_⟩
      cases op with
      | run io fds =>
        obtain ⟨ha, hr⟩ := hs io fds List.mem_cons_self
        obtain ⟨n, hn⟩ := matched h
        have hsup := supply_steady io (steady (network_service h))
        refine ⟨List.prefix_refl _, by simp [ha], hn.sent, hr, ?_⟩
        unfold sentLog
        split
        · exact hn.honest
        · rename_i hf
          rw [Bool.not_eq_true] at hf
          obtain ⟨new, hlog, -⟩ := (sendReceive_moves hsup.2 hf).2.1.log
          rw [hlog]
          exact hn.honest.mono
      | _ => exact ⟨rfl, rfl⟩
    exact .cons hstep (ih (h.step hstep) hl.2 fun io fds hm => hs io fds (List.mem_cons_of_mem _ hm))

theorem never_fails_busy :
    (play Codec.plain twoQueued (busy 36)).failed = false ∧
    1 ∈ sentOut (play Codec.plain twoQueued (busy 36)).log := by
  have h0 : (network Codec.plain).Reachable ⟨create 5 1 [] 0, [], []⟩ :=
    ⟨_, [], ⟨create_fresh .., rfl, rfl, rfl⟩, .nil _⟩
  have hnet : (network Codec.plain).Reachable ⟨twoQueued, [], []⟩ :=
    h0.run (run_silent h0 [.submit [] {} {} [1], .submit [] {} {} [2]] (by decide +kernel) (by simp))
  obtain ⟨hf, hall⟩ := never_fails hnet
    (run_silent hnet (busy 36) (by decide +kernel) (by simp [busy]))
    (by simp [busy, Op.Sound]) (fun _ _ => rfl) (by decide +kernel)
  have hsecond : ∃ r ∈ accepted twoQueued.log, r.handler = 1 := by decide +kernel
  obtain ⟨r, hr, hh⟩ := hsecond
  refine ⟨hf, ?_⟩
  rw [← hh]
  refine (hall r hr (by rw [hh]; decide +kernel)).resolve_right ?_
  rw [hh]
  decide +kernel

end Kinetic.L2
