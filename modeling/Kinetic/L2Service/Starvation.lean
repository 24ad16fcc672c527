import Kinetic.Core.Countdown
import Kinetic.L2Service.Failure
import Kinetic.L2Service.Spoken

/-!
# No request starves

The queue is first in, first out, and nothing is ever put in front of a request:
the bytes that have to go out until it is written only become fewer (`ahead`). Each
`Run` on a writable descriptor takes at least one of them, so that many of these
are enough, whatever is submitted and removed meanwhile, by the caller or by
callbacks (`no_starvation`).
-/
open Kinetic.Core

namespace Kinetic.L2

open L1 NonblockingPacketService

variable {lib : Lib} {s t : NonblockingPacketService}

/-- The bytes of the requests up to the one of handler `h`, those removed from the
queue apart. -/
def bytesUpTo (lib : Lib) (h : Nat) (log : List Event) : Nat :=
  (((outgoing log).filter (·.handler ≤ h)).map fun r => (r.packet lib).length).sum

/-- Those of them that have not been sent. -/
def ahead (lib : Lib) (h : Nat) (s : NonblockingPacketService) : Nat :=
  bytesUpTo lib h s.log - s.socket.sent.length

/-- The request has been written, or removed, or the service has failed. -/
def Served (h : Nat) (s : NonblockingPacketService) : Prop :=
  h ∈ sentOut s.log ∨ h ∈ withdrawn s.log ∨ s.failed = true

instance (h : Nat) (s : NonblockingPacketService) : Decidable (Served h s) :=
  inferInstanceAs (Decidable (_ ∨ _ ∨ _))

/-- A `Run` on a writable descriptor. -/
def Op.Writable : Op → Prop
  | .run io _ => Socket.Writable io.writes
  | _ => False

instance : DecidablePred Op.Writable
  | .run io _ => Socket.decidableWritable io.writes
  | .submit _ _ _ _ => .isFalse id
  | .remove _ => .isFalse id

/-! ## What is ahead only becomes less -/

theorem sum_le_of_sublist {l l' : List Request} (h : l.Sublist l') (f : Request → Nat) :
    (l.map f).sum ≤ (l'.map f).sum := by
  induction h with
  | slnil => exact Nat.le_refl _
  | cons a _ ih =>
    rw [List.map_cons, List.sum_cons]
    omega
  | cons_cons a _ ih =>
    rw [List.map_cons, List.sum_cons, List.map_cons, List.sum_cons]
    omega

theorem unsent_plain {new : List Event} (h : ∀ e ∈ new, e.Plain) : unsent new = [] := by
  rw [unsent, List.filterMap_eq_nil_iff]
  intro e he
  have := h e he
  cases e <;> first | rfl | exact absurd this id

theorem Step.outgoing_sublist (hi : Inv s) (hst : Step lib s t) {h : Nat} (hh : h < s.handlers) :
    ((outgoing t.log).filter (·.handler ≤ h)).Sublist ((outgoing s.log).filter (·.handler ≤ h)) := by
  obtain ⟨new, hlog, he⟩ := hst.extends_cases hi
  rw [hlog]
  cases he with
  | plain hp _ _ => rw [outgoing_append (accepted_plain hp) (unsent_plain hp)]
  | submission hr _ _ _ _ =>
    rw [outgoing_submitted hi hr, List.filter_append, List.filter_cons_of_neg (by simp; omega),
      List.filter_nil, List.append_nil]
  | @removal x q _ _ =>
    cases q with
    | false => rw [outgoing_append rfl rfl]
    | true =>
      rw [outgoing_removed]
      exact (List.filter_sublist).filter _
  | refusal _ => rw [outgoing_append rfl rfl]

theorem Steps.outgoing_sublist (hs : Steps lib s t) (hi : Inv s) {h : Nat} (hh : h ∈ issued s.log) :
    ((outgoing t.log).filter (·.handler ≤ h)).Sublist ((outgoing s.log).filter (·.handler ≤ h)) := by
  refine (Steps.carry (P := fun u => h ∈ issued u.log ∧ ((outgoing u.log).filter
    (·.handler ≤ h)).Sublist ((outgoing s.log).filter (·.handler ≤ h))) ?_ hs hi
      ⟨hh, List.Sublist.refl _⟩).2
  rintro u v hu ⟨h1, h2⟩ hst
  obtain ⟨new, hlog, -⟩ := hst.extends_cases hu
  refine ⟨?_, (hst.outgoing_sublist hu (hu.issued_lt _ h1)).trans h2⟩
  rw [hlog, issued_append]
  exact List.mem_append_left _ h1

theorem ahead_le (hs : Steps lib s t) (hi : Inv s) {h : Nat} (hh : h ∈ issued s.log) :
    bytesUpTo lib h t.log ≤ bytesUpTo lib h s.log :=
  sum_le_of_sublist (Steps.outgoing_sublist hs hi hh) _

/-! ## A request that waits -/

/-- **A request that is not served** is under way or queued, and some of its bytes
have not been sent. -/
theorem unserved (h : (service lib).Reachable s) {r : Request} (hr : r ∈ accepted s.log)
    (hn : ¬ Served r.handler s) :
    s.socket.sent.length < bytesUpTo lib r.handler s.log ∧
      (s.sender.currentWriter ≠ none ∨ s.sender.requestQueue ≠ []) := by
  simp only [Served, not_or, Bool.not_eq_true] at hn
  obtain ⟨hsent, hwith, hf⟩ := hn
  obtain ⟨ready, current, drained, hsp⟩ := spoken h
  have hrec := records h
  have hd := hsp.undrained hf <| by
    by_cases hw : s.sender.currentWriter = none
    · exact .inl hw
    · exact .inr fun hh => hw (((steady h).paired hf).2 hh)
  have hout : r ∈ outgoing s.log := by
    refine List.mem_filter.2 ⟨hr, ?_⟩
    rw [decide_eq_true_eq]
    intro hu
    obtain ⟨e, he, hx⟩ := List.mem_filterMap.1 hu
    refine hwith (List.mem_filterMap.2 ⟨e, he, ?_⟩)
    split at hx
    · exact hx
    · cases hx
  have hsorted := hrec.sorted.sublist (outgoing_sublist s.log)
  rw [hsp.order, hd, List.nil_append] at hsorted hout
  -- the requests up to `r`, all of which count
  have hupto : ∀ front post : List Request, outgoing s.log = front ++ r :: post →
      (((front ++ [r]).map fun r => (r.packet lib).length).sum ≤ bytesUpTo lib r.handler s.log) := by
    intro front post ho
    refine sum_le_of_sublist ?_ _
    have hfr : ∀ x ∈ front ++ [r], x.handler ≤ r.handler := by
      have hs := hrec.sorted.sublist (outgoing_sublist s.log)
      rw [ho, List.pairwise_append] at hs
      intro x hx
      rcases List.mem_append.1 hx with hx | hx
      · exact Nat.le_of_lt (hs.2.2 x hx r List.mem_cons_self)
      · rw [List.mem_singleton.1 hx]
    have heq : (front ++ [r]).filter (·.handler ≤ r.handler) = front ++ [r] :=
      List.filter_eq_self.2 fun x hx => decide_eq_true (hfr x hx)
    rw [← heq, ho, show front ++ r :: post = (front ++ [r]) ++ post by simp]
    exact (List.sublist_append_left _ _).filter _
  have hpos : 0 < (r.packet lib).length := by
    rw [Request.packet, encode, frame_length]; omega
  obtain ⟨out, h1, h2⟩ := hsp.bytes
  have hlen : s.socket.sent.length = (ready.map fun r => (r.packet lib).length).sum + out.length := by
    rw [h1, List.length_append, List.length_flatMap]
  have hsum : out.length + (unwritten lib s).length =
      (current.toList.map fun r => (r.packet lib).length).sum := by
    rw [← List.length_append, h2, List.length_flatMap]
  have hready : r ∉ ready := fun hm => hsent (hsp.written ▸ List.mem_map.2 ⟨r, hm, rfl⟩)
  have hord := hsp.order
  rw [hd, List.nil_append] at hord
  rcases List.mem_append.1 ((List.mem_append.1 hout).resolve_left hready) with hc | hq
  · -- it is the one under way
    obtain rfl := Option.mem_toList.1 hc
    obtain ⟨w, hw⟩ := Option.ne_none_iff_exists'.1
      (fun hw => by simpa using hsp.writer.2 hw : s.sender.currentWriter ≠ none)
    have hle := hupto ready s.sender.requestQueue (by simpa using hord)
    have hun : 0 < (unwritten lib s).length := by
      rw [unwritten, hw]
      refine List.length_pos_iff.2 fun hu => midway h hf w hw ?_
      exact (List.append_eq_nil_iff.1 hu).1
    refine ⟨?_, .inl (by rw [hw]; simp)⟩
    simp only [List.map_append, List.sum_append, Option.toList_some, List.map_cons, List.map_nil,
      List.sum_cons, List.sum_nil] at hle hsum
    omega
  · obtain ⟨before, after, hq'⟩ := List.append_of_mem hq
    have hle := hupto (ready ++ (current.toList ++ before)) after
      (by rw [hord, hq']; simp)
    refine ⟨?_, .inr (List.ne_nil_of_mem hq)⟩
    simp only [List.map_append, List.sum_append, List.map_cons, List.map_nil, List.sum_cons,
      List.sum_nil] at hle
    omega

theorem Served.stays {h : Nat} (hst : Steady lib s) {op : Op} (hd : op.Defined lib s)
    (hs : Served h s) : Served h (op.apply lib s) := by
  obtain ⟨new, hlog⟩ := steps_log (apply_steady op hst hd).1 hst.inv
  unfold Served
  rw [hlog, sentOut_append, withdrawn_append]
  rcases hs with hs | hs | hs
  · exact .inl (List.mem_append_left _ hs)
  · exact .inr (.inl (List.mem_append_left _ hs))
  · exact .inr (.inr (apply_failed hst hs op))

/-- A request that is ahead counts the bytes down. -/
theorem countdown (lib : Lib) (r : Request) :
    LTS.Countdown (service lib) (fun s => (service lib).Reachable s ∧ r ∈ accepted s.log)
      (Served r.handler) Op.Writable (ahead lib r.handler) where
  keeps := by
    rintro s op t ⟨h, hr⟩ ⟨hd, rfl⟩
    refine ⟨h.step (l := op) ⟨hd, rfl⟩, ?_⟩
    obtain ⟨new, hlog⟩ := steps_log (apply_steady op (steady h) hd).1 (steady h).inv
    rw [hlog, accepted_append]
    exact List.mem_append_left _ hr
  stays := by
    rintro s op t ⟨h, -⟩ ⟨hd, rfl⟩ hs
    exact hs.stays (steady h) hd
  le := by
    rintro s op t ⟨h, hr⟩ ⟨hd, rfl⟩ -
    have hst := steady h
    have hsteps := (apply_steady op hst hd).1
    have h1 := ahead_le hsteps hst.inv (accepted_issued hr)
    have h2 := (Steps.sent_prefix hsteps).length_le
    unfold ahead
    omega
  lt := by
    rintro s op t ⟨h, hr⟩ ⟨hd, rfl⟩ hm hn
    have hst := steady h
    have hsteps := (apply_steady op hst hd).1
    have hn' : ¬ Served r.handler s := fun hs => hn (hs.stays hst hd)
    have h1 := ahead_le hsteps hst.inv (accepted_issued hr)
    obtain ⟨h2, hwork⟩ := unserved h hr hn'
    match op with
    | .submit _ _ _ _ => exact absurd hm id
    | .remove _ => exact absurd hm id
    | .run io fds =>
      have hf : s.failed = false := by
        simp only [Served, not_or, Bool.not_eq_true] at hn'
        exact hn'.2.2
      have h3 := (run_progress h hf fds hm hwork).resolve_left fun hf' => hn (.inr (.inr hf'))
      have h4 : s.socket.sent.length < ((Op.run io fds).apply lib s).socket.sent.length := h3
      unfold ahead
      omega

theorem ahead_pos (h : (service lib).Reachable s) {r : Request} (hr : r ∈ accepted s.log)
    (hn : ¬ Served r.handler s) : 0 < ahead lib r.handler s := by
  have := (unserved h hr hn).1
  unfold ahead
  omega

/-- **No request starves**: once there have been as many Runs on a writable
descriptor as there are bytes to go out up to its end, it has been written or
removed, or the service has failed. Submissions in the meantime do not count. -/
theorem no_starvation (h : (service lib).Reachable s) {ops : List Op}
    (hrun : (service lib).Run s ops t) {r : Request} (hr : r ∈ accepted s.log)
    (hcount : ahead lib r.handler s ≤ ops.countP (fun op => decide op.Writable)) :
    Served r.handler t :=
  (countdown lib r).reaches (fun _ hu => ahead_pos hu.1 hu.2) hrun ⟨h, hr⟩ hcount

theorem run_play {s : NonblockingPacketService} (ops : List Op) (hl : Legal lib s ops) :
    (service lib).Run s ops (play lib s ops) := by
  induction ops generalizing s with
  | nil => exact .nil s
  | cons op ops ih => exact .cons ⟨hl.1, rfl⟩ (ih hl.2)

/-- A byte a `Run`, and a new request before each of them. -/
def busy (n : Nat) : List Op :=
  (List.replicate n [.submit [] {} {} [3],
    .run { writes := [.intr, .count 1, .again] } ⟨[], [], 0⟩]).flatten

def twoQueued : NonblockingPacketService :=
  play Codec.plain (create 5 1 [] 0) [.submit [] {} {} [1], .submit [] {} {} [2]]

theorem no_starvation_busy :
    ahead Codec.plain 1 twoQueued = 36 ∧ Served 1 (play Codec.plain twoQueued (busy 36)) := by
  have hsecond : ∃ r ∈ accepted twoQueued.log, r.handler = 1 := by decide +kernel
  obtain ⟨r, hr, hh⟩ := hsecond
  refine ⟨by decide +kernel, ?_⟩
  rw [← hh]
  exact no_starvation (reachable_session _ (by decide +kernel)) (run_play _ (by decide +kernel)) hr
    (by rw [hh]; decide +kernel)

end Kinetic.L2
