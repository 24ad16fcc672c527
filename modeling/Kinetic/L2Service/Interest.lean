import Kinetic.L2Service.Completion

/-!
# What `Run` waits for

`Run` answers with the descriptors its caller is to wait on before the next
call. The write side is computed from the status of `Send`, which is over when
`Receive` runs the callbacks; a request that a callback submits is then queued
without the descriptor being in `write_fds`, unless a packet was partly written
anyway (`run_wakes_iff`).
-/
open Kinetic.Core

namespace Kinetic.L2

open L1 NonblockingPacketService

variable {lib : Lib} {s t u : NonblockingPacketService}

/-- A request has been submitted between `u` and `t` that has not been removed. -/
def Submitted (u t : NonblockingPacketService) : Prop :=
  ∃ r ∈ accepted (t.log.drop u.log.length), r.handler ∉ withdrawn t.log

instance : Decidable (Submitted u t) := inferInstanceAs (Decidable (∃ r ∈ _, _))

/-- Waiting on the descriptors misses nothing that could be sent or received. -/
structure Wakes (fds : FdSets) (t : NonblockingPacketService) : Prop where
  write : t.sender.requestQueue ≠ [] ∨ t.sender.currentWriter ≠ none → t.socket.fd ∈ fds.write
  read : t.receiver.map ≠ ∅ ∨ t.receiver.nonblockingResponse ≠ none → t.socket.fd ∈ fds.read
  nfds : fds.nfds = t.socket.fd + 1 ↔ t.socket.fd ∈ fds.read ∨ t.socket.fd ∈ fds.write

theorem interest_spec (fd : Nat) (st rt : NonblockingPacketServiceStatus) :
    (fd ∈ (interest fd st rt).write ↔ st = .ioWait) ∧
    (fd ∈ (interest fd st rt).read ↔ rt = .ioWait) ∧
    ((interest fd st rt).nfds = fd + 1 ↔ rt = .ioWait ∨ st = .ioWait) := by
  unfold interest
  cases st <;> cases rt <;> simp

/-- The queue that `Receive` leaves, where it found it empty, holds what its
callbacks have submitted. -/
theorem receive_queue_iff (hu : Settles lib s u) (ht : Settles lib u t) (hr : ReceiveFrame u t)
    (hrec : Records lib t) (hq : u.sender.requestQueue = []) (hh : u.sender.handler = none)
    (hf : u.failed = false) : t.sender.requestQueue = [] ↔ ¬ Submitted u t := by
  obtain ⟨new, hlog⟩ := hr.log
  have hdrop : t.log.drop u.log.length = new := by rw [hlog, List.drop_left]
  have hht : t.sender.handler = none := by rw [hr.sender]; exact hh
  have hissued : ∀ x ∈ issued new, x ∉ issued u.log := by
    intro x hx hu
    have := ht.inv.ledger.issued_once x
    rw [hlog, issued_append, List.count_append] at this
    have := List.count_pos_iff.2 hx
    have := List.count_pos_iff.2 hu
    omega
  constructor
  · rintro hqt ⟨r, hacc, hw⟩
    rw [hdrop] at hacc
    have hnew := hissued _ (accepted_issued hacc)
    have hi : r.handler ∈ issued t.log := by
      rw [hlog, issued_append]
      exact List.mem_append_right _ (accepted_issued hacc)
    have hold : ∀ {x : Nat}, x ∈ held u ∨ x ∈ settled u.log → x ∈ issued u.log := by
      rintro x (hx | hx)
      · exact hu.inv.ledger.held_issued hx
      · exact hu.inv.ledger.settled_issued hx
    by_cases hheld : r.handler ∈ held t
    · -- the map has lost entries only, and the sender has no current handler
      simp only [held, hqt, hht, Option.toList_none, List.map_nil, List.nil_append,
        List.mem_map] at hheld
      obtain ⟨⟨x, key⟩, hx, rfl⟩ := hheld
      obtain ⟨seq, hm⟩ := Dict.mem_values_iff.1 hx
      exact hnew (hold (.inl (Inv.mem_held_of_map (hr.map _ _ hm))))
    · rcases ht.inv.ledger.accounted hi hheld with hs | hs
      · rcases hr.old _ hs with hs | hs | ⟨seq, key, hs⟩
        · exact hnew (hold (.inr hs))
        · rw [hf] at hs; cases hs
        · exact hnew (hold (.inl (Inv.mem_held_of_map hs)))
      · exact hw hs
  · intro hn
    rw [List.eq_nil_iff_forall_not_mem]
    intro r hrq
    refine hn ⟨r, ?_, ?_⟩
    · have hacc := hrec.queued r hrq
      rw [hlog, accepted_append, List.mem_append] at hacc
      rw [hdrop]
      refine hacc.resolve_left fun hacc => ?_
      rcases hr.queue r hrq with hq' | hlt
      · rw [hq] at hq'; cases hq'
      · have := hu.inv.issued_lt _ (accepted_issued hacc)
        omega
    · have hheld : r.handler ∈ held t := List.mem_append_left _ (List.mem_map.2 ⟨r, hrq, rfl⟩)
      exact (ht.inv.ledger.live hheld (ht.inv.waiting r hrq)).2

/-- **No lost wake-up**, exactly if `Send` left a packet partly written or the
callbacks of `Receive` submitted nothing that stays. -/
theorem run_wakes_iff (h : (service lib).Reachable s) (io : Io) (fds : FdSets)
    (hf : s.failed = false) (hr : ((s.supply io).run lib fds).1 = true) :
    Wakes ((s.supply io).run lib fds).2.1 ((s.supply io).run lib fds).2.2 ↔
      (NonblockingSender.send lib (s.supply io)).1 = .ioWait ∨
      ¬ Submitted (NonblockingSender.send lib (s.supply io)).2 ((s.supply io).run lib fds).2.2 := by
  obtain ⟨hsup, hst⟩ := supply_steady io (steady h)
  have hf' : (s.supply io).failed = false := hf
  obtain ⟨a, b, c, -, a', b', c'⟩ := sendReceive_moves hst hf'
  have hfu : (NonblockingSender.send lib (s.supply io)).2.failed = false := b.failed.trans hf'
  have hrec : Records lib
      (NonblockingReceiver.receive lib (NonblockingSender.send lib (s.supply io)).2).2 :=
    Steps.carry (fun _ _ hi hp hs => Records.step hi hp hs)
      ((hsup.trans a.steps).trans a'.steps) (steady h).inv (records h)
  rcases run_cases hf' fds with ⟨-, he⟩ | ⟨-, -, he⟩ | ⟨h1, h2, he⟩
  · rw [he] at hr; cases hr
  · rw [he] at hr; cases hr
  rw [he]
  dsimp only
  generalize NonblockingSender.send lib (s.supply io) = su at a b c a' b' c' hfu hrec h1 h2 ⊢
  obtain ⟨st, u⟩ := su
  dsimp only at a b c a' b' c' hfu hrec h1 h2 ⊢
  generalize NonblockingReceiver.receive lib u = rt at a' b' c' hrec h2 ⊢
  obtain ⟨rst, t⟩ := rt
  dsimp only at a' b' c' hrec h2 ⊢
  obtain ⟨hw, hrd, hn⟩ := interest_spec t.socket.fd st rst
  have hread : t.receiver.map ≠ ∅ ∨ t.receiver.nonblockingResponse ≠ none →
      t.socket.fd ∈ (interest t.socket.fd st rst).read := by
    intro hne
    rw [hrd]
    cases rst with
    | ioWait => rfl
    | error => exact absurd rfl h2
    | idle =>
      obtain ⟨h3, h4⟩ := c'.idle rfl
      exact absurd hne (by simp [h3, h4])
  have hnfds : (interest t.socket.fd st rst).nfds = t.socket.fd + 1 ↔
      t.socket.fd ∈ (interest t.socket.fd st rst).read ∨
      t.socket.fd ∈ (interest t.socket.fd st rst).write := by
    rw [hn, hrd, hw]
  cases st with
  | error => exact absurd rfl h1
  | ioWait => exact ⟨fun _ => .inl rfl, fun _ => ⟨fun _ => hw.2 rfl, hread, hnfds⟩⟩
  | idle =>
    obtain ⟨h3, h4, h5⟩ := c.idle rfl
    have hwt : t.sender.currentWriter = none := by rw [b'.sender]; exact h3
    have hiff := receive_queue_iff a a' b' hrec h5 h4 hfu
    constructor
    · intro hwk
      refine .inr (hiff.1 ?_)
      by_contra hne
      exact absurd (hw.1 (hwk.write (.inl hne))) (by simp)
    · rintro (hi | hns)
      · cases hi
      · refine ⟨fun hne => ?_, hread, hnfds⟩
        exact absurd hne (by simp [hiff.2 hns, hwt])

/-- One request is written, and its response arrives. -/
def answeredOnce : Io where
  writes := [.count 1, .count 4, .count 4, .count 8]
  arrives := [0x46, 0, 0, 0, 10, 0, 0, 0, 0, 0x3A, 8, 0x0A, 2, 0x30, 0, 0x1A, 2, 8, 1]
  reads := [.count 1, .count 4, .count 4, .count 10]

/-- The same, the callback submitting the next request. -/
def chained : Io := { answeredOnce with scripts := [[.submit {} {} []]] }

theorem run_wakes_iff_answeredOnce :
    let s := play Codec.plain (create 5 1 [] 0) [.submit [] {} {} []]
    Wakes ((s.supply answeredOnce).run Codec.plain ⟨[], [], 0⟩).2.1
      ((s.supply answeredOnce).run Codec.plain ⟨[], [], 0⟩).2.2 := by
  intro s
  rw [run_wakes_iff (reachable_session _ (by decide +kernel)) _ _ (by decide +kernel)
    (by decide +kernel)]
  decide +kernel

/-- A callback that submits the next request goes to sleep on it. -/
theorem run_sleeps_on_chained :
    ¬ ∀ (lib : Lib) (s : NonblockingPacketService) (io : Io) (fds : FdSets),
      (service lib).Reachable s → s.failed = false → ((s.supply io).run lib fds).1 = true →
      Wakes ((s.supply io).run lib fds).2.1 ((s.supply io).run lib fds).2.2 := by
  intro hall
  have h := (hall Codec.plain (play Codec.plain (create 5 1 [] 0) [.submit [] {} {} []])
    chained ⟨[], [], 0⟩ (reachable_session _ (by decide +kernel)) (by decide +kernel)
    (by decide +kernel)).write (.inl (by decide +kernel))
  revert h
  decide +kernel

end Kinetic.L2
