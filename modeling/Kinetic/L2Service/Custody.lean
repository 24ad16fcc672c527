import Kinetic.Core.Ledger
import Kinetic.L2Service.Step

/-!
# Every handler is in one place

A handler passes from the queue to the sender, from there to the receiver's
map, and out of it when it is called. The numbers that name it on the way
(handler, key, sequence) are one and the same, and the ledger of the log says
that it is called at most once, and not after it was removed. All of this is
kept by every move.

**Invariant (`Inv`).**
* `live`, `bound`: the counters agree as long as the service has not failed, and the
  sequence number is an `int64_t`.
* `queue`, `current`, `map`: whoever is held is held under its own number.
* `waiting`, `called`: nobody in the queue has been called, and an entry of the map
  whose key is gone has been.
* `back`: a key of the second map leads to an entry of the first.
* `ledger`: each handler issued is in exactly one place (`Ledger.Balanced`).

**Results.**
* `accept`, `refuse`: `Submit`.
* `complete`, `writeFail`, `failOne`, `failQueued`, `answered`: calls of handlers.
* `removeQueued`, `removeAwaiting`: `Remove`.
* `start`, `finish`, `letGo`, `forget`, `clear`: a handler is passed on or dropped.
* `Inv.step`, `Inv.steps`: every move keeps the invariant, and so does every run.
-/
open Kinetic.Core

namespace Kinetic.L2

open L1

/-- The handlers someone holds: the queue, the sender's current handler, the
receiver's map. -/
def held (s : NonblockingPacketService) : List Nat :=
  s.sender.requestQueue.map (·.handler) ++
    (s.sender.handler.toList ++ s.receiver.map.values.map Prod.fst)

/-- One number, below `n`, serves as handler, key and sequence. -/
structure Numbered (n : Int) (r : Request) : Prop where
  key : r.handlerKey = r.handler
  sequence : r.command.getSequence = r.handler
  lt : (r.handler : Int) < n

/-- The invariant: accepted requests are numbered in order, wherever they are;
the receiver's second map is half an inverse of the first, lacking just the
handlers already called; and every handler is in one place. -/
structure Inv (s : NonblockingPacketService) : Prop where
  le : s.sender.sequenceNumber ≤ s.handlers
  nonneg : 0 ≤ s.sender.sequenceNumber
  bound : s.sender.sequenceNumber < 2 ^ 63
  live : s.failed = false → s.nextKey = s.handlers ∧ s.sender.sequenceNumber = s.handlers
  issued_lt : ∀ h ∈ issued s.log, h < s.handlers
  queue : ∀ r ∈ s.sender.requestQueue, Numbered s.sender.sequenceNumber r
  waiting : ∀ r ∈ s.sender.requestQueue, r.handler ∉ settled s.log
  current : ∀ h, s.sender.handler = some h → s.sender.handlerKey = h ∧
    s.sender.messageSequence = h ∧ (h : Int) < s.sender.sequenceNumber
  map : ∀ seq h key, s.receiver.map.find seq = some (h, key) → seq = h ∧ key = h ∧
    (h : Int) < s.sender.sequenceNumber
  back : ∀ key seq, s.receiver.handlerToMessageSeqMap.find key = some seq →
    ∃ h, s.receiver.map.find seq = some (h, key)
  called : ∀ seq h key, s.receiver.map.find seq = some (h, key) →
    (s.receiver.handlerToMessageSeqMap.find key = none ↔ h ∈ settled s.log)
  ledger : Ledger.Balanced (issued s.log) (settled s.log) (withdrawn s.log) (held s)

namespace Inv

variable {s t : NonblockingPacketService}

theorem frame (h : Inv s) (hq : t.sender.requestQueue = s.sender.requestQueue)
    (hh : t.sender.handler = s.sender.handler) (hk : t.sender.handlerKey = s.sender.handlerKey)
    (hm : t.sender.messageSequence = s.sender.messageSequence)
    (hn : t.sender.sequenceNumber = s.sender.sequenceNumber)
    (hmap : t.receiver.map = s.receiver.map)
    (hback : t.receiver.handlerToMessageSeqMap = s.receiver.handlerToMessageSeqMap)
    (hf : t.failed = false → s.failed = false) (hkey : t.nextKey = s.nextKey)
    (hc : t.handlers = s.handlers) (hi : issued t.log = issued s.log)
    (hs : settled t.log = settled s.log) (hw : withdrawn t.log = withdrawn s.log) : Inv t := by
  obtain ⟨h1, h2, h3, h4, h5, h6, h6', h7, h8, h9, h10, h11⟩ := h
  have hheld : held t = held s := by rw [held, held, hq, hh, hmap]
  refine ⟨by rw [hn, hc]; exact h1, by rw [hn]; exact h2, by rw [hn]; exact h3,
    fun hft => by rw [hkey, hc, hn]; exact h4 (hf hft), by rw [hi, hc]; exact h5, ?_,
    by rw [hq, hs]; exact h6', ?_, ?_, ?_, ?_, by rw [hi, hs, hw, hheld]; exact h11⟩
  · rw [hq, hn]; exact h6
  · rw [hh, hk, hm, hn]; exact h7
  · rw [hmap, hn]; exact h8
  · rw [hmap, hback]; exact h9
  · rw [hmap, hback, hs]; exact h10

theorem back_entry (h : Inv s) {key : Nat} {seq : Int}
    (hb : s.receiver.handlerToMessageSeqMap.find key = some seq) :
    seq = (key : Int) ∧ s.receiver.map.find seq = some (key, key) ∧ key ∉ settled s.log := by
  obtain ⟨h', hm⟩ := h.back key seq hb
  obtain ⟨hseq, hkey, -⟩ := h.map seq h' key hm
  subst hkey
  refine ⟨hseq, hm, fun hs => ?_⟩
  have := (h.called seq key key hm).2 hs
  rw [hb] at this; cases this

theorem mem_held_of_map (h : s.receiver.map.find seq = some (x, key)) : x ∈ held s := by
  simp only [held, List.mem_append, List.mem_map]
  exact .inr (.inr ⟨(x, key), Dict.mem_values_iff.2 ⟨seq, h⟩, rfl⟩)

theorem held_count (s : NonblockingPacketService) (a : Nat) :
    (held s).count a = (s.sender.requestQueue.map (·.handler)).count a +
      (s.sender.handler.toList.count a + (s.receiver.map.values.map Prod.fst).count a) := by
  simp only [held, List.count_append]

theorem count_erase {m : Dict Int (Nat × Nat)} {seq : Int} {x : Nat}
    {key : Nat} (h : m.find seq = some (x, key)) (a : Nat) :
    (m.values.map Prod.fst).count a =
      ((m.erase seq).values.map Prod.fst).count a + if a = x then 1 else 0 := by
  obtain ⟨l₁, l₂, h1, h2⟩ := Dict.values_erase h
  rw [h1, h2]
  simp only [List.map_append, List.map_cons, List.count_append, List.count_cons]
  by_cases he : a = x
  · subst he; simp; omega
  · have : (x == a) = false := by simpa using fun e => he e.symm
    simp [this, he]

theorem count_eraseP {q : List Request} {key : Nat} {r : Request}
    (h : q.find? (·.handlerKey == key) = some r) (a : Nat) :
    (q.map (·.handler)).count a =
      ((q.eraseP (·.handlerKey == key)).map (·.handler)).count a + if a = r.handler then 1 else 0 := by
  induction q with
  | nil => simp at h
  | cons x q ih =>
    by_cases hx : (x.handlerKey == key) = true
    · rw [List.find?_cons_of_pos (by exact hx)] at h
      obtain rfl := Option.some.inj h
      rw [List.eraseP_cons_of_pos (by exact hx), List.map_cons, List.count_cons]
      by_cases he : a = x.handler
      · subst he; simp
      · have : (x.handler == a) = false := by simpa using fun e => he e.symm
        simp [this, he]
    · rw [List.find?_cons_of_neg (by exact hx)] at h
      rw [List.eraseP_cons_of_neg (by exact hx), List.map_cons, List.map_cons, List.count_cons,
        List.count_cons, ih h]
      omega

theorem accept (h : Inv s) (lib : Lib) (m : Message) (c : Command) (v : Bytes)
    (hf : s.failed = false) (hd : s.submitDefined = true) :
    Inv (NonblockingSender.enqueue lib m c v s.handlers s.nextKey s.count) := by
  obtain ⟨r, he, hr, hk, -, hseq, -⟩ := enqueue_spec lib m c v s.handlers s.nextKey s.count
  have hlive := h.live hf
  have hlt : s.sender.sequenceNumber < 2 ^ 63 - 1 := by
    simpa [NonblockingPacketService.submitDefined, hf] using hd
  have hfresh : s.handlers ∉ issued s.log := fun hm => Nat.lt_irrefl _ (h.issued_lt _ hm)
  rw [he]
  refine ⟨?_, ?_, ?_, ?_, ?_, ?_, ?_, ?_, ?_, h.back, ?_, ?_⟩
  all_goals dsimp only [NonblockingPacketService.count]
  · have := h.le
    omega
  · have := h.nonneg
    omega
  · omega
  · intro _
    have := h.nonneg
    omega
  · intro x hx
    rw [issued_append, List.mem_append] at hx
    rcases hx with hx | hx
    · exact Nat.lt_succ_of_lt (h.issued_lt x hx)
    · simp only [issued, List.filterMap_cons, List.filterMap_nil, List.mem_singleton] at hx
      omega
  · intro x hx
    rcases List.mem_append.1 hx with hx | hx
    · obtain ⟨h1, h2, h3⟩ := h.queue x hx
      exact ⟨h1, h2, Int.lt_trans h3 (Int.lt_succ _)⟩
    · obtain rfl := List.mem_singleton.1 hx
      have hr' : (x.handler : Int) = s.sender.sequenceNumber := by rw [hr]; exact hlive.2.symm
      exact ⟨by rw [hk, hr]; exact hlive.1, by rw [hseq, hr']; rfl, by rw [hr']; exact Int.lt_succ _⟩
  · intro x hx
    rw [settled_append, show settled [Event.submitted r] = [] from rfl, List.append_nil]
    rcases List.mem_append.1 hx with hx | hx
    · exact h.waiting x hx
    · obtain rfl := List.mem_singleton.1 hx
      exact fun hs => hfresh (hr ▸ h.ledger.settled_issued hs)
  · intro x hx
    obtain ⟨h1, h2, h3⟩ := h.current x hx
    exact ⟨h1, h2, Int.lt_trans h3 (Int.lt_succ _)⟩
  · intro seq x key hm
    obtain ⟨h1, h2, h3⟩ := h.map seq x key hm
    exact ⟨h1, h2, Int.lt_trans h3 (Int.lt_succ _)⟩
  · intro seq x key hm
    rw [h.called seq x key hm]
    simp [settled, completions]
  · have := h.ledger.issue ((s.sender.requestQueue ++ [r]).map (·.handler) ++
      (s.sender.handler.toList ++ s.receiver.map.values.map Prod.fst)) hfresh fun b => by
      rw [held_count]
      simp only [List.map_append, List.count_append, List.map_cons, List.map_nil, hr,
        List.count_singleton]
      by_cases hb : b = s.handlers
      · subst hb; simp; omega
      · have : (s.handlers == b) = false := by simpa using fun e => hb e.symm
        simp only [this, hb]; simp
    simpa [held, issued, settled, completions, withdrawn, hr] using this

theorem refuse (h : Inv s) (hf : s.failed = true) :
    Inv ((s.count.emit (.refused s.handlers s.nextKey)).emit
      (.completed (.error s.handlers alreadyShutDown none))) := by
  have hfresh : s.handlers ∉ issued s.log := fun hm => Nat.lt_irrefl _ (h.issued_lt _ hm)
  refine ⟨?_, h.nonneg, h.bound, ?_, ?_, ?_, ?_, h.current, h.map, h.back, ?_, ?_⟩
  all_goals dsimp only [NonblockingPacketService.count, NonblockingPacketService.emit]
  · have := h.le
    omega
  · intro hl
    rw [hf] at hl; cases hl
  · intro x hx
    rw [issued_append, issued_append, List.mem_append, List.mem_append] at hx
    rcases hx with (hx | hx) | hx
    · exact Nat.lt_succ_of_lt (h.issued_lt x hx)
    · simp only [issued, List.filterMap_cons, List.filterMap_nil, List.mem_singleton] at hx
      omega
    · simp [issued] at hx
  · exact h.queue
  · intro r hr hs
    have := (h.queue r hr).lt
    have := h.le
    simp [settled, completions, Completion.handler] at hs
    rcases hs with ⟨c, hc, he⟩ | hs
    · exact h.waiting r hr (List.mem_map.2 ⟨c, by simpa [completions] using hc, he⟩)
    · omega
  · intro seq x key hm
    have hne : x ≠ s.handlers := by
      have h3 := (h.map seq x key hm).2.2
      have := h.le
      omega
    rw [h.called seq x key hm]
    simp [settled, completions, Completion.handler, hne]
  · have := h.ledger.issue_settle hfresh
    simpa [held, issued, settled, completions, withdrawn, Completion.handler] using this

/-! ## Nobody is in two places -/

theorem queue_ne_current (h : Inv s) {r : Request} {x : Nat} (hr : r ∈ s.sender.requestQueue)
    (hx : s.sender.handler = some x) : r.handler ≠ x := by
  intro he
  have h1 := h.ledger.held_once x
  have h2 : 0 < (s.sender.requestQueue.map (·.handler)).count x :=
    List.count_pos_iff.2 (List.mem_map.2 ⟨r, hr, he⟩)
  rw [held_count, hx] at h1
  simp only [Option.toList_some, List.count_singleton_self] at h1
  omega

theorem queue_ne_map (h : Inv s) {r : Request} {seq : Int} {x key : Nat}
    (hr : r ∈ s.sender.requestQueue) (hm : s.receiver.map.find seq = some (x, key)) :
    r.handler ≠ x := by
  intro he
  have h1 := h.ledger.held_once x
  have h2 : 0 < (s.sender.requestQueue.map (·.handler)).count x :=
    List.count_pos_iff.2 (List.mem_map.2 ⟨r, hr, he⟩)
  have h3 := count_erase hm x
  rw [held_count] at h1
  simp only [if_true] at h3
  omega

theorem current_ne_map (h : Inv s) {seq : Int} {x y key : Nat} (hx : s.sender.handler = some x)
    (hm : s.receiver.map.find seq = some (y, key)) : x ≠ y := by
  rintro rfl
  have h1 := h.ledger.held_once x
  have h3 := count_erase hm x
  rw [held_count, hx] at h1
  simp only [if_true, Option.toList_some, List.count_singleton_self] at h1 h3
  omega

theorem head_ne_rest (h : Inv s) {r r' : Request} {rest : List Request}
    (hq : s.sender.requestQueue = r :: rest) (hr : r' ∈ rest) : r'.handler ≠ r.handler := by
  intro he
  have h1 := h.ledger.held_once r.handler
  have h2 : 0 < (rest.map (·.handler)).count r.handler :=
    List.count_pos_iff.2 (List.mem_map.2 ⟨r', hr, he⟩)
  rw [held_count, hq] at h1
  simp only [List.map_cons, List.count_cons_self] at h1
  omega

/-! ## Handlers are called -/

/-- A call of a handler that is held and has not been called, and is not in the
queue; the receiver forgets its key. -/
theorem complete (h : Inv s) {c : Completion} (hl : t = { s with
      receiver := { t.receiver with map := s.receiver.map },
      log := s.log ++ [.completed c] })
    (hheld : c.handler ∈ held s) (hun : c.handler ∉ settled s.log)
    (hq : ∀ r ∈ s.sender.requestQueue, r.handler ≠ c.handler)
    (hback : ∀ key, t.receiver.handlerToMessageSeqMap.find key =
      if key = c.handler then none else s.receiver.handlerToMessageSeqMap.find key) : Inv t := by
  have hmap : t.receiver.map = s.receiver.map := by rw [hl]
  have hlog : t.log = s.log ++ [.completed c] := by rw [hl]
  have hsender : t.sender = s.sender := by rw [hl]
  have hheld' : held t = held s := by rw [held, held, hsender, hmap]
  have hset : settled t.log = settled s.log ++ [c.handler] := by rw [hlog, settled_completed]
  have hhand : t.handlers = s.handlers := by rw [hl]
  have hiss : issued t.log = issued s.log := by rw [hlog]; simp [issued]
  refine ⟨?_, ?_, ?_, ?_, ?_, ?_, ?_, ?_, ?_, ?_, ?_, ?_⟩
  · rw [hsender, hhand]; exact h.le
  · rw [hsender]; exact h.nonneg
  · rw [hsender]; exact h.bound
  · rw [hl]; exact h.live
  · rw [hiss, hhand]; exact h.issued_lt
  · rw [hsender]; exact h.queue
  · rw [hsender, hset]
    intro r hr hs
    rcases List.mem_append.1 hs with hs | hs
    · exact h.waiting r hr hs
    · exact hq r hr (List.mem_singleton.1 hs)
  · rw [hsender]; exact h.current
  · rw [hmap, hsender]; exact h.map
  · intro key seq hb
    rw [hback] at hb
    split at hb
    · cases hb
    · rw [hmap]; exact h.back key seq hb
  · rw [hmap, hset]
    intro seq x key hm
    obtain ⟨-, rfl, -⟩ := h.map seq x key hm
    rw [hback]
    split
    · rename_i he
      simp [he]
    · rename_i he
      rw [h.called seq key key hm]
      simp [he]
  · have := h.ledger.settle hheld hun
    rw [hheld', hset, hiss, show withdrawn t.log = withdrawn s.log by rw [hlog]; simp [withdrawn]]
    exact this

theorem forget (h : Inv s) {m : Dict Int (Nat × Nat)}
    (hsub : ∀ seq e, m.find seq = some e → s.receiver.map.find seq = some e)
    (hkeep : ∀ seq x key, s.receiver.map.find seq = some (x, key) → x ∉ settled s.log →
      m.find seq = some (x, key))
    (hle : ∀ a, (m.values.map Prod.fst).count a ≤ (s.receiver.map.values.map Prod.fst).count a)
    (heq : ∀ a, a ∉ settled s.log →
      (m.values.map Prod.fst).count a = (s.receiver.map.values.map Prod.fst).count a) :
    Inv { s with receiver.map := m } := by
  refine ⟨h.le, h.nonneg, h.bound, h.live, h.issued_lt, h.queue, h.waiting, h.current,
    fun seq x key hm => h.map seq x key (hsub seq _ hm), fun key seq hb => ?_,
    fun seq x key hm => h.called seq x key (hsub seq _ hm), ?_⟩
  · obtain ⟨-, hm, hns⟩ := h.back_entry hb
    exact ⟨key, hkeep seq key key hm hns⟩
  · refine h.ledger.discard _ (fun a => ?_) (fun a ha => ?_)
    · rw [held_count, held_count]
      have := hle a
      dsimp only; omega
    · rw [held_count, held_count]
      have := heq a ha
      dsimp only; omega

theorem clear (h : Inv s)
    (hs : ∀ seq x key, s.receiver.map.find seq = some (x, key) → x ∈ settled s.log) :
    Inv { s with receiver.map := ∅ } := by
  refine h.forget (fun seq e hm => by simp at hm) (fun seq x key hm hx => absurd (hs seq x key hm) hx)
    (fun a => by simp) (fun a ha => ?_)
  rw [Dict.values_empty, List.map_nil, List.count_nil, eq_comm, List.count_eq_zero]
  intro hm
  obtain ⟨⟨x, key⟩, hv, rfl⟩ := List.mem_map.1 hm
  obtain ⟨seq, hf⟩ := Dict.mem_values_iff.1 hv
  exact ha (hs seq x key hf)

theorem eraseCalled (h : Inv s) {seq : Int} {x key : Nat}
    (hm : s.receiver.map.find seq = some (x, key)) (hx : x ∈ settled s.log) :
    Inv { s with receiver.map := s.receiver.map.erase seq } := by
  refine h.forget (fun q e hq => ?_) (fun q y k hq hy => ?_) (fun a => ?_) (fun a ha => ?_)
  · rw [Dict.find_erase] at hq
    split at hq
    · cases hq
    · exact hq
  · rw [Dict.find_erase, if_neg]
    · exact hq
    · rintro rfl
      rw [hm] at hq; cases hq; exact hy hx
  · have := count_erase hm a; omega
  · have := count_erase hm a
    rw [if_neg (fun e => ha (by rw [e]; exact hx))] at this
    omega

theorem writeFail (h : Inv s) {x : Nat} (status : KineticStatus) (hx : s.sender.handler = some x)
    (hun : x ∉ settled s.log) : Inv (s.emit (.completed (.error x status none))) := by
  have hne : s.receiver.handlerToMessageSeqMap.find x = none := by
    cases hb : s.receiver.handlerToMessageSeqMap.find x with
    | none => rfl
    | some seq => exact absurd rfl (h.current_ne_map hx (h.back_entry hb).2.1)
  refine h.complete (c := .error x status none) rfl ?_ hun (fun r hr => h.queue_ne_current hr hx)
    (fun key => ?_)
  · simp only [held, hx, Completion.handler, Option.toList_some, List.mem_append,
      List.mem_singleton, true_or, or_true]
  · show s.receiver.handlerToMessageSeqMap.find key = if key = x then none else _
    split
    · rename_i he; rw [he, hne]
    · rfl

theorem failOne (h : Inv s) {seq : Int} {x key : Nat} (status : KineticStatus)
    (hm : s.receiver.map.find seq = some (x, key))
    (hb : s.receiver.handlerToMessageSeqMap.find key = some seq) :
    Inv (NonblockingPacketService.emit { s with
      receiver.handlerToMessageSeqMap := s.receiver.handlerToMessageSeqMap.erase key }
      (.completed (.error x status none))) := by
  obtain ⟨-, rfl, -⟩ := h.map seq x key hm
  exact h.complete (c := .error key status none) rfl (mem_held_of_map hm) (h.back_entry hb).2.2
    (fun r hr => h.queue_ne_map hr hm) fun k => Dict.find_erase ..

theorem letGo (h : Inv s) (hs : ∀ x, s.sender.handler = some x → x ∈ settled s.log) :
    Inv (NonblockingSender.resetHandler s) := by
  refine ⟨h.le, h.nonneg, h.bound, h.live, h.issued_lt, h.queue, h.waiting, ?_, h.map, h.back,
    h.called, ?_⟩
  · intro x hx; cases hx
  · refine h.ledger.discard _ (fun a => ?_) (fun a ha => ?_)
    · rw [held_count, held_count]
      simp [NonblockingSender.resetHandler]
    · have h0 : s.sender.handler.toList.count a = 0 := by
        rw [List.count_eq_zero]
        intro hm
        exact ha (hs a (by simpa using hm))
      rw [held_count, held_count, h0]
      simp [NonblockingSender.resetHandler]

theorem failQueued (h : Inv s) {r : Request} {rest : List Request} (status : KineticStatus)
    (hq : s.sender.requestQueue = r :: rest) :
    Inv (NonblockingPacketService.emit { s with sender.requestQueue := rest }
      (.completed (.error r.handler status none))) := by
  have hr : r ∈ s.sender.requestQueue := by rw [hq]; exact List.mem_cons_self
  have hrest : ∀ r' ∈ rest, r' ∈ s.sender.requestQueue := fun r' h' => by
    rw [hq]; exact List.mem_cons_of_mem _ h'
  have hset : settled (s.log ++ [.completed (.error r.handler status none)]) =
      settled s.log ++ [r.handler] := settled_completed s.log (.error r.handler status none)
  refine ⟨h.le, h.nonneg, h.bound, h.live, ?_, fun r' h' => ?_, fun r' h' => ?_, h.current, h.map,
    h.back, fun seq x key hm => ?_, ?_⟩
  all_goals simp only [NonblockingPacketService.emit_log]
  · intro x hx
    refine h.issued_lt x ?_
    simpa [issued] using hx
  · exact h.queue r' (hrest r' h')
  · rw [hset, List.mem_append, List.mem_singleton]
    rintro (hs | hs)
    · exact h.waiting r' (hrest r' h') hs
    · exact h.head_ne_rest hq h' hs
  · have hne := h.queue_ne_map hr hm
    rw [hset, List.mem_append, List.mem_singleton]
    refine (h.called seq x key hm).trans ⟨.inl, ?_⟩
    rintro (hs | hs)
    · exact hs
    · exact absurd hs.symm hne
  · have hheld : r.handler ∈ held s := by
      simp only [held, hq, List.map_cons, List.cons_append, List.mem_cons, true_or]
    have h1 := (h.ledger.settle hheld (h.waiting r hr)).discard
      (held { s with sender.requestQueue := rest }) (fun a => ?_) (fun a ha => ?_)
    · have : issued (s.log ++ [.completed (.error r.handler status none)]) = issued s.log := by
        simp [issued]
      have : withdrawn (s.log ++ [.completed (.error r.handler status none)]) =
        withdrawn s.log := by simp [withdrawn]
      simp only [*]
      exact h1
    · rw [held_count, held_count, hq, List.map_cons, List.count_cons]
      dsimp only; omega
    · rw [held_count, held_count, hq, List.map_cons, List.count_cons_of_ne]
      rintro rfl
      exact ha (by simp)

/-! ## Handlers are removed and handed over -/

theorem removeQueued (h : Inv s) {key : Nat} {r : Request}
    (hr : s.sender.requestQueue.find? (·.handlerKey == key) = some r) :
    Inv { s with
      sender.requestQueue := s.sender.requestQueue.eraseP (·.handlerKey == key)
      log := s.log ++ [.removed r.handler key true] } := by
  have hsub : ∀ r' ∈ s.sender.requestQueue.eraseP (·.handlerKey == key),
      r' ∈ s.sender.requestQueue := fun r' h' => List.mem_of_mem_eraseP h'
  have hset : settled (s.log ++ [.removed r.handler key true]) = settled s.log := by
    simp [settled, completions]
  have hiss : issued (s.log ++ [.removed r.handler key true]) = issued s.log := by simp [issued]
  have hw : withdrawn (s.log ++ [.removed r.handler key true]) = withdrawn s.log ++ [r.handler] := by
    simp [withdrawn]
  refine ⟨h.le, h.nonneg, h.bound, h.live, ?_, fun r' h' => ?_, fun r' h' => ?_, h.current, h.map,
    h.back, ?_, ?_⟩
  all_goals dsimp only
  · rw [hiss]; exact h.issued_lt
  · exact h.queue r' (hsub r' h')
  · rw [hset]; exact h.waiting r' (hsub r' h')
  · rw [hset]; exact h.called
  · rw [hset, hiss, hw]
    refine h.ledger.withdraw (h.waiting r (List.mem_of_find?_eq_some hr)) fun b => ?_
    rw [held_count, held_count, count_eraseP hr b]
    dsimp only; omega

theorem removeAwaiting (h : Inv s) {seq : Int} {x key : Nat}
    (hb : s.receiver.handlerToMessageSeqMap.find key = some seq)
    (hm : s.receiver.map.find seq = some (x, key)) :
    Inv { s with
      receiver.handlerToMessageSeqMap := s.receiver.handlerToMessageSeqMap.erase key
      receiver.map := s.receiver.map.erase seq
      log := s.log ++ [.removed x key false] } := by
  obtain ⟨hseq, rfl, -⟩ := h.map seq x key hm
  have hset : settled (s.log ++ [.removed key key false]) = settled s.log := by
    simp [settled, completions]
  have hiss : issued (s.log ++ [.removed key key false]) = issued s.log := by simp [issued]
  have hw : withdrawn (s.log ++ [.removed key key false]) = withdrawn s.log ++ [key] := by
    simp [withdrawn]
  have hold : ∀ q e, (s.receiver.map.erase seq).find q = some e →
      q ≠ seq ∧ s.receiver.map.find q = some e := by
    intro q e hq
    rw [Dict.find_erase] at hq
    split at hq
    · cases hq
    · rename_i hne; exact ⟨hne, hq⟩
  refine ⟨h.le, h.nonneg, h.bound, h.live, ?_, fun r hr => ?_, ?_, h.current,
    fun q y k hq => ?_, fun k q hk => ?_, fun q y k hq => ?_, ?_⟩
  all_goals dsimp only at *
  · rw [hiss]; exact h.issued_lt
  · exact h.queue r hr
  · rw [hset]; exact h.waiting
  · exact h.map q y k (hold q _ hq).2
  · rw [Dict.find_erase] at hk
    split at hk
    · cases hk
    · rename_i hne
      obtain ⟨hq, hmq, -⟩ := h.back_entry hk
      refine ⟨k, ?_⟩
      rw [Dict.find_erase, if_neg (by omega), hmq]
  · obtain ⟨hne, hq⟩ := hold q _ hq
    obtain ⟨hy, rfl, -⟩ := h.map q y k hq
    rw [Dict.find_erase, if_neg (by omega), hset]
    exact h.called q k k hq
  · rw [hset, hiss, hw]
    refine h.ledger.withdraw (h.back_entry hb).2.2 fun b => ?_
    rw [held_count, held_count, count_erase hm b]
    dsimp only; omega

theorem start (h : Inv s) {r : Request} {rest : List Request} (w : Option NonblockingPacketWriter)
    (hn : s.sender.handler = none) (hq : s.sender.requestQueue = r :: rest) :
    Inv { s with
      sender.requestQueue := rest
      sender.messageSequence := r.command.getSequence
      sender.handlerKey := r.handlerKey
      sender.currentWriter := w
      sender.handler := some r.handler } := by
  have hr : r ∈ s.sender.requestQueue := by rw [hq]; exact List.mem_cons_self
  have hrest : ∀ r' ∈ rest, r' ∈ s.sender.requestQueue := fun r' h' => by
    rw [hq]; exact List.mem_cons_of_mem _ h'
  have hnum := h.queue r hr
  refine ⟨h.le, h.nonneg, h.bound, h.live, h.issued_lt, fun r' h' => ?_,
    fun r' h' => h.waiting r' (hrest r' h'), fun x hx => ?_, h.map, h.back, h.called,
    h.ledger.rearrange fun a => ?_⟩
  · exact h.queue r' (hrest r' h')
  · obtain rfl := Option.some.inj hx
    exact ⟨hnum.key, hnum.sequence, hnum.lt⟩
  · rw [held_count, held_count, hq, hn]
    simp only [List.map_cons, List.count_cons, Option.toList_some, Option.toList_none,
      List.count_nil]
    omega

theorem room (h : Inv s) {x : Nat} (hx : s.sender.handler = some x) :
    s.receiver.map.find s.sender.messageSequence = none ∧
      s.receiver.handlerToMessageSeqMap.find s.sender.handlerKey = none := by
  obtain ⟨hk, hseq, -⟩ := h.current x hx
  constructor
  · cases hm : s.receiver.map.find s.sender.messageSequence with
    | none => rfl
    | some e =>
      obtain ⟨hq, -, -⟩ := h.map _ e.1 e.2 hm
      have : x = e.1 := by omega
      exact absurd this (h.current_ne_map hx hm)
  · cases hb : s.receiver.handlerToMessageSeqMap.find s.sender.handlerKey with
    | none => rfl
    | some seq => exact absurd hk.symm (h.current_ne_map hx (h.back_entry hb).2.1)

theorem finish (h : Inv s) {x : Nat} (hx : s.sender.handler = some x)
    (hun : x ∉ settled s.log) :
    Inv { s with
      sender.currentWriter := none
      sender.handler := none
      receiver.map := AList.insert s.sender.messageSequence (x, s.sender.handlerKey)
        s.receiver.map
      receiver.handlerToMessageSeqMap := AList.insert s.sender.handlerKey
        s.sender.messageSequence s.receiver.handlerToMessageSeqMap
      log := s.log ++ [.written x] } := by
  obtain ⟨hk, hseq, hlt⟩ := h.current x hx
  obtain ⟨hnm, -⟩ := h.room hx
  rw [hk, hseq] at *
  have hset : settled (s.log ++ [.written x]) = settled s.log := by simp [settled, completions]
  have hiss : issued (s.log ++ [.written x]) = issued s.log := by simp [issued]
  have hw : withdrawn (s.log ++ [.written x]) = withdrawn s.log := by simp [withdrawn]
  refine ⟨h.le, h.nonneg, h.bound, h.live, ?_, fun r hr => ?_, ?_, fun y hy => ?_,
    fun q y k hq => ?_, fun k q hb => ?_, fun q y k hq => ?_, ?_⟩
  all_goals dsimp only at *
  · rw [hiss]; exact h.issued_lt
  · exact h.queue r hr
  · rw [hset]; exact h.waiting
  · cases hy
  · rw [Dict.find_insert] at hq
    split at hq
    · rename_i he
      cases hq
      exact ⟨he, rfl, hlt⟩
    · exact h.map q y k hq
  · rw [Dict.find_insert] at hb
    split at hb
    · rename_i he
      cases hb; subst he
      exact ⟨k, by rw [Dict.find_insert, if_pos rfl]⟩
    · rename_i hne
      obtain ⟨y, hy⟩ := h.back k q hb
      refine ⟨y, ?_⟩
      rw [Dict.find_insert, if_neg, hy]
      have := h.map q y k hy
      omega
  · rw [hset, Dict.find_insert]
    rw [Dict.find_insert] at hq
    split at hq
    · cases hq
      simp [hun]
    · rename_i hne
      obtain ⟨h1, rfl, -⟩ := h.map q y k hq
      rw [if_neg (by omega)]
      exact h.called q k k hq
  · rw [hset, hiss, hw]
    refine h.ledger.rearrange fun a => ?_
    rw [held_count, held_count, Dict.values_insert hnm, hx]
    simp only [Option.toList_some, Option.toList_none, List.count_nil, List.map_cons,
      List.count_cons]
    omega

theorem answered (h : Inv s) {seq : Int} {x key : Nat}
    (hm : s.receiver.map.find seq = some (x, key))
    (hb : s.receiver.handlerToMessageSeqMap.find key = some seq) :
    Inv (answered seq x key s) := by
  obtain ⟨-, rfl, -⟩ := h.map seq x key hm
  obtain ⟨v, hv⟩ := answered_eq seq key key s
  rw [hv]
  have hc := answer_handler key s
  generalize (NonblockingReceiver.answer key s).1 = c at hc ⊢
  subst hc
  have h1 : Inv { s with
      receiver.handlerToMessageSeqMap := s.receiver.handlerToMessageSeqMap.erase c.handler
      log := s.log ++ [.completed c] } :=
    h.complete (c := c) rfl (mem_held_of_map hm) (h.back_entry hb).2.2
      (fun r hr => h.queue_ne_map hr hm) fun k => Dict.find_erase ..
  have h2 := h1.eraseCalled hm (by dsimp only; rw [settled_completed]; simp)
  exact h2.frame rfl rfl rfl rfl rfl rfl rfl id rfl rfl rfl rfl rfl

theorem of_read (h : Inv s) {lib : Lib} {r : NonblockingPacketReader}
    {st : NonblockingStringStatus} (hr : NonblockingReceiver.readResponse lib r s = (st, t)) :
    Inv t := by
  have hf := readResponse_frame lib r s
  obtain ⟨hl1, hl2⟩ := readResponse_log lib r s
  rw [hr] at hf hl1 hl2
  dsimp only at hf hl1 hl2
  have hlog : issued t.log = issued s.log ∧ settled t.log = settled s.log ∧
      withdrawn t.log = withdrawn s.log := by
    by_cases hd : st = .done
    · rw [hl1 hd]; simp [issued, settled, completions, withdrawn]
    · rw [hl2 hd]; exact ⟨rfl, rfl, rfl⟩
  exact h.frame (by rw [hf.sender]) (by rw [hf.sender]) (by rw [hf.sender]) (by rw [hf.sender])
    (by rw [hf.sender]) hf.map hf.back (by rw [hf.failed]; exact id) hf.nextKey hf.handlers
    hlog.1 hlog.2.1 hlog.2.2

/-- Nothing that `Inv` speaks of but the log changes, and the log only by
events it does not count. -/
theorem note (h : Inv s) (e : Event) (he : issued [e] = [] ∧ settled [e] = [] ∧ withdrawn [e] = []) :
    Inv (s.emit e) :=
  h.frame rfl rfl rfl rfl rfl rfl rfl id rfl rfl
    (by simp [he.1]) (by simp [he.2.1]) (by simp [he.2.2])

/-- The receiver stores the Command it has read, and perhaps a connection id. -/
theorem stored (h : Inv s) (command : Command) (connectionId : Int) :
    Inv { s with receiver.command := command, receiver.connectionId := connectionId } :=
  h.frame rfl rfl rfl rfl rfl rfl rfl id rfl rfl rfl rfl rfl

theorem noted (h : Inv s) (command : Command) : Inv (NonblockingReceiver.noteCommand command s) :=
  h.stored _ _

/-- **Every move keeps the invariant.** -/
theorem step (h : Inv s) {lib : Lib} (hst : Step lib s t) : Inv t := by
  cases hst with
  | environment socket scripts _ => exact h.frame rfl rfl rfl rfl rfl rfl rfl id rfl rfl rfl rfl rfl
  | accept m c v hf hd => exact h.accept lib m c v hf hd
  | refuse hf => exact h.refuse hf
  | removeQueued hr => exact h.removeQueued hr
  | removeAwaiting hb hm => exact h.removeAwaiting hb hm
  | start _ _ hn hq => exact h.start _ hn hq
  | write _ _ _ => exact h.frame rfl rfl rfl rfl rfl rfl rfl id rfl rfl rfl rfl rfl
  | finish _ _ _ hx hun => exact h.finish hx hun
  | writeFail status hx hun => exact h.writeFail status hx hun
  | letGo hs => exact h.letGo hs
  | failQueued status _ hq => exact h.failQueued status hq
  | bookkeeping r x => exact h.frame rfl rfl rfl rfl rfl rfl rfl id rfl rfl rfl rfl rfl
  | read hr _ => exact h.of_read hr
  | deliver hr _ _ hm hb =>
    exact ((h.of_read hr).noted _).answered hm hb
  | drop hr _ _ _ => exact (h.of_read hr).noted _
  | reject command connectionId status hr =>
    exact ((h.of_read hr).stored command connectionId).note _ ⟨rfl, rfl, rfl⟩
  | failAll status => exact h.note _ ⟨rfl, rfl, rfl⟩
  | failOne status _ hm hb => exact h.failOne status hm hb
  | clear hs => exact h.clear hs
  | cleanUp => exact h.frame rfl rfl rfl rfl rfl rfl rfl (fun hf => by cases hf) rfl rfl rfl rfl rfl

theorem steps (h : Inv s) {lib : Lib} (hst : Steps lib s t) : Inv t := by
  induction hst with
  | refl => exact h
  | tail _ hs ih => exact ih.step hs

end Inv
end Kinetic.L2
