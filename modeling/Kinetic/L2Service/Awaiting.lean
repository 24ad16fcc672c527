import Kinetic.L2Service.Delivery

/-!
# Who waits for a response

A handler whose packet has been written is in the receiver's map, under its own
number, until it is called or removed; and if it has been called, then either
with a response or after everybody was failed.
-/
open Kinetic.Core

namespace Kinetic.L2

open L1 NonblockingPacketService

variable {lib : Lib} {s t : NonblockingPacketService}

structure Awaiting (s : NonblockingPacketService) : Prop where
  sent : ∀ x ∈ sentOut s.log, x ∈ settled s.log ∨ x ∈ withdrawn s.log ∨
    s.receiver.map.find (x : Int) = some (x, x)
  mapped : ∀ seq x key, s.receiver.map.find seq = some (x, key) → x ∈ sentOut s.log
  answered : ∀ x ∈ sentOut s.log, x ∈ settled s.log →
    x ∈ (delivered s.log).map Completion.handler ∨ ∃ status, Event.failedAll status ∈ s.log

namespace Awaiting

theorem issued (h : Awaiting s) (hi : Inv s) {x : Nat} (hx : x ∈ sentOut s.log) :
    x ∈ issued s.log := by
  rcases h.sent x hx with hs | hw | hm
  · exact hi.ledger.settled_issued hs
  · exact hi.ledger.withdrawn_issued hw
  · exact hi.ledger.held_issued (Inv.mem_held_of_map hm)

theorem unsent (h : Awaiting s) (hi : Inv s) {x : Nat} (hh : x ∈ held s) (hs : x ∉ settled s.log)
    (hm : ∀ seq y key, s.receiver.map.find seq = some (y, key) → x ≠ y) :
    x ∉ sentOut s.log := by
  intro hx
  rcases h.sent x hx with hx | hw | hf
  · exact hs hx
  · exact (hi.ledger.live hh hs).2 hw
  · exact hm _ _ _ hf rfl

theorem frame (h : Awaiting s) {new : List Event} (hlog : t.log = s.log ++ new)
    (hsent : sentOut new = []) (hmap : t.receiver.map = s.receiver.map)
    (hnew : ∀ x ∈ sentOut s.log, x ∈ settled new →
      x ∈ (delivered new).map Completion.handler ∨ ∃ status, Event.failedAll status ∈ s.log) :
    Awaiting t := by
  have hout : sentOut t.log = sentOut s.log := by rw [hlog, sentOut_append, hsent, List.append_nil]
  refine ⟨?_, by rw [hmap, hout]; exact h.mapped, ?_⟩
  · rw [hout, hmap, hlog, settled_append, withdrawn_append]
    intro x hx
    rcases h.sent x hx with hs | hw | hm
    · exact .inl (List.mem_append_left _ hs)
    · exact .inr (.inl (List.mem_append_left _ hw))
    · exact .inr (.inr hm)
  · rw [hout, hlog, settled_append, delivered_append, List.map_append]
    intro x hx hs
    simp only [List.mem_append] at hs ⊢
    rcases hs with hs | hs
    · rcases h.answered x hx hs with hd | ⟨st, hf⟩
      · exact .inl (.inl hd)
      · exact .inr ⟨st, .inl hf⟩
    · rcases hnew x hx hs with hd | ⟨st, hf⟩
      · exact .inl (.inr hd)
      · exact .inr ⟨st, .inl hf⟩

theorem still (h : Awaiting s) {l : List Event} (hlog : t.log = s.log ++ l)
    (hsent : sentOut l = []) (hset : settled l = [])
    (hmap : t.receiver.map = s.receiver.map) : Awaiting t :=
  h.frame hlog hsent hmap fun x _ hs => by rw [hset] at hs; cases hs

theorem call (h : Awaiting s) {c : Completion} {x : Nat} (hc : c.handler = x)
    (hx : x ∉ sentOut s.log) (hlog : t.log = s.log ++ [.completed c])
    (hmap : t.receiver.map = s.receiver.map) : Awaiting t :=
  h.frame hlog rfl hmap fun y hy hs => by
    rw [show settled [Event.completed c] = [c.handler] from rfl, List.mem_singleton, hc] at hs
    rw [hs] at hy
    exact absurd hy hx

theorem leave (h : Awaiting s) {seq : Int} {x key : Nat} {new : List Event}
    (hm : s.receiver.map.find seq = some (x, key)) (hlog : t.log = s.log ++ new)
    (hsent : sentOut new = []) (hmap : t.receiver.map = s.receiver.map.erase seq)
    (hgone : x ∈ settled new ∨ x ∈ withdrawn new)
    (hnew : ∀ y ∈ settled new, y ∈ (delivered new).map Completion.handler) : Awaiting t := by
  have hout : sentOut t.log = sentOut s.log := by rw [hlog, sentOut_append, hsent, List.append_nil]
  refine ⟨?_, fun q y k hf => ?_, ?_⟩
  · rw [hout, hmap, hlog, settled_append, withdrawn_append]
    intro y hy
    simp only [List.mem_append]
    rw [Dict.find_erase]
    split
    · rename_i he
      rcases h.sent y hy with hs | hw | hf
      · exact .inl (.inl hs)
      · exact .inr (.inl (.inl hw))
      · rw [he, hm] at hf
        obtain ⟨rfl, -⟩ := Prod.mk.inj (Option.some.inj hf)
        exact hgone.imp .inr fun hw => .inl (.inr hw)
    · exact (h.sent y hy).imp .inl (Or.imp_left .inl)
  · rw [hmap, Dict.find_erase] at hf
    split at hf
    · cases hf
    · rw [hout]; exact h.mapped q y k hf
  · rw [hout, hlog, settled_append, delivered_append, List.map_append]
    intro y hy hs
    simp only [List.mem_append] at hs ⊢
    rcases hs with hs | hs
    · rcases h.answered y hy hs with hd | ⟨st, hf⟩
      · exact .inl (.inl hd)
      · exact .inr ⟨st, .inl hf⟩
    · exact .inl (.inr (hnew y hs))

variable (lib) in
theorem read (h : Awaiting s) (r : NonblockingPacketReader) :
    Awaiting (NonblockingReceiver.readResponse lib r s).2 := by
  have hf := readResponse_frame lib r s
  obtain ⟨h1, h2⟩ := readResponse_log lib r s
  by_cases hd : (NonblockingReceiver.readResponse lib r s).1 = .done
  · exact h.still (h1 hd) rfl rfl hf.map
  · exact h.still (l := []) (by rw [h2 hd]; simp) rfl rfl hf.map

theorem step (hi : Inv s) (h : Awaiting s) (hst : Step lib s t) : Awaiting t := by
  cases hst with
  | environment _ _ _ => exact h.still (l := []) (by simp) rfl rfl rfl
  | accept m c v hf hd =>
    obtain ⟨r, he, -⟩ := enqueue_spec lib m c v s.handlers s.nextKey s.count
    rw [he]
    exact h.still rfl rfl rfl rfl
  | refuse hf =>
    have hx : s.handlers ∉ sentOut s.log := fun hx =>
      Nat.lt_irrefl _ (hi.issued_lt _ (h.issued hi hx))
    have h1 : Awaiting (s.count.emit (.refused s.handlers s.nextKey)) := h.still rfl rfl rfl rfl
    refine h1.call (x := s.handlers) rfl ?_ rfl rfl
    simpa [sentOut, count] using hx
  | removeQueued _ => exact h.still rfl rfl rfl rfl
  | @removeAwaiting key seq x _ hm =>
    exact h.leave hm rfl rfl rfl
      (.inr (by simp [withdrawn])) (by simp [settled, completions])
  | start _ _ _ _ => exact h.still (l := []) (by simp) rfl rfl rfl
  | write _ _ _ => exact h.still (l := []) (by simp) rfl rfl rfl
  | @finish w x hf hw hrem hh hun =>
    obtain ⟨hkey, hseq, -⟩ := hi.current x hh
    have hout : sentOut (s.log ++ [.written x]) = sentOut s.log ++ [x] := sentOut_append ..
    have hset : settled (s.log ++ [.written x]) = settled s.log := by
      rw [settled_append, show settled [Event.written x] = [] from rfl, List.append_nil]
    have hwd : withdrawn (s.log ++ [.written x]) = withdrawn s.log := by
      rw [withdrawn_append, show withdrawn [Event.written x] = [] from rfl, List.append_nil]
    have hdel : delivered (s.log ++ [.written x]) = delivered s.log := by
      rw [delivered_append, show delivered [Event.written x] = [] from rfl, List.append_nil]
    refine ⟨fun y hy => ?_, fun q y k hf => ?_, fun y hy hs => ?_⟩
    all_goals dsimp only at *
    · rw [hset, hwd, Dict.find_insert, hseq, hkey]
      rw [hout, List.mem_append, List.mem_singleton] at hy
      split
      · rename_i he
        exact .inr (.inr (by rw [Int.natCast_inj.1 he]))
      · rename_i he
        rcases hy with hy | rfl
        · exact h.sent y hy
        · exact absurd rfl he
    · rw [Dict.find_insert] at hf
      rw [hout, List.mem_append, List.mem_singleton]
      split at hf
      · exact .inr (Prod.mk.inj (Option.some.inj hf)).1.symm
      · exact .inl (h.mapped q y k hf)
    · rw [hset] at hs
      rw [hout, List.mem_append, List.mem_singleton] at hy
      rcases hy with hy | rfl
      · rw [hdel]
        exact (h.answered y hy hs).imp_right (Exists.imp fun _ hf => List.mem_append_left _ hf)
      · exact absurd hs hun
  | @writeFail x status hh hun =>
    refine h.call (x := x) rfl (h.unsent hi ?_ hun fun _ _ _ hm => hi.current_ne_map hh hm) rfl rfl
    simp [held, hh]
  | letGo _ => exact h.still (l := []) (by simp [NonblockingSender.resetHandler]) rfl rfl rfl
  | @failQueued r rest status _ hq =>
    have hr : r ∈ s.sender.requestQueue := by rw [hq]; exact List.mem_cons_self
    refine h.call (x := r.handler) rfl
      (h.unsent hi ?_ (hi.waiting r hr) fun _ _ _ hm => hi.queue_ne_map hr hm) rfl rfl
    exact List.mem_append_left _ (List.mem_map.2 ⟨r, hr, rfl⟩)
  | bookkeeping _ _ => exact h.still (l := []) (by simp) rfl rfl rfl
  | @read s' r st hrd _ =>
    have := h.read lib r
    rwa [hrd] at this
  | @deliver s' r command ack x key hrd _ _ hm _ =>
    have h' := h.read lib r
    rw [hrd] at h'
    have h2 : Awaiting (NonblockingReceiver.noteCommand command s') :=
      h'.still (l := []) (by simp [NonblockingReceiver.noteCommand]) rfl rfl rfl
    obtain ⟨v, hv⟩ := answered_eq ack x key (NonblockingReceiver.noteCommand command s')
    rw [hv]
    have hc := answer_handler x (NonblockingReceiver.noteCommand command s')
    refine h2.leave hm rfl rfl rfl (.inl ?_) fun y hy => ?_
    · simp [settled, completions, hc]
    · simpa [settled, completions, delivered, answer_response] using hy
  | @drop s' r command ack hrd _ _ _ =>
    have h' := h.read lib r
    rw [hrd] at h'
    exact h'.still (l := []) (by simp [NonblockingReceiver.noteCommand]) rfl rfl rfl
  | @reject s' r command connectionId status hrd =>
    have h' := h.read lib r
    rw [hrd] at h'
    exact h'.still rfl rfl rfl rfl
  | failAll status => exact h.still rfl rfl rfl rfl
  | @failOne seq x key status hlog hm hb =>
    exact h.frame rfl rfl rfl
      fun y hy hs => .inr ⟨status, hlog⟩
  | clear hset =>
    refine ⟨fun x hx => ?_, fun q y k hf => by simp at hf, h.answered⟩
    rcases h.sent x hx with hs | hw | hm
    · exact .inl hs
    · exact .inr (.inl hw)
    · exact .inl (hset _ _ _ hm)
  | cleanUp => exact h.still (l := []) (by simp [cleanUp]) rfl rfl rfl

end Awaiting

theorem Fresh.awaiting (h : Fresh s) : Awaiting s := by
  refine ⟨?_, ?_, ?_⟩
  all_goals simp [h.log, h.map, sentOut]

end Kinetic.L2
