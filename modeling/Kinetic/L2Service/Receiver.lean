import Kinetic.Core.Index
import Kinetic.L2Service.Callbacks
import Kinetic.L2Service.Handshake

/-!
# The receiver on its own

`NonblockingReceiver` under any use of it: `Enqueue` with any sequences and keys,
`Remove`, and `Receive` on any transport, with callbacks that remove (and
submit) what they like. Its two maps are inverse to each other between the
operations and while a response is being handed out, so no `CHECK` of it fails.

`CallAllErrorHandlers` takes the names out of the second map one by one and
clears the first at its end; meanwhile the maps are linked for the sequences the
loop has yet to visit (`Kinetic.Core.Linked`).
-/
open Kinetic.Core

namespace Kinetic.L2

open L1 NonblockingPacketService

/-- `map_` sends a sequence to an entry with a key if and only if
`handler_to_message_seq_map_` sends the key to the sequence. -/
def NonblockingReceiver.Inverse (r : NonblockingReceiver) : Prop :=
  ∀ seq key, (∃ h, r.map.find seq = some (h, key)) ↔ r.handlerToMessageSeqMap.find key = some seq

/-- The maps are linked for the live sequences, and no `CHECK` has failed. -/
structure Intact (live : Int → Prop) (s : NonblockingPacketService) : Prop where
  linked : Linked live s.receiver.map s.receiver.handlerToMessageSeqMap
  checked : Event.aborted ∉ s.log

variable {lib : Lib} {live : Int → Prop} {s t u : NonblockingPacketService}

theorem Intact.inverse (h : Intact (fun _ => True) s) : s.receiver.Inverse := linked_iff.1 h.linked

namespace Intact

theorem still (h : Intact live s) (hmap : t.receiver.map = s.receiver.map)
    (hback : t.receiver.handlerToMessageSeqMap = s.receiver.handlerToMessageSeqMap)
    (hlog : Event.aborted ∈ t.log → Event.aborted ∈ s.log) : Intact live t :=
  ⟨by rw [hmap, hback]; exact h.linked, fun ha => h.checked (hlog ha)⟩

/-! ## Callbacks -/

theorem remove (h : Intact live s) (key : Nat) : Intact live (s.remove key).2 := by
  have hrem := removal key s
  generalize s.remove key = out at hrem ⊢
  cases hrem with
  | queued _ => exact h.still rfl rfl (by simp)
  | unknown _ _ => exact h
  | awaiting _ hb hm =>
    exact ⟨h.linked.erase hm (h.linked.back key _ hb).1, by simpa using h.checked⟩
  | broken hb hn =>
    obtain ⟨-, x, hm⟩ := h.linked.back key _ hb
    exact absurd hm (hn x)

theorem kept : Kept lib (fun _ => True) (Intact live) where
  shutDown := fun _ => trivial
  call := fun _ _ _ h => h.still rfl rfl (by simp)
  scripts := fun _ _ h => h.still rfl rfl id
  count := fun _ h => h.still rfl rfl id
  accept := fun _ _ _ _ _ _ h => h.still rfl rfl (by simp [NonblockingSender.enqueue])
  refuse := fun _ _ _ h => h.still rfl rfl (by simp)
  remove := fun _ key h => h.remove key

theorem complete (h : Intact live s) (c : Completion) : Intact live (L2.complete lib c s) :=
  kept.complete (C := fun _ => True) trivial h

/-! ## Receive -/

variable (lib) in
theorem callAllLoop (error : KineticStatus) {seqs : List Int} (hn : seqs.Nodup)
    (h : Intact (· ∈ seqs) s) :
    Intact (· ∈ ([] : List Int)) (NonblockingReceiver.callAllLoop lib error seqs s) := by
  induction seqs generalizing s with
  | nil => exact h
  | cons seq seqs ih =>
    obtain ⟨hseq, hn⟩ := List.nodup_cons.1 hn
    unfold NonblockingReceiver.callAllLoop
    split
    · rename_i hm
      exact ih hn ⟨h.linked.skip hm, h.checked⟩
    · rename_i x key hm
      have hkey := h.linked.forth seq x key hm List.mem_cons_self
      rw [if_pos (Dict.mem_iff.2 ⟨seq, hkey⟩)]
      refine ih hn (complete ?_ _)
      exact ⟨h.linked.visit hseq hm, h.checked⟩

theorem callAll (h : Intact (fun _ => True) s) (error : KineticStatus) :
    Intact (fun _ => True) (NonblockingReceiver.callAllErrorHandlers lib error s) := by
  have h1 : Intact (fun _ => True) (s.emit (.failedAll error)) := h.still rfl rfl (by simp)
  have hloop : ∀ u, Intact (fun _ => True) u → Intact (fun _ => True)
      { NonblockingReceiver.callAllLoop lib error u.receiver.map.keys u with receiver.map := ∅ } := by
    intro u hu
    have := callAllLoop lib error u.receiver.map.keys_nodup ⟨hu.linked.start, hu.checked⟩
    exact ⟨this.linked.finish, this.checked⟩
  unfold NonblockingReceiver.callAllErrorHandlers
  dsimp only
  refine hloop _ ?_
  split
  · exact h1
  · exact (h1.complete _).still rfl rfl id

end Intact

/-- The call that a packet just read makes with its response, and the state it
makes it in (src/main/nonblocking_packet_receiver.cc:175-214). -/
def called (lib : Lib) (s : NonblockingPacketService) :
    Option (Completion × NonblockingPacketService) :=
  if s.receiver.message.hmacAuth.isSome ∧
      validateHmac lib s.receiver.message s.receiver.hmacKey = false then none
  else
    match lib.parseCommand s.receiver.message.getCommandBytes with
    | (false, _) => none
    | (true, command) =>
      let s := NonblockingReceiver.noteCommand command s
      match s.receiver.command.getHeader.ackSequence with
      | none => none
      | some ack =>
        match s.receiver.map.find ack with
        | none => none
        | some (h, key) => some (NonblockingReceiver.answer h { s with
            receiver.handler := some h
            receiver.map := s.receiver.map.erase ack
            receiver.handlerToMessageSeqMap := s.receiver.handlerToMessageSeqMap.erase key })

/-- `Receive`, called in `s`, calls a handler with a response: the call is `c`,
made in the state `t`. -/
inductive Dispatches (lib : Lib) : NonblockingPacketService → Completion →
    NonblockingPacketService → Prop
  | here {s s₁ s₂ t : NonblockingPacketService} {r : NonblockingPacketReader} {c : Completion} :
      NonblockingReceiver.openResponse s = some (r, s₁) →
      NonblockingReceiver.readResponse lib r s₁ = (.done, s₂) →
      called lib s₂ = some (c, t) → Dispatches lib s c t
  | later {s s₁ s₂ s₃ t : NonblockingPacketService} {r : NonblockingPacketReader} {c : Completion} :
      NonblockingReceiver.openResponse s = some (r, s₁) →
      NonblockingReceiver.readResponse lib r s₁ = (.done, s₂) →
      NonblockingReceiver.processResponse lib s₂ = (none, s₃) →
      Dispatches lib s₃ c t → Dispatches lib s c t

variable (lib) in
/-- **A packet** fails everybody or nobody, or calls a handler: then it finds the
handler's key, and both entries are gone before the call. -/
theorem Intact.process (h : Intact (fun _ => True) s) :
    (L2.called lib s = none ∧
      Intact (fun _ => True) (NonblockingReceiver.processResponse lib s).2) ∨
    ∃ c t, L2.called lib s = some (c, t) ∧ Intact (fun _ => True) t ∧
      NonblockingReceiver.processResponse lib s =
        (none, { L2.complete lib c t with receiver.handler := none }) := by
  have hn : ∀ c, Intact (fun _ => True) (NonblockingReceiver.noteCommand c s) := fun _ =>
    h.still rfl rfl id
  have hp := processing lib s
  generalize NonblockingReceiver.processResponse lib s = out at hp ⊢
  unfold L2.called
  cases hp with
  | mismatch hs hbad => exact .inl ⟨if_pos ⟨hs, hbad⟩, h.callAll _⟩
  | @unparsed command hv hbad =>
    have h1 : Intact (fun _ => True) { s with receiver.command := command } := h.still rfl rfl id
    rw [if_neg (not_mismatch hv), hbad]
    exact .inl ⟨rfl, h1.callAll _⟩
  | unacknowledged hread hack =>
    rw [if_neg (not_mismatch hread.1), hread.2]
    dsimp only
    rw [hack]
    exact .inl ⟨rfl, (hn _).callAll _⟩
  | unmatched hread hack hm =>
    rw [if_neg (not_mismatch hread.1), hread.2]
    dsimp only
    rw [hack]
    dsimp only
    rw [hm]
    exact .inl ⟨rfl, hn _⟩
  | @matched command ack x key hread hack hm =>
    rw [if_neg (not_mismatch hread.1), hread.2]
    dsimp only
    rw [hack]
    dsimp only
    rw [hm]
    dsimp only
    replace hn := hn command
    generalize NonblockingReceiver.noteCommand command s = p at hn hm ⊢
    have hkey := hn.linked.forth ack x key hm trivial
    have herase := hn.linked.erase hm trivial
    generalize ha : NonblockingReceiver.answer x _ = out
    obtain ⟨c, t⟩ := out
    refine .inr ⟨c, t, rfl, ?_, ?_⟩
    · unfold NonblockingReceiver.answer at ha
      dsimp only at ha
      split at ha
      all_goals
        obtain rfl := congrArg Prod.snd ha
        exact ⟨herase, hn.checked⟩
    · unfold NonblockingReceiver.dispatch
      dsimp only
      rw [if_pos (Dict.mem_iff.2 ⟨ack, hkey⟩), ha]

variable (lib) in
theorem Intact.processResponse (h : Intact (fun _ => True) s) :
    Intact (fun _ => True) (NonblockingReceiver.processResponse lib s).2 := by
  rcases h.process lib with ⟨-, h1⟩ | ⟨c, t, -, h1, he⟩
  · exact h1
  · rw [he]
    exact (h1.complete _).still rfl rfl id

theorem Intact.openResponse (h : Intact live s) {r : NonblockingPacketReader}
    (ho : NonblockingReceiver.openResponse s = some (r, t)) : Intact live t := by
  rcases openResponse_cases ho with ⟨-, rfl⟩ | ⟨-, -, -, rfl⟩
  · exact h
  · exact h.still rfl rfl id

variable (lib) in
theorem Intact.readResponse (h : Intact live s) (r : NonblockingPacketReader) :
    Intact live (NonblockingReceiver.readResponse lib r s).2 := by
  have hf := readResponse_frame lib r s
  obtain ⟨h1, h2⟩ := readResponse_log lib r s
  refine h.still hf.map hf.back fun ha => ?_
  by_cases hd : (NonblockingReceiver.readResponse lib r s).1 = .done
  · rw [h1 hd] at ha
    simpa using ha
  · rwa [h2 hd] at ha

theorem Intact.receiveLoop (fuel : Nat) (h : Intact (fun _ => True) s) :
    Intact (fun _ => True) (NonblockingReceiver.receiveLoop lib fuel s).2 :=
  receiveLoop_keeps (fun _ _ _ h => h.openResponse) (fun _ r h => h.readResponse lib r)
    (fun _ h => h.callAll _) (fun _ h => h.processResponse lib) fuel h

/-- The maps are linked when a handler is called with a response. -/
theorem Intact.dispatches {c : Completion} (hd : Dispatches lib s c t)
    (h : Intact (fun _ => True) s) : Intact (fun _ => True) t := by
  induction hd with
  | @here s s₁ s₂ t r c ho hr hc =>
    have h2 := (h.openResponse ho).readResponse lib r
    rw [hr] at h2
    rcases h2.process lib with ⟨hn, -⟩ | ⟨c', t', hc', h3, -⟩
    · rw [hc] at hn; cases hn
    · rw [hc] at hc'
      cases hc'
      exact h3
  | @later s s₁ s₂ s₃ t r c ho hr hp _ ih =>
    have h2 := (h.openResponse ho).readResponse lib r
    rw [hr] at h2
    have h3 := h2.processResponse lib
    rw [hp] at h3
    exact ih h3

/-! ## How long Receive takes -/

/-- The transport and the reader, which callbacks do not touch. -/
structure Reads (k : Socket) (r : Option NonblockingPacketReader) (s : NonblockingPacketService) :
    Prop where
  socket : s.socket = k
  reader : s.receiver.nonblockingResponse = r

namespace Reads

variable {k : Socket} {r : Option NonblockingPacketReader}

theorem kept : Kept lib (fun _ => True) (Reads k r) where
  shutDown := fun _ => trivial
  call := fun _ _ _ h => ⟨h.socket, h.reader⟩
  scripts := fun _ _ h => ⟨h.socket, h.reader⟩
  count := fun _ h => ⟨h.socket, h.reader⟩
  accept := fun _ _ _ _ _ _ h => ⟨h.socket, h.reader⟩
  refuse := fun _ _ _ h => ⟨h.socket, h.reader⟩
  remove := fun s key h => by
    have hrem := removal key s
    generalize s.remove key = out at hrem ⊢
    cases hrem <;> exact ⟨h.socket, h.reader⟩

theorem aside : Aside lib (Reads k r) where
  kept := kept
  failedAll := fun _ _ h => ⟨h.socket, h.reader⟩
  aborted := fun _ h => ⟨h.socket, h.reader⟩
  receiver := fun _ _ hr h => ⟨h.socket, hr.trans h.reader⟩

end Reads

theorem readResponse_took (r : NonblockingPacketReader) :
    (∃ got, Socket.Took s.socket (NonblockingReceiver.readResponse lib r s).2.socket got) ∧
      ((NonblockingReceiver.readResponse lib r s).1 = .done →
        (NonblockingReceiver.readResponse lib r s).2.receiver.nonblockingResponse = none) := by
  obtain ⟨got, h⟩ := NonblockingPacketReader.readLoop_took lib 6
    ⟨r, s.receiver.message, s.receiver.value, s.socket⟩
  unfold NonblockingReceiver.readResponse
  dsimp only
  split
  · exact ⟨⟨got, h⟩, fun _ => rfl⟩
  · rename_i hne
    exact ⟨⟨got, h⟩, fun hd => absurd hd hne⟩

/-- Without a reader left over, any fuel above the number of answers gives the
same: a new reader takes an answer for its packet. -/
theorem receiveLoop_fresh (f g : Nat) (hr : s.receiver.nonblockingResponse = none)
    (hf : s.socket.reads.length < f) (hg : s.socket.reads.length < g) :
    NonblockingReceiver.receiveLoop lib f s = NonblockingReceiver.receiveLoop lib g s := by
  induction f generalizing s g with
  | zero => omega
  | succ f ih =>
    obtain _ | g := g
    · omega
    have hopen : NonblockingReceiver.openResponse s =
        if s.receiver.map = ∅ then none else some (NonblockingPacketReader.create,
          { s with receiver.nonblockingResponse := some NonblockingPacketReader.create }) := by
      simp only [NonblockingReceiver.openResponse, hr]
    simp only [NonblockingReceiver.receiveLoop, hopen]
    by_cases hm : s.receiver.map = ∅
    · simp [hm]
    simp only [if_neg hm]
    have hpend := NonblockingPacketReader.pending_create lib s.receiver.message s.receiver.value
      s.socket
    obtain ⟨got, c, ht, hc, -, ho, -, -, -, hgone⟩ := readResponse_spec
      (s := { s with receiver.nonblockingResponse := some NonblockingPacketReader.create }) _ hpend
      (fun h : False => h.elim)
    generalize NonblockingReceiver.readResponse lib _ _ = out at ht ho hgone ⊢
    obtain ⟨st, t⟩ := out
    cases st with
    | inProgress => rfl
    | failed => rfl
    | done =>
      have hlt := ht.used (hpend.takes ho hc)
      have hp : Reads t.socket _ (NonblockingReceiver.processResponse lib t).2 :=
        Reads.aside.process ⟨rfl, hgone rfl⟩
      dsimp only at hlt hp ⊢
      generalize NonblockingReceiver.processResponse lib t = out at hp ⊢
      obtain ⟨st', u⟩ := out
      cases st' with
      | some st' => rfl
      | none => exact ih g hp.reader (by rw [hp.socket]; omega) (by rw [hp.socket]; omega)

namespace NonblockingReceiver

/-- `Receive` in any state at all. A reader left over from a `Read` that has
failed may end its packet without reading; after it, every packet takes an
answer of the transport. -/
def receiveAny (lib : Lib) (s : NonblockingPacketService) :
    NonblockingPacketServiceStatus × NonblockingPacketService :=
  receiveLoop lib (s.socket.reads.length + 2) s

end NonblockingReceiver

/-- More fuel changes nothing, in any state. -/
theorem receiveAny_fuel (s : NonblockingPacketService) (more : Nat) :
    NonblockingReceiver.receiveLoop lib (s.socket.reads.length + 2 + more) s =
      NonblockingReceiver.receiveAny lib s := by
  have hplus : s.socket.reads.length + 2 + more = (s.socket.reads.length + 1 + more) + 1 := by omega
  rw [NonblockingReceiver.receiveAny, hplus, NonblockingReceiver.receiveLoop,
    NonblockingReceiver.receiveLoop]
  cases ho : NonblockingReceiver.openResponse s with
  | none => rfl
  | some out =>
    obtain ⟨r, s₁⟩ := out
    have hsock : s₁.socket = s.socket := by
      rcases openResponse_cases ho with ⟨-, rfl⟩ | ⟨-, -, -, rfl⟩ <;> rfl
    obtain ⟨⟨got, ht⟩, hgone⟩ := readResponse_took (s := s₁) r
    dsimp only
    generalize NonblockingReceiver.readResponse lib r s₁ = out at ht hgone ⊢
    obtain ⟨st, t⟩ := out
    cases st with
    | inProgress => rfl
    | failed => rfl
    | done =>
      have hle := ht.reads.length_le
      have hp : Reads t.socket _ (NonblockingReceiver.processResponse lib t).2 :=
        Reads.aside.process ⟨rfl, hgone rfl⟩
      rw [hsock] at hle
      dsimp only at hle hp ⊢
      generalize NonblockingReceiver.processResponse lib t = out at hp ⊢
      obtain ⟨st', u⟩ := out
      cases st' with
      | some st' => rfl
      | none =>
        exact receiveLoop_fresh _ _ hp.reader (by rw [hp.socket]; omega) (by rw [hp.socket]; omega)

/-! ## Any use of a receiver -/

inductive ReceiverOp where
  | enqueue (handler : Nat) (sequence : Int) (key : Nat)
  | receive (io : Io)
  | remove (key : Nat)

def ReceiverOp.apply (lib : Lib) (s : NonblockingPacketService) :
    ReceiverOp → NonblockingPacketService
  | .enqueue handler sequence key =>
    { s with receiver := (s.receiver.enqueue handler sequence key).2 }
  | .receive io => (NonblockingReceiver.receiveAny lib (s.supply io)).2
  | .remove key => (s.remove key).2

/-- A receiver that its constructor has returned, and any operations on it. -/
def receiver (lib : Lib) : LTS NonblockingPacketService ReceiverOp where
  init s := ∃ fd hmacKey turns userId socket receiver,
    NonblockingReceiver.handshake lib fd hmacKey turns = some (.ok (socket, receiver)) ∧
      s = serving userId socket receiver
  step s op t := t = op.apply lib s

theorem Fresh.intact (h : Fresh s) : Intact live s := by
  refine ⟨⟨fun k q hb => ?_, fun q x k hm => ?_⟩, by rw [h.log]; simp⟩
  · rw [h.back] at hb; cases hb
  · rw [h.map] at hm; cases hm

/-- **Enqueue** in one step: the rollback takes out what has just been put in. -/
theorem NonblockingReceiver.enqueue_eq (r : NonblockingReceiver) (x : Nat) (seq : Int) (key : Nat) :
    r.enqueue x seq key =
      if r.map.find seq = none ∧ r.handlerToMessageSeqMap.find key = none then
        (true, { r with
          map := AList.insert seq (x, key) r.map
          handlerToMessageSeqMap := AList.insert key seq r.handlerToMessageSeqMap })
      else (false, r) := by
  unfold NonblockingReceiver.enqueue
  cases hm : r.map.find seq with
  | some e => rw [Dict.insertNew_present hm, if_neg (by simp)]
  | none =>
    cases hb : r.handlerToMessageSeqMap.find key with
    | none => rw [Dict.insertNew_absent hm, Dict.insertNew_absent hb, if_pos ⟨rfl, rfl⟩]
    | some q =>
      rw [Dict.insertNew_absent hm, Dict.insertNew_present hb, if_neg (by simp)]
      dsimp only
      rw [Dict.erase_insert hm]

theorem Intact.enqueue (h : Intact (fun _ => True) s) (x : Nat) (seq : Int) (key : Nat) :
    Intact (fun _ => True) { s with receiver := (s.receiver.enqueue x seq key).2 } := by
  rw [NonblockingReceiver.enqueue_eq]
  split
  · rename_i hfree
    exact ⟨h.linked.insert hfree.1 hfree.2 x, h.checked⟩
  · exact h

theorem Intact.apply (h : Intact (fun _ => True) s) (op : ReceiverOp) :
    Intact (fun _ => True) (op.apply lib s) := by
  cases op with
  | enqueue x seq key => exact h.enqueue x seq key
  | receive io => exact Intact.receiveLoop _ (h.still (t := s.supply io) rfl rfl id)
  | remove key => exact h.remove key

theorem receiver_intact (h : (receiver lib).Reachable s) : Intact (fun _ => True) s := by
  refine LTS.Inductive.reachable (M := receiver lib) (P := Intact fun _ => True)
    ⟨?_, fun s op t hs ht => ht ▸ hs.apply op⟩ s h
  rintro s ⟨fd, hmacKey, turns, userId, socket, r, hh, rfl⟩
  exact (handshake_fresh userId hh).intact

/-- **The two maps stay inverse to each other**, after any operations on a
receiver that its constructor has returned, and at every moment of a callback
that is given a response during the next `Receive`. No `CHECK` has failed, or
fails if the receiver is destroyed now; nor can that of `Enqueue`, which looks
for the entry it has just inserted. -/
theorem maps_inverse (h : (receiver lib).Reachable s) :
    s.receiver.Inverse ∧
    (∀ io c t n, Dispatches lib (s.supply io) c t → (during lib c n t).receiver.Inverse) ∧
    Event.aborted ∉ s.log ∧
    (∀ scripts status, Event.aborted ∉ (NonblockingReceiver.callAllErrorHandlers lib status
      { s with scripts, receiver.nonblockingResponse := none }).log) ∧
    ∀ handler sequence key map,
      s.receiver.map.insertNew sequence (handler, key) = (true, map) →
      map.find sequence = some (handler, key) := by
  have hi := receiver_intact h
  refine ⟨hi.inverse, fun io c t n hd => ?_, hi.checked, fun scripts status => ?_,
    fun handler sequence key map hm => ?_⟩
  · have ht : Intact (fun _ => True) t :=
      Intact.dispatches hd (hi.still (t := s.supply io) rfl rfl id)
    exact (Intact.kept.during (C := fun _ => True) trivial n ht).inverse
  · refine (Intact.callAll ?_ status).checked
    exact hi.still rfl rfl id
  · unfold Dict.insertNew at hm
    split at hm
    · cases hm
    · cases hm
      rw [Dict.find_insert, if_pos rfl]

/-- A second handler for a sequence, a second sequence for a key, and a removal
while a packet is partly read. -/
def shared : List ReceiverOp :=
  [.enqueue 0 0 10, .enqueue 1 0 11, .enqueue 2 5 10, .enqueue 3 6 13, .enqueue 4 7 14,
    .receive {
      arrives := [0, 0, 0]
      reads := [.count 1, .count 1, .intr] },
    .remove 13]

theorem maps_inverse_shared : ∃ s,
    (receiver Codec.plain).Reachable s ∧ s.receiver.map.keys = [7, 0] ∧ s.receiver.Inverse := by
  obtain ⟨socket, receiver', he, hkeys⟩ : ∃ socket receiver,
      NonblockingReceiver.handshake Codec.plain 5 [1] greeting = some (.ok (socket, receiver)) ∧
      (shared.foldl (ReceiverOp.apply Codec.plain) (serving 1 socket receiver)).receiver.map.keys =
        [7, 0] := by
    have h : (match NonblockingReceiver.handshake Codec.plain 5 [1] greeting with
        | some (.ok (socket, receiver)) => decide ((shared.foldl (ReceiverOp.apply Codec.plain)
            (serving 1 socket receiver)).receiver.map.keys = [7, 0])
        | _ => false) = true := by decide +kernel
    split at h
    · rename_i socket receiver he
      exact ⟨socket, receiver, he, of_decide_eq_true h⟩
    · cases h
  have hr : (receiver Codec.plain).Reachable
      (shared.foldl (ReceiverOp.apply Codec.plain) (serving 1 socket receiver')) := by
    refine List.foldlRecOn (motive := (receiver Codec.plain).Reachable) _ _ ?_
      fun s hs op _ => hs.step (l := op) rfl
    exact ⟨_, [], ⟨5, [1], greeting, 1, socket, receiver', he, rfl⟩, .nil _⟩
  exact ⟨_, hr, hkeys, (maps_inverse hr).1⟩

end Kinetic.L2
