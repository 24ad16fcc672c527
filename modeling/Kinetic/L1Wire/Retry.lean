import Kinetic.L1Wire.PacketStream

/-!
# After a failure

Nothing keeps the owner of a `NonblockingPacketReader` from calling `Read` again
when it has failed, and the reader is as the failure has left it. In the middle
of a packet it gets no further on a transport that has ended, and a wrong magic
byte is found wrong again (`Stuck`). A message that does not parse is another
matter: the state has moved on to `kFinished` before it is looked at, and the
next call is done (`read_finished`).

**Assumptions.** A transport that has reported its end or an error delivers nothing
any more (`Sticky`).

**Results.**
* `Stuck.of_failed`: a call that fails leaves the reader stuck, or behind a packet
  that it has read as a whole and whose message does not parse (`Half`).
* `Pending.comes`, `Stands.comes`: what a call comes to, from any place where a
  reader can stand that is called again and again.
* `staysFailed_iff`: a reader that has failed stays failed on exactly the streams
  that do not begin with a half-parsed packet.
-/
open Kinetic.Core Kinetic.Core.Socket

namespace Kinetic.L1

open NonblockingPacketReader

/-- Call `Read` once a turn, whatever it answers; the answers. -/
def readAll (lib : Lib) : List ReadTurn → ReadState → List NonblockingStringStatus
  | [], _ => []
  | t :: ts, c =>
    match NonblockingPacketReader.read lib (c.arrive t) with
    | (st, c') => st :: readAll lib ts c'

/-- The stream begins with a whole packet whose message does not parse. -/
def HalfParsed (lib : Lib) (b : Bytes) : Prop := ∃ msg v rest : Bytes, b = frame msg v ++ rest ∧
  msg.length < 2 ^ 32 ∧ v.length < 2 ^ 32 ∧ (lib.parseMessage msg).1 = false

/-- A reader of this stream that has failed is not done later, on any transport
that delivers nothing more once it has ended. -/
def StaysFailed (lib : Lib) (b : Bytes) : Prop :=
  ∀ (m₀ : Message) (v₀ : Option Bytes) (fd : Nat) (turns : List ReadTurn), arrivals turns = b →
    Sticky (turns.flatMap ReadTurn.reads) →
    (readAll lib turns (freshRead m₀ v₀ fd)).Pairwise fun st st' => st = .failed → st' ≠ .done

namespace NonblockingPacketReader

variable {lib : Lib} {c c' : ReadState}

/-- What has become of the owner's message and of the transport does not matter. -/
theorem Pending.of_packet (h : Pending lib c) (hp : c'.packet = c.packet) : Pending lib c' := by
  obtain ⟨hok, hs, hlt⟩ := h
  refine ⟨?_, by rw [hp]; exact hs, by rw [hp]; exact hlt⟩
  unfold Ok at hok ⊢
  rw [hp]
  refine ⟨hok.1, ?_⟩
  cases he : c.packet.state with
  | finished => exact absurd he hs
  | _ => simpa only [he] using hok.2

/-- A reader that has been told to go on for nothing: it is in the middle of a
packet on a transport that is `silent`, or it looks at a wrong magic byte. -/
inductive Stuck (lib : Lib) (silent : Prop) (c : ReadState) : Prop
  | cut : Pending lib c → silent → Stuck lib silent c
  | badMagic {b : UInt8} : b ≠ 0x46 → c.packet.state = .magic →
      c.packet.reader = { size := 1, buf := [b] } → Stuck lib silent c

theorem Stuck.of_packet {silent : Prop} (h : Stuck lib silent c) (hp : c'.packet = c.packet) :
    Stuck lib silent c' := by
  cases h with
  | cut hpd hs => exact .cut (hpd.of_packet hp) hs
  | badMagic hb hst hr => exact .badMagic hb (by rw [hp]; exact hst) (by rw [hp]; exact hr)

theorem Stuck.mono {silent silent' : Prop} (h : Stuck lib silent c) (hi : silent → silent') :
    Stuck lib silent' c := by
  cases h with
  | cut hp hs => exact .cut hp (hi hs)
  | badMagic hb hst hr => exact .badMagic hb hst hr

theorem readString_full (h : c.packet.reader.size ≤ c.packet.reader.buf.length) :
    readString c = (.done, c) := by
  unfold readString NonblockingStringReader.read NonblockingStringReader.readLoop
  rw [if_neg (Nat.not_lt.2 h)]

/-- **The slip**: in the last state `Read` is done, whatever has been said before. -/
theorem read_finished (hs : c.packet.state = .finished)
    (h : c.packet.reader.size ≤ c.packet.reader.buf.length) : read lib c = (.done, store c) := by
  unfold read readLoop
  rw [readString_full h]
  dsimp only
  rw [if_pos hs]

theorem readLoop_done (lib : Lib) (fuel : Nat) (c : ReadState) (h : Ok lib c)
    (hd : (readLoop lib fuel c).1 = .done) :
    (readLoop lib fuel c).2.packet.state = .finished ∧
      (readLoop lib fuel c).2.packet.reader.size ≤ (readLoop lib fuel c).2.packet.reader.buf.length := by
  induction fuel generalizing c with
  | zero => cases hd
  | succ fuel ih =>
    obtain ⟨-, -, -, hok, -, hfull⟩ := readString_spec lib c h
    unfold readLoop at hd ⊢
    split
    all_goals rename_i c' he; simp only [he] at hd hok hfull
    · cases hd
    · cases hd
    · split
      · rename_i hs
        have hbuf : (store c').packet.reader = c'.packet.reader := by
          unfold store
          split <;> rfl
        exact ⟨by rw [store_state, hs], by rw [hbuf]; exact Nat.le_of_eq (hfull.1 trivial).symm⟩
      · rename_i hs
        rw [if_neg hs] at hd
        obtain ⟨-, hmatch⟩ := transition_spec lib c' hok hs (hfull.1 trivial)
        split
        all_goals rename_i c'' hw; simp only [hw] at hd hmatch
        · cases hd
        · exact ih c'' hmatch hd

theorem read_done (h : Ok lib c) (hd : (read lib c).1 = .done) :
    (read lib c).2.packet.state = .finished ∧
      (read lib c).2.packet.reader.size ≤ (read lib c).2.packet.reader.buf.length :=
  readLoop_done lib 6 c h hd

theorem store_magic {b : UInt8} (hst : c.packet.state = .magic)
    (hr : c.packet.reader = { size := 1, buf := [b] }) :
    (store c).packet = { c.packet with magic := some [b] } := by
  unfold store
  rw [hst, hr]

variable (lib) in
theorem read_badMagic {b : UInt8} (hb : b ≠ 0x46) (hst : c.packet.state = .magic)
    (hr : c.packet.reader = { size := 1, buf := [b] }) : read lib c = (.failed, store c) := by
  unfold read readLoop
  rw [readString_full (by rw [hr]; exact Nat.le_refl 1)]
  dsimp only
  rw [if_neg (by rw [hst]; simp)]
  unfold transition
  rw [store_state, hst]
  dsimp only
  rw [transitionFromMagic, if_pos]
  rw [store_magic hst hr]
  simpa [magicString] using hb

theorem Stuck.read {silent : Prop} (h : Stuck lib silent c)
    (hs : silent → ∀ a ∈ c.socket.reads, Silent a) :
    (read lib c).1 ≠ .done ∧ Stuck lib silent (read lib c).2 := by
  cases h with
  | cut hp hsil =>
    have hsame : (readString c).2.packet = c.packet := by
      have := c.packet.reader.readLoop_silent (c.socket.reads.length + 1) c.socket (hs hsil)
      show { c.packet with reader := (c.packet.reader.read c.socket).2.1 } = c.packet
      rw [NonblockingStringReader.read, this]
    have hnd : (readString c).1 ≠ .done := by
      obtain ⟨-, -, -, -, -, hfull⟩ := readString_spec lib c hp.ok
      rw [ne_eq, hfull, hsame]
      exact Nat.ne_of_lt hp.short
    have hread : NonblockingPacketReader.read lib c = readString c := by
      unfold NonblockingPacketReader.read readLoop
      split
      all_goals rename_i he; rw [he] at hnd
      · rw [he]
      · rw [he]
      · exact absurd rfl hnd
    rw [hread]
    exact ⟨hnd, .cut (hp.of_packet hsame) hsil⟩
  | badMagic hb hst hr =>
    rw [read_badMagic lib hb hst hr]
    exact ⟨by simp, .badMagic hb (by rw [store_state, hst]) (by rw [store_magic hst hr, ← hr])⟩

/-- The reader has read a packet as a whole, and its message does not parse. -/
inductive Half (lib : Lib) (c : ReadState) : Prop
  | mk {msg v : Bytes} : c.packet.state = .finished →
      c.packet.reader.buf.length = c.packet.reader.size → Framed c.packet.consumed msg v →
      (lib.parseMessage msg).1 = false → Half lib c

theorem Half.of_packet (h : Half lib c) (hp : c'.packet = c.packet) : Half lib c' := by
  cases h with
  | mk hs hfull hf hparse =>
    exact .mk (by rw [hp]; exact hs) (by rw [hp]; exact hfull) (by rw [hp]; exact hf) hparse

/-- Where a reader can stand that is called again and again. -/
inductive Stands (lib : Lib) (silent : Prop) (c : ReadState) : Prop
  | going : Pending lib c → Stands lib silent c
  | stuck : Stuck lib silent c → Stands lib silent c
  | half : Half lib c → Stands lib silent c

theorem Stands.of_packet {silent : Prop} (h : Stands lib silent c) (hp : c'.packet = c.packet) :
    Stands lib silent c' := by
  cases h with
  | going h => exact .going (h.of_packet hp)
  | stuck h => exact .stuck (h.of_packet hp)
  | half h => exact .half (h.of_packet hp)

theorem Stands.mono {silent silent' : Prop} (h : Stands lib silent c) (hi : silent → silent') :
    Stands lib silent' c := by
  cases h with
  | going h => exact .going h
  | stuck h => exact .stuck (h.mono hi)
  | half h => exact .half h

/-! ## Calls after calls -/

theorem Stuck.readAll {silent : Prop} (h : Stuck lib silent c) (turns : List ReadTurn)
    (hs : silent → ∀ t ∈ turns, ∀ a ∈ t.reads, Silent a) : .done ∉ readAll lib turns c := by
  induction turns generalizing c with
  | nil => exact List.not_mem_nil
  | cons t ts ih =>
    have harr : Stuck lib silent (c.arrive t) := h.of_packet rfl
    obtain ⟨hnd, hst⟩ := harr.read fun hsil => hs hsil t List.mem_cons_self
    unfold L1.readAll
    exact List.not_mem_cons_of_ne_of_not_mem (Ne.symm hnd)
      (ih hst fun hsil u hu => hs hsil u (List.mem_cons_of_mem _ hu))

variable (lib) in
theorem readAll_finished (turns : List ReadTurn) (hs : c.packet.state = .finished)
    (h : c.packet.reader.size ≤ c.packet.reader.buf.length) : .failed ∉ readAll lib turns c := by
  induction turns generalizing c with
  | nil => exact List.not_mem_nil
  | cons t ts ih =>
    have hread : NonblockingPacketReader.read lib (c.arrive t) = (.done, store (c.arrive t)) :=
      read_finished hs h
    have hstore : (store (c.arrive t)).packet.reader = c.packet.reader := by
      unfold store
      split <;> rfl
    unfold L1.readAll
    rw [hread]
    refine List.not_mem_cons_of_ne_of_not_mem (by simp) (ih ?_ ?_)
    · rw [store_state]
      exact hs
    · rw [hstore]
      exact h

theorem read_stream {t : ReadTurn} {c' : ReadState} {got : Bytes} (rest : Bytes)
    (ht : Took (c.arrive t).socket c'.socket got)
    (hc : c'.packet.consumed = (c.arrive t).packet.consumed ++ got) :
    c.packet.consumed ++ (c.socket.incoming ++ (t.arrives ++ rest)) =
      c'.packet.consumed ++ (c'.socket.incoming ++ rest) := by
  have h1 : (c.arrive t).packet = c.packet := rfl
  have h2 : c.socket.incoming ++ t.arrives = got ++ c'.socket.incoming := ht.stream
  rw [hc, h1, List.append_assoc, ← List.append_assoc got, ← h2, List.append_assoc]

theorem silent_after {reads left later : List IoResult} {a : IoResult}
    (h : Sticky (reads ++ later)) (ha : Broken a) (hs : (a :: left) <:+ reads) :
    ∀ r ∈ left ++ later, Silent r := by
  obtain ⟨pre, rfl⟩ := hs
  have h' : Sticky ((pre ++ [a]) ++ (left ++ later)) := by simpa using h
  exact h'.after (List.mem_append_right _ List.mem_cons_self) ha

theorem Stuck.of_failed (later : List IoResult) (h : Ok lib c)
    (hf : (NonblockingPacketReader.read lib c).1 = .failed) (hs : Sticky (c.socket.reads ++ later)) :
    Stuck lib (∀ r ∈ (NonblockingPacketReader.read lib c).2.socket.reads ++ later, Silent r)
      (NonblockingPacketReader.read lib c).2 ∨ Half lib (NonblockingPacketReader.read lib c).2 := by
  rcases readLoop_failed lib 6 c h hf with ⟨hp, a, ha, hsuf⟩ | hr
  · exact .inl (.cut hp (silent_after hs ha hsuf))
  · cases hr with
    | badMagic hb hst hr => exact .inl (.badMagic hb hst hr)
    | badMessage hst hfull hfr hpf => exact .inr (.mk hst hfull hfr hpf)

/-- A reader whose message has been turned down stands behind a half-parsed packet. -/
theorem Half.halfParsed (h : Half lib c) (rest : Bytes) : HalfParsed lib (c.packet.consumed ++ rest) := by
  cases h with
  | @mk msg v _ _ hf hp =>
    exact ⟨msg, v, rest, congrArg (· ++ rest) hf.bytes, hf.msg_lt, hf.v_lt, hp⟩

theorem Half.read (h : Half lib c) : (NonblockingPacketReader.read lib c).1 = .done ∧
    (NonblockingPacketReader.read lib c).2.packet.consumed = c.packet.consumed ∧
    (NonblockingPacketReader.read lib c).2.socket = c.socket := by
  cases h with
  | mk hs hfull _ _ =>
    rw [read_finished hs (Nat.le_of_eq hfull.symm)]
    exact ⟨rfl, store_consumed c, store_socket c⟩

/-- What a call comes to that leaves the reader in `c'`, `later` being the answers
of the calls after it. -/
structure Comes (lib : Lib) (later : List IoResult) (c : ReadState) (st : NonblockingStringStatus)
    (c' : ReadState) : Prop where
  took : ∃ got, Took c.socket c'.socket got ∧ c'.packet.consumed = c.packet.consumed ++ got
  going : st = .inProgress → Stands lib (∀ a ∈ c'.socket.reads ++ later, Silent a) c'
  failed : st = .failed → Stuck lib (∀ a ∈ c'.socket.reads ++ later, Silent a) c' ∨ Half lib c'
  done : st = .done → ∃ msg v, Framed c'.packet.consumed msg v

theorem Pending.comes {later : List IoResult} (h : Pending lib c)
    (hs : Sticky (c.socket.reads ++ later)) :
    Comes lib later c (NonblockingPacketReader.read lib c).1
      (NonblockingPacketReader.read lib c).2 := by
  obtain ⟨got, ht, hc, ho⟩ := read_spec lib c h.ok (fun h : True → False => (h trivial).elim)
  have hfailed := fun hst => Stuck.of_failed later h.ok hst hs
  generalize NonblockingPacketReader.read lib c = out at ht hc ho hfailed ⊢
  obtain ⟨st, c'⟩ := out
  refine ⟨⟨got, ht, hc⟩, ?_, hfailed, ?_⟩
  · rintro rfl
    cases ho with
    | pending hp => exact .going hp
  · rintro rfl
    cases ho with
    | complete hf _ _ => exact ⟨_, _, hf⟩

/-- **A call, wherever the reader stands**: it takes bytes of the packet, and what
it is done with is a whole packet. -/
theorem Stands.comes {later : List IoResult}
    (h : Stands lib (∀ r ∈ c.socket.reads ++ later, Silent r) c)
    (hs : Sticky (c.socket.reads ++ later)) :
    Comes lib later c (NonblockingPacketReader.read lib c).1
      (NonblockingPacketReader.read lib c).2 := by
  cases h with
  | going h => exact h.comes hs
  | half h =>
    obtain ⟨hd, hc, hk⟩ := h.read
    refine ⟨⟨[], by rw [hk]; exact .refl _, by rw [hc, List.append_nil]⟩, by simp [hd],
      by simp [hd], fun _ => ?_⟩
    cases h with
    | mk _ _ hf _ => exact ⟨_, _, by rw [hc]; exact hf⟩
  | stuck h =>
    cases h with
    | cut h _ => exact h.comes hs
    | @badMagic b hb hst hr =>
      have hstuck : Stuck lib (∀ a ∈ (store c).socket.reads ++ later, Silent a) (store c) :=
        .badMagic hb (by rw [store_state, hst]) (by rw [store_magic hst hr, ← hr])
      rw [read_badMagic lib hb hst hr]
      exact ⟨⟨[], by rw [store_socket]; exact .refl _, by rw [store_consumed, List.append_nil]⟩,
        by simp, fun _ => .inl hstuck, by simp⟩

/-- **A reader that has failed stays so**, on such a stream. -/
theorem readAll_stays (turns : List ReadTurn) (h : Pending lib c)
    (hs : Sticky (turns.flatMap ReadTurn.reads))
    (hn : ¬ HalfParsed lib (c.packet.consumed ++ (c.socket.incoming ++ arrivals turns))) :
    (L1.readAll lib turns c).Pairwise fun st st' => st = .failed → st' ≠ .done := by
  induction turns generalizing c with
  | nil => exact .nil
  | cons t ts ih =>
    have hok : Ok lib (c.arrive t) := h.ok
    obtain ⟨x, ht, hc, ho⟩ := read_spec lib (c.arrive t) hok (fun h : True → False => (h trivial).elim)
    have hdone := read_done hok
    have hfail := Stuck.of_failed (ts.flatMap ReadTurn.reads) hok
    have hhalf : Half lib (NonblockingPacketReader.read lib (c.arrive t)).2 → _ :=
      fun h => h.halfParsed
        ((NonblockingPacketReader.read lib (c.arrive t)).2.socket.incoming ++ arrivals ts)
    rw [arrivals, List.flatMap_cons, ← arrivals, read_stream (arrivals ts) ht hc] at hn
    rw [List.flatMap_cons] at hs
    unfold L1.readAll
    generalize NonblockingPacketReader.read lib (c.arrive t) = out at ho hdone hfail hhalf hn ⊢
    obtain ⟨st, c'⟩ := out
    dsimp only at ho hdone hfail hhalf hn ⊢
    cases st with
    | inProgress =>
      have hp : Pending lib c' := by cases ho; assumption
      exact .cons (fun _ _ hf => by cases hf) (ih hp (List.pairwise_append.1 hs).2.1 hn)
    | done =>
      obtain ⟨hst, hfull⟩ := hdone rfl
      have hrest := readAll_finished lib ts hst hfull
      refine .cons (fun _ _ hf => by cases hf) (List.pairwise_of_forall_mem_list fun a ha _ _ hf => ?_)
      rw [hf] at ha
      exact absurd ha hrest
    | failed =>
      have hrest := ((hfail rfl hs).resolve_right fun h => hn (hhalf h)).readAll ts fun hsil u hu a ha => hsil a
        (List.mem_append_right _ (List.mem_flatMap.2 ⟨u, hu, ha⟩))
      have hne : ∀ b ∈ L1.readAll lib ts c', b ≠ .done := fun b hb hd => hrest (hd ▸ hb)
      exact .cons (fun b hb _ => hne b hb) (List.pairwise_of_forall_mem_list fun _ _ b hb _ => hne b hb)

variable (lib) in
/-- Where a half-parsed packet starts, a transport that hands it over has `Read`
fail, and done if it is called again. -/
theorem read_half_parsed {msg v rest : Bytes} (hm : msg.length < 2 ^ 32) (hv : v.length < 2 ^ 32)
    (hpf : (lib.parseMessage msg).1 = false) (h : Pending lib c) (h0 : c.packet.consumed = [])
    (hin : c.socket.incoming = frame msg v ++ rest)
    (he : Eager c.socket.reads (frame msg v).length) :
    (read lib c).1 = .failed ∧ (read lib c).2.packet.state = .finished ∧
      (read lib c).2.packet.reader.size ≤ (read lib c).2.packet.reader.buf.length := by
  obtain ⟨x, ht, hc, ho⟩ := read_spec lib c h.ok (fun _ : True => he.readsFragment)
  have hstream : (read lib c).2.packet.consumed ++ (read lib c).2.socket.incoming =
      frame msg v ++ rest := by
    rw [hc, h0, List.nil_append, ← hin, ht.stream]
  rcases ho.at_frame hm hv hstream with ⟨hcons, -, ⟨-, hp, -⟩ | ⟨hf, -⟩⟩ | ⟨-, hpd, hlt, hst⟩
  · rw [hp] at hpf
    cases hpf
  · refine ⟨hf, ?_⟩
    rcases readLoop_failed lib 6 c h.ok hf with ⟨hp, -⟩ | hr
    · exact absurd ⟨hcons, hm, hv⟩ (not_framed hp)
    · cases hr with
      | badMagic _ hs hb =>
        have hlen : (read lib c).2.packet.consumed.length = 1 := by
          show (readLoop lib 6 c).2.packet.consumed.length = 1
          rw [consumed, hs, hb]
          rfl
        rw [hcons, frame_length] at hlen
        omega
      | badMessage hs hfull _ _ => exact ⟨hs, Nat.le_of_eq hfull.symm⟩
  · have hempty := (readLoop_eager lib 6 _ c msg v [] rest h.ok (rank_lt _) hm hv
      (by rw [h0, hin]; simp) he (Nat.le_add_right _ _)).1 (hst trivial)
    have hall := congrArg List.length hstream
    rw [show (read lib c).2.socket.incoming = [] from hempty, List.append_nil, List.length_append]
      at hall
    omega

end NonblockingPacketReader

/-- The whole stream at once, one byte a read, and then nothing. -/
def atOnce (b : Bytes) : List ReadTurn := [⟨b, List.replicate b.length (.count 1)⟩, ⟨[], []⟩]

/-- **A reader that is asked again** has failed and is done. -/
theorem HalfParsed.readAll {lib : Lib} {b : Bytes} (h : HalfParsed lib b) (m₀ : Message)
    (v₀ : Option Bytes) (fd : Nat) : readAll lib (atOnce b) (freshRead m₀ v₀ fd) = [.failed, .done] := by
  obtain ⟨msg, v, rest, rfl, hm, hv, hpf⟩ := h
  have heager : Eager (List.replicate (frame msg v ++ rest).length (IoResult.count 1))
      (frame msg v).length := .bytewise (by simp)
  obtain ⟨hf, hs, hfull⟩ := read_half_parsed lib
    (c := (freshRead m₀ v₀ fd).arrive ⟨frame msg v ++ rest,
      List.replicate (frame msg v ++ rest).length (.count 1)⟩) hm hv hpf
    (pending_create lib m₀ v₀ _) rfl (show _ = frame msg v ++ rest from rfl) heager
  unfold atOnce L1.readAll
  generalize NonblockingPacketReader.read lib _ = out at hf hs hfull ⊢
  obtain ⟨st, c'⟩ := out
  obtain rfl : st = .failed := hf
  have hread : NonblockingPacketReader.read lib (c'.arrive ⟨[], []⟩) =
      (.done, store (c'.arrive ⟨[], []⟩)) := read_finished hs hfull
  dsimp only
  rw [L1.readAll, hread]
  rfl

/-- **One packet reader stays failed** on exactly the streams that do not begin
with a whole packet whose message does not parse. -/
theorem staysFailed_iff (lib : Lib) (b : Bytes) : StaysFailed lib b ↔ ¬ HalfParsed lib b := by
  constructor
  · intro h hb
    have harr : arrivals (atOnce b) = b := by simp [arrivals, atOnce]
    have hsticky : Sticky ((atOnce b).flatMap ReadTurn.reads) := by
      refine List.pairwise_of_forall_mem_list fun r hr _ _ hbr => ?_
      have hr' : b ≠ [] ∧ r = .count 1 := by simpa [atOnce] using hr
      rw [hr'.2] at hbr
      rcases hbr with hbr | hbr <;> cases hbr
    have hall := h {} none 0 (atOnce b) harr hsticky
    rw [hb.readAll] at hall
    exact (List.pairwise_cons.1 hall).1 .done (by simp) rfl rfl
  · rintro hn m₀ v₀ fd turns rfl hs
    exact readAll_stays turns (pending_create lib m₀ v₀ _) hs hn

end Kinetic.L1
