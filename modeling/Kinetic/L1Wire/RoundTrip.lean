import Kinetic.L1Wire.Packet

/-!
# Packets survive the wire

What the reader finds on a stream, and that decoding undoes encoding under any
fragmentation: of the writes, of the reads, and of the arrival of the bytes.
-/
open Kinetic.Core Kinetic.Core.Socket

namespace Kinetic.L1

theorem NonblockingPacketReader.Framed.unique {b msg v msg' v' tail r : Bytes}
    (h : Framed b msg v) (hm : msg'.length < 2 ^ 32)
    (hv : v'.length < 2 ^ 32) (hs : b ++ tail = frame msg' v' ++ r) :
    msg = msg' ∧ v = v' ∧ tail = r := by
  obtain ⟨rfl, hml, hvl⟩ := h
  simp only [frame, List.append_assoc] at hs
  obtain ⟨-, hs⟩ := List.append_inj hs rfl
  obtain ⟨h1, hs⟩ := List.append_inj hs rfl
  obtain ⟨h2, hs⟩ := List.append_inj hs rfl
  have e1 : msg.length = msg'.length := by
    rw [← fromBe32_be32 _ hml, h1, fromBe32_be32 _ hm]
  have e2 : v.length = v'.length := by
    rw [← fromBe32_be32 _ hvl, h2, fromBe32_be32 _ hv]
  obtain ⟨h3, hs⟩ := List.append_inj hs e1
  obtain ⟨h4, hs⟩ := List.append_inj hs e2
  exact ⟨h3, h4, hs⟩

namespace NonblockingPacketReader

theorem Ok.fits {lib : Lib} {c : ReadState} {msg v tail r : Bytes} (h : Ok lib c)
    (hs : c.packet.state ≠ .finished) (hm : msg.length < 2 ^ 32) (hv : v.length < 2 ^ 32)
    (hst : c.packet.consumed ++ tail = frame msg v ++ r) :
    c.packet.consumed.length + (c.packet.reader.size - c.packet.reader.buf.length) ≤
      (frame msg v).length := by
  obtain ⟨hok, h⟩ := h
  unfold NonblockingStringReader.Ok at hok
  simp only [consumed] at hst ⊢
  rw [frame_length]
  split at h
  all_goals rename_i he; simp only [he] at hst ⊢
  · omega
  · obtain ⟨hmag, hsz⟩ := h
    simp only [hmag, Option.getD_some, magicString, List.length_append, List.length_singleton]
    omega
  · obtain ⟨hmag, hml, hsz⟩ := h
    simp only [hmag, Option.getD_some, magicString, List.length_append, List.length_singleton]
    omega
  · obtain ⟨hmag, hml, hvl, hsz⟩ := h
    simp only [hmag, Option.getD_some, frame, List.append_assoc] at hst
    obtain ⟨-, hst⟩ := List.append_inj hst rfl
    obtain ⟨h1, -⟩ := List.append_inj hst (by rw [hml, be32_length])
    rw [h1, fromBe32_be32 _ hm] at hsz
    simp only [hmag, Option.getD_some, magicString, List.length_append, List.length_singleton]
    omega
  · obtain ⟨hmag, hml, hvl, hmsg, hsz⟩ := h
    simp only [hmag, Option.getD_some, frame, List.append_assoc] at hst
    obtain ⟨-, hst⟩ := List.append_inj hst rfl
    obtain ⟨h1, hst⟩ := List.append_inj hst (by rw [hml, be32_length])
    obtain ⟨h2, -⟩ := List.append_inj hst (by rw [hvl, be32_length])
    rw [h1, fromBe32_be32 _ hm] at hmsg
    rw [h2, fromBe32_be32 _ hv] at hsz
    simp only [hmag, Option.getD_some, magicString, List.length_append, List.length_singleton]
    omega
  · exact absurd he hs

theorem Ok.magic {lib : Lib} {c : ReadState} (h : Ok lib c) :
    (c.packet.state = .magic ∧ c.packet.consumed = c.packet.reader.buf ∧
      c.packet.reader.size = 1) ∨
    ∃ t, c.packet.consumed = 0x46 :: t := by
  obtain ⟨-, h⟩ := h
  simp only [consumed]
  split at h
  all_goals rename_i he; simp only [he]
  · exact .inl ⟨trivial, trivial, h⟩
  all_goals
    refine .inr ?_
    simp [h.1, magicString]

/-- **Reading where a packet starts**: once all its bytes have been taken the
packet is there, or it is turned down for its message; until then the reader waits. -/
theorem Outcome.at_frame {lib : Lib} {fragments : Prop} {st : NonblockingStringStatus}
    {c : ReadState} {msg v tail r : Bytes} (h : Outcome lib fragments st c)
    (hm : msg.length < 2 ^ 32) (hv : v.length < 2 ^ 32)
    (hs : c.packet.consumed ++ tail = frame msg v ++ r) :
    (c.packet.consumed = frame msg v ∧ tail = r ∧
      ((st = .done ∧ lib.parseMessage msg = (true, c.response) ∧ c.value = some v) ∨
        (st = .failed ∧ (lib.parseMessage msg).1 = false))) ∨
    (st ≠ .done ∧ Pending lib c ∧ c.packet.consumed.length < (frame msg v).length ∧
      (fragments → st = .inProgress)) := by
  have hlt : ∀ {c' : ReadState}, Pending lib c' → c'.packet.consumed ++ tail = frame msg v ++ r →
      c'.packet.consumed.length < (frame msg v).length := by
    intro c' hp' hs'
    have := hp'.ok.fits hp'.unfinished hm hv hs'
    have := hp'.short
    omega
  cases h with
  | pending hpd => exact .inr ⟨by simp, hpd, hlt hpd hs, fun _ => rfl⟩
  | broken hpd hn => exact .inr ⟨by simp, hpd, hlt hpd hs, fun hf => absurd hf hn⟩
  | badMagic hb hc =>
    rw [hc] at hs
    simp only [frame, magicString, List.append_assoc, List.cons_append, List.cons.injEq] at hs
    exact absurd hs.1 hb
  | badMessage hfr hpf =>
    obtain ⟨rfl, rfl, ht⟩ := hfr.unique hm hv hs
    exact .inl ⟨hfr.bytes, ht, .inr ⟨rfl, hpf⟩⟩
  | complete hfr hpt hval =>
    obtain ⟨rfl, rfl, ht⟩ := hfr.unique hm hv hs
    exact .inl ⟨hfr.bytes, ht, .inl ⟨rfl, hpt, hval⟩⟩

theorem Outcome.on_frame {lib : Lib} {fragments : Prop} {st : NonblockingStringStatus}
    {c : ReadState} {msg v tail r : Bytes} (h : Outcome lib fragments st c)
    (hm : msg.length < 2 ^ 32) (hv : v.length < 2 ^ 32) (hp : (lib.parseMessage msg).1 = true)
    (hs : c.packet.consumed ++ tail = frame msg v ++ r) :
    (st = .done ∧ c.packet.consumed = frame msg v ∧ tail = r ∧
      lib.parseMessage msg = (true, c.response) ∧ c.value = some v) ∨
    (st ≠ .done ∧ Pending lib c ∧ c.packet.consumed.length < (frame msg v).length ∧
      (fragments → st = .inProgress)) := by
  refine (h.at_frame hm hv hs).imp_left ?_
  rintro ⟨hc, ht, ⟨hst, hpt, hval⟩ | ⟨-, hpf⟩⟩
  · exact ⟨hst, hc, ht, hpt, hval⟩
  · rw [hp] at hpf; cases hpf

theorem Pending.takes {lib : Lib} {fragments : Prop} {c c' : ReadState} {got : Bytes}
    (h : Pending lib c) (ho : Outcome lib fragments .done c')
    (hc : c'.packet.consumed = c.packet.consumed ++ got) : got ≠ [] := by
  rintro rfl
  cases ho with
  | complete hfr _ _ =>
    rw [hc, List.append_nil] at hfr
    have := h.ok.fits h.unfinished hfr.msg_lt hfr.v_lt (congrArg (· ++ []) hfr.bytes)
    rw [← hfr.bytes] at this
    have := h.short
    omega

theorem not_framed {lib : Lib} {c : ReadState} (h : Pending lib c) {msg v : Bytes} :
    ¬ Framed c.packet.consumed msg v := by
  intro hf
  have hfits := h.ok.fits h.unfinished hf.msg_lt hf.v_lt (congrArg (· ++ []) hf.bytes)
  rw [← hf.bytes] at hfits
  have := h.short
  omega

theorem not_badMagic {lib : Lib} {c : ReadState} (h : Pending lib c) {b : UInt8} (hb : b ≠ 0x46) :
    c.packet.consumed ≠ [b] := by
  intro hc
  obtain ⟨-, hbuf, hsz⟩ | ⟨t, ht⟩ := h.ok.magic
  · have := h.short
    rw [hbuf] at hc
    rw [hc, hsz] at this
    simp at this
  · rw [hc] at ht
    exact hb (List.cons.inj ht).1

theorem Outcome.on_other {lib : Lib} {fragments : Prop} {st : NonblockingStringStatus}
    {c : ReadState} {b : UInt8} {tail rest : Bytes} (h : Outcome lib fragments st c)
    (hb : b ≠ 0x46) (hs : c.packet.consumed ++ tail = b :: rest) :
    (st = .failed ∧ c.packet.consumed = [b]) ∨
    (st ≠ .done ∧ Pending lib c ∧ c.packet.consumed = [] ∧ (fragments → st = .inProgress)) := by
  have hF : ∀ {x : Bytes}, x ++ tail = b :: rest → ¬ ∃ t, x = 0x46 :: t := by
    rintro x hx ⟨t, rfl⟩
    simp only [List.cons_append, List.cons.injEq] at hx
    exact hb hx.1.symm
  have h0 : ∀ {c' : ReadState}, Pending lib c' → c'.packet.consumed ++ tail = b :: rest →
      c'.packet.consumed = [] := by
    intro c' hp hs'
    obtain ⟨-, hc, hsz⟩ | hF' := hp.ok.magic
    · have := hp.short
      rw [hc]; exact List.length_eq_zero_iff.1 (by omega)
    · exact absurd hF' (hF hs')
  cases h with
  | pending hpd => exact .inr ⟨by simp, hpd, h0 hpd hs, fun _ => rfl⟩
  | broken hpd hn => exact .inr ⟨by simp, hpd, h0 hpd hs, fun hf => absurd hf hn⟩
  | badMagic hb' hc =>
    rw [hc] at hs
    simp only [List.cons_append, List.nil_append, List.cons.injEq] at hs
    exact .inl ⟨rfl, by rw [hc, hs.1]⟩
  | badMessage hfr _ => exact absurd ⟨_, by rw [hfr.bytes]; rfl⟩ (hF hs)
  | complete hfr _ _ => exact absurd ⟨_, by rw [hfr.bytes]; rfl⟩ (hF hs)

/-- Where a packet starts, a transport that hands over what has arrived leaves
nothing behind in a packet that is not complete, and spends an answer on each
byte of one that is. -/
theorem readLoop_eager (lib : Lib) (fuel n : Nat) (c : ReadState) (msg v later r : Bytes)
    (h : Ok lib c) (hf : c.packet.state.rank < fuel) (hm : msg.length < 2 ^ 32)
    (hv : v.length < 2 ^ 32)
    (hs : c.packet.consumed ++ (c.socket.incoming ++ later) = frame msg v ++ r)
    (he : Eager c.socket.reads n) (hn : (frame msg v).length ≤ n + c.packet.consumed.length) :
    ((readLoop lib fuel c).1 = .inProgress → (readLoop lib fuel c).2.socket.incoming = []) ∧
      ((readLoop lib fuel c).1 = .done → Eager (readLoop lib fuel c).2.socket.reads
        (n + c.packet.consumed.length - (readLoop lib fuel c).2.packet.consumed.length)) := by
  induction fuel generalizing c n with
  | zero => omega
  | succ fuel ih =>
    obtain ⟨x, ht, hc, hok, hst, hfull⟩ := readString_spec lib c h
    have hsize : c.packet.reader.size - c.packet.reader.buf.length ≤ n := by
      by_cases hfin : c.packet.state = .finished
      · have := h.2; rw [hfin] at this
        have := this.2.2.2.2.2.1; omega
      · have := h.fits hfin hm hv hs; omega
    have hlen : (readString c).1 = .done →
        x.length = c.packet.reader.size - c.packet.reader.buf.length := by
      intro hd
      obtain ⟨y, -, hyb, hys, -, hyf⟩ := c.packet.reader.read_spec c.socket h.1
      have h1 : (readString c).2.packet.reader.buf = c.packet.reader.buf ++ y := hyb
      have h2 : (readString c).2.packet.reader.size = c.packet.reader.size := hys
      have h3 := hfull.1 hd
      rw [h1, h2, List.length_append] at h3
      have h4 : (readString c).2.packet.consumed = c.packet.consumed ++ y := by
        simp only [readString, consumed]
        split <;> simp [hyb, List.append_assoc]
      have h5 : x = y := List.append_cancel_left (hc.symm.trans h4)
      rw [h5]; omega
    obtain ⟨hemp, heag⟩ := c.packet.reader.read_eager c.socket n h.1 he hsize
    have heag' : (readString c).1 = .done → Eager (readString c).2.socket.reads (n - x.length) := by
      intro hd; rw [hlen hd]; exact heag hd
    have hemp' : (readString c).1 = .inProgress → (readString c).2.socket.incoming = [] := hemp
    unfold readLoop
    split
    all_goals rename_i c' hrs; simp only [hrs] at ht hc hok hst hfull heag' hemp'
    · exact ⟨fun _ => hemp' trivial, by simp⟩
    · simp
    · split
      · refine ⟨by simp, fun _ => ?_⟩
        rw [store_socket, store_consumed, hc, List.length_append]
        have := heag' trivial
        rwa [show n + c.packet.consumed.length - (c.packet.consumed.length + x.length) =
          n - x.length by omega]
      · rename_i hfin
        obtain ⟨hcons, hmatch⟩ := transition_spec lib c' hok hfin (hfull.1 trivial)
        have hrank := transition_rank lib (store c') (by rwa [store_state])
        have hsock := transition_socket lib (store c')
        rw [store_socket] at hsock
        rw [store_state, hst] at hrank
        split
        · simp
        rename_i c'' hw
        simp only [hw] at hcons hmatch hrank hsock
        have hx := hlen (by rw [hrs])
        have hlen'' : c''.packet.consumed.length = c.packet.consumed.length + x.length := by
          rw [hcons, hc, List.length_append]
        rw [show n + c.packet.consumed.length = n - x.length + c''.packet.consumed.length by omega]
        refine ih (n - x.length) c'' hmatch (by have := hrank trivial; omega) ?_ ?_ ?_
        · rw [hsock, hcons, hc, ← hs, ht.stream]; simp only [List.append_assoc]
        · rw [hsock]; exact heag' trivial
        · omega

end NonblockingPacketReader

/-! ## Calls until one completes -/

/-- What the transport does in one call of `Write`. -/
structure WriteTurn where
  fstats : List Bool
  writes : List IoResult

/-- Call `Write` until it does not answer `kInProgress`. -/
def writeCalls (lib : Lib) : List WriteTurn → NonblockingPacketWriter → Socket →
    NonblockingStringStatus × NonblockingPacketWriter × Socket
  | [], w, k => (.inProgress, w, k)
  | t :: ts, w, k =>
    match w.write lib { k with fstats := t.fstats, writes := t.writes } with
    | (.inProgress, w', k') => writeCalls lib ts w' k'
    | (.done, w', k') => (.done, w', k')
    | (.failed, w', k') => (.failed, w', k')

theorem writeCalls_spec (lib : Lib) (turns : List WriteTurn) (w : NonblockingPacketWriter)
    (k : Socket) :
    ∃ out, (writeCalls lib turns w k).2.2.sent = k.sent ++ out ∧
      w.remaining lib = out ++ (writeCalls lib turns w k).2.1.remaining lib ∧
      ((writeCalls lib turns w k).1 = .done →
        (writeCalls lib turns w k).2.1.remaining lib = []) := by
  induction turns generalizing w k with
  | nil => exact ⟨[], by simp [writeCalls], rfl, by simp [writeCalls]⟩
  | cons t ts ih =>
    obtain ⟨x, hx⟩ := w.write_spec lib { k with fstats := t.fstats, writes := t.writes }
    obtain ⟨hg, hrem, hfull⟩ := hx
    have hsent := hg.sent
    unfold writeCalls
    split
    all_goals rename_i w' k' he; simp only [he] at hsent hrem hfull
    · obtain ⟨y, hy, hr, hd⟩ := ih w' k'
      exact ⟨x ++ y, by rw [hy, hsent, List.append_assoc], by rw [hrem, hr, List.append_assoc], hd⟩
    · exact ⟨x, hsent, hrem, fun _ => hfull trivial⟩
    · exact ⟨x, hsent, hrem, by simp⟩

/-- What the transport does in one call of `Read`: bytes that arrive before
it, and the answers. -/
structure ReadTurn where
  arrives : Bytes
  reads : List IoResult

def ReadState.arrive (c : ReadState) (t : ReadTurn) : ReadState :=
  { c with socket := { c.socket with incoming := c.socket.incoming ++ t.arrives, reads := t.reads } }

/-- Call `Read` until it does not answer `kInProgress`. -/
def readCalls (lib : Lib) : List ReadTurn → ReadState → NonblockingStringStatus × ReadState
  | [], c => (.inProgress, c)
  | t :: ts, c =>
    match NonblockingPacketReader.read lib (c.arrive t) with
    | (.inProgress, c') => readCalls lib ts c'
    | (.done, c') => (.done, c')
    | (.failed, c') => (.failed, c')

def arrivals (turns : List ReadTurn) : Bytes := turns.flatMap ReadTurn.arrives

open NonblockingPacketReader

/-- No byte is lost or made up between the stream and the reader. -/
theorem readCalls_spec (lib : Lib) (turns : List ReadTurn) (c : ReadState) (h : Pending lib c) :
    (∃ later, c.packet.consumed ++ (c.socket.incoming ++ arrivals turns) =
      (readCalls lib turns c).2.packet.consumed ++
        ((readCalls lib turns c).2.socket.incoming ++ later) ∧
      ((readCalls lib turns c).1 = .inProgress → later = [])) ∧
    Outcome lib (∀ t ∈ turns, ∀ a ∈ t.reads, Fragment a) (readCalls lib turns c).1
      (readCalls lib turns c).2 := by
  induction turns generalizing c with
  | nil => exact ⟨⟨[], rfl, fun _ => rfl⟩, .pending h⟩
  | cons t ts ih =>
    obtain ⟨x, ht, hc, ho⟩ := read_spec lib (c.arrive t)
      h.ok id
    have hacc : c.packet.consumed ++ (c.socket.incoming ++ arrivals (t :: ts)) =
        (read lib (c.arrive t)).2.packet.consumed ++
          ((read lib (c.arrive t)).2.socket.incoming ++ arrivals ts) := by
      have h1 : (c.arrive t).packet = c.packet := rfl
      have h2 : c.socket.incoming ++ t.arrives =
        x ++ (read lib (c.arrive t)).2.socket.incoming := ht.stream
      rw [hc, h1, List.append_assoc, ← List.append_assoc x, ← h2]
      simp [arrivals]
    have ho' := ho.mono (g := ∀ u ∈ t :: ts, ∀ a ∈ u.reads, Fragment a)
      fun hall => hall t List.mem_cons_self
    unfold readCalls
    split
    all_goals rename_i c' he; simp only [he] at hacc ho'
    · have hp : Pending lib c' := by cases ho'; assumption
      obtain ⟨⟨later, hl, hl0⟩, ho⟩ := ih c' hp
      exact ⟨⟨later, hacc.trans hl, hl0⟩,
        ho.mono fun hall u hu => hall u (List.mem_cons_of_mem _ hu)⟩
    · exact ⟨⟨arrivals ts, hacc, by simp⟩, ho'⟩
    · exact ⟨⟨arrivals ts, hacc, by simp⟩, ho'⟩

/-- Where a packet starts, turns that hand over what has arrived leave nothing
behind until it is complete. -/
theorem readCalls_eager (lib : Lib) (turns : List ReadTurn) (c : ReadState) (msg v later r : Bytes)
    (h : Pending lib c) (hm : msg.length < 2 ^ 32) (hv : v.length < 2 ^ 32)
    (hs : c.packet.consumed ++ (c.socket.incoming ++ (arrivals turns ++ later)) = frame msg v ++ r)
    (he : ∀ t ∈ turns, Eager t.reads (frame msg v).length) (h0 : c.socket.incoming = []) :
    (readCalls lib turns c).1 = .inProgress → (readCalls lib turns c).2.socket.incoming = [] := by
  induction turns generalizing c with
  | nil => exact fun _ => h0
  | cons t ts ih =>
    obtain ⟨x, ht, hc, ho⟩ := read_spec lib (c.arrive t) h.ok
      (fun h : True → False => (h trivial).elim)
    have hstream : c.packet.consumed ++ ((c.arrive t).socket.incoming ++ (arrivals ts ++ later)) =
        frame msg v ++ r := by
      rw [← hs]; simp [ReadState.arrive, arrivals, List.append_assoc]
    have hempty := readLoop_eager lib 6 _ (c.arrive t) msg v (arrivals ts ++ later) r h.ok
      (rank_lt _) hm hv hstream (he t List.mem_cons_self) (Nat.le_add_right _ _)
    replace hempty := hempty.1
    have ht' : (c.arrive t).socket.incoming = x ++ (read lib (c.arrive t)).2.socket.incoming :=
      ht.stream
    unfold readCalls
    split
    all_goals rename_i c' hr; simp only [hr] at hc ho ht'
    · have hp : Pending lib c' := by cases ho; assumption
      refine ih c' hp ?_ (fun u hu => he u (List.mem_cons_of_mem _ hu)) ?_
      · rw [hc, List.append_assoc, ← List.append_assoc x, ← ht']
        exact hstream
      · exact (congrArg (·.2.socket.incoming) hr).symm.trans (hempty (congrArg Prod.fst hr))
    · simp
    · simp

/-- A reader at the start of a packet on a fresh transport. -/
def freshRead (m₀ : Message) (v₀ : Option Bytes) (fd : Nat) : ReadState :=
  ⟨NonblockingPacketReader.create, m₀, v₀, opened fd⟩

/-- **Decoding undoes encoding.** Once the writer has reached `kDone`, a reader
of the bytes it wrote (and whatever follows them) is done exactly when it has
been handed the whole packet, with the message and the value that were written
and nothing taken of what follows; it never fails on a transport that only
fragments, and it is not kept waiting by one that hands over what has arrived.
Conversely, whatever the stream and the transport, the first completing call is
done only on a well-formed packet, and a first byte other than 'F' is all that
is ever taken of a stream that starts with it. -/
theorem decode_encode (lib : Lib) :
    (∀ (m : Message) (v : Bytes),
      lib.parseMessage (lib.serializeMessage m) = (true, m) →
      (lib.serializeMessage m).length < 2 ^ 32 → v.length < 2 ^ 32 →
      ∀ (fd : Nat) (wturns : List WriteTurn) (w : NonblockingPacketWriter) (k : Socket),
      writeCalls lib wturns (NonblockingPacketWriter.create m v) (opened fd) = (.done, w, k) →
      ∀ (m₀ : Message) (v₀ : Option Bytes) (r later : Bytes) (turns : List ReadTurn),
      arrivals turns ++ later = k.sent ++ r →
      (∀ t ∈ turns, ∀ a ∈ t.reads, Fragment a) →
      let size := 9 + (lib.serializeMessage m).length + v.length
      let c := readCalls lib turns (freshRead m₀ v₀ fd)
      c.1 ≠ .failed ∧
      (c.1 = .done ↔ c.2.packet.consumed.length = size) ∧
      c.2.packet.consumed.length ≤ size ∧
      (c.1 = .done → c.2.response = m ∧ c.2.value = some v ∧ c.2.packet.consumed = k.sent ∧
        c.2.socket.incoming <+: r) ∧
      ((∀ t ∈ turns, Eager t.reads size) → (c.1 = .done ↔ size ≤ (arrivals turns).length))) ∧
    (∀ (m₀ : Message) (v₀ : Option Bytes) (fd : Nat) (turns : List ReadTurn),
      let c := readCalls lib turns (freshRead m₀ v₀ fd)
      c.2.packet.consumed <+: arrivals turns ∧
      (c.1 = .done → ∃ msg value : Bytes, msg.length < 2 ^ 32 ∧ value.length < 2 ^ 32 ∧
        c.2.packet.consumed =
          magicString ++ be32 msg.length ++ be32 value.length ++ msg ++ value ∧
        lib.parseMessage msg = (true, c.2.response) ∧ c.2.value = some value) ∧
      (∀ b rest, arrivals turns = b :: rest → b ≠ 0x46 →
        c.1 ≠ .done ∧
        (c.2.packet.consumed = [] ∨ c.2.packet.consumed = [b] ∧ c.1 = .failed) ∧
        ((∀ t ∈ turns, ∀ a ∈ t.reads, Fragment a) →
          (c.1 = .failed ↔ c.2.packet.consumed = [b])))) := by
  refine ⟨?_, ?_⟩
  · intro m v hparse hm hv fd wturns w k hw m₀ v₀ r later turns hstream hfrag size c
    -- what the writer put on the wire
    have hsent : k.sent = encode lib m v := by
      obtain ⟨out, hs, hrem, hfull⟩ :=
        writeCalls_spec lib wturns (NonblockingPacketWriter.create m v) (opened fd)
      rw [hw] at hs hrem hfull
      rw [hfull rfl, NonblockingPacketWriter.remaining_create, List.append_nil] at hrem
      rw [hs, hrem]; rfl
    have hsize : (frame (lib.serializeMessage m) v).length = size := frame_length _ _
    rw [hsent, encode] at hstream
    -- what the reader makes of it
    have hp := pending_create lib m₀ v₀ (opened fd)
    obtain ⟨⟨rest, hacc, hrest⟩, ho⟩ := readCalls_spec lib turns (freshRead m₀ v₀ fd) hp
    have hfr : c.2.packet.consumed ++ (c.2.socket.incoming ++ (rest ++ later)) =
        frame (lib.serializeMessage m) v ++ r := by
      rw [← hstream]
      have : arrivals turns = c.2.packet.consumed ++ (c.2.socket.incoming ++ rest) := hacc
      rw [this]; simp only [List.append_assoc]
    have harr : (arrivals turns).length =
        c.2.packet.consumed.length + c.2.socket.incoming.length + rest.length := by
      have : arrivals turns = c.2.packet.consumed ++ (c.2.socket.incoming ++ rest) := hacc
      rw [this]; simp only [List.length_append]; omega
    rcases ho.on_frame hm hv (by rw [hparse]) hfr with
      ⟨hd, hcons, htail, hresp, hval⟩ | ⟨hnd, -, hlt, hprog⟩
    · have hd' : c.1 = .done := hd
      have hlen : c.2.packet.consumed.length = size := by rw [hcons, hsize]
      rw [hparse] at hresp
      simp only [hd', true_iff, ne_eq, reduceCtorEq, not_false_eq_true, forall_const]
      refine ⟨trivial, hlen, Nat.le_of_eq hlen, ⟨(congrArg Prod.snd hresp).symm, hval, ?_, ?_⟩, ?_⟩
      · rw [hsent]; exact hcons
      · exact ⟨rest ++ later, htail⟩
      · intro _; omega
    · have hip : c.1 = .inProgress := hprog hfrag
      have hlt' : c.2.packet.consumed.length < size := by rw [← hsize]; exact hlt
      simp only [hip, ne_eq, reduceCtorEq, not_false_eq_true, false_iff, false_implies, true_and]
      refine ⟨by omega, by omega, fun heag => ?_⟩
      have hempty : c.2.socket.incoming = [] :=
        readCalls_eager lib turns (freshRead m₀ v₀ fd) (lib.serializeMessage m) v later r hp hm hv
          hstream (by rw [hsize]; exact heag) rfl hip
      rw [hempty, hrest hip] at harr
      simp only [List.length_nil] at harr; omega
  · intro m₀ v₀ fd turns c
    have hp := pending_create lib m₀ v₀ (opened fd)
    obtain ⟨⟨rest, hacc, -⟩, ho⟩ := readCalls_spec lib turns (freshRead m₀ v₀ fd) hp
    have harr : arrivals turns = c.2.packet.consumed ++ (c.2.socket.incoming ++ rest) := hacc
    refine ⟨⟨_, harr.symm⟩, fun hd => ?_, fun b tl hb hne => ?_⟩
    · change Outcome lib _ c.1 c.2 at ho
      rw [hd] at ho
      cases ho with
      | complete hfr hpt hval => exact ⟨_, _, hfr.msg_lt, hfr.v_lt, hfr.bytes, hpt, hval⟩
    · rcases ho.on_other hne (harr.symm.trans hb) with ⟨hf, hc⟩ | ⟨hnd, -, hc, hprog⟩
      · have hf' : c.1 = .failed := hf
        exact ⟨by rw [hf']; simp, .inr ⟨hc, hf'⟩, fun _ => ⟨fun _ => hc, fun _ => hf'⟩⟩
      · have hc' : c.2.packet.consumed = [] := hc
        refine ⟨hnd, .inl hc', fun hfrag => ?_⟩
        have : c.1 = .inProgress := hprog hfrag
        rw [this, hc']; simp

/-- The empty message and the value "ab", written in two calls and read back in
three, a byte of the next packet behind it. -/
theorem decode_encode_empty :
    let lib : Lib := ⟨fun _ => true, fun _ => [], fun _ => (true, {}), fun _ => [],
      fun _ => (true, {}), fun _ _ => []⟩
    let c := readCalls lib
      [⟨[0x46, 0, 0, 0], [.count 9, .again]⟩, ⟨[0, 0, 0], [.count 2, .intr, .count 9]⟩,
        ⟨[0, 2, 97, 98, 0x46], [.count 9, .count 1, .count 9]⟩] (freshRead {} none 3)
    c.1 = .done ∧ c.2.response = {} ∧ c.2.value = some [97, 98] ∧ c.2.socket.incoming <+: [0x46] := by
  intro lib c
  have hw : ∃ w k, writeCalls lib
      [⟨[], [.count 1, .count 1]⟩, ⟨[], [.count 9, .count 9, .intr, .count 1, .count 9]⟩]
      (NonblockingPacketWriter.create {} [97, 98]) (opened 3) = (.done, w, k) ∧
      k.sent = [0x46, 0, 0, 0, 0, 0, 0, 0, 2, 97, 98] :=
    ⟨_, _, Prod.ext (by decide) rfl, by decide⟩
  obtain ⟨w, k, hw, hk⟩ := hw
  have h := (decode_encode lib).1 {} [97, 98] rfl (by decide) (by decide) 3 _ w k hw {} none
    [0x46] []
    [⟨[0x46, 0, 0, 0], [.count 9, .again]⟩, ⟨[0, 0, 0], [.count 2, .intr, .count 9]⟩,
      ⟨[0, 2, 97, 98, 0x46], [.count 9, .count 1, .count 9]⟩] (by rw [hk]; rfl)
    (by simp [Fragment])
  have hd : c.1 = .done := by decide
  obtain ⟨hresp, hval, -, hnext⟩ := h.2.2.2.1 hd
  exact ⟨hd, hresp, hval, hnext⟩

end Kinetic.L1
