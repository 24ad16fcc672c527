import Kinetic.Core.Scan
import Kinetic.L3Client.Agreement
import Kinetic.L3Client.KeyRange
import Mathlib.Data.List.Lex

/-!
# Iterating over a range of keys

The loop of a caller of `IterateKeyRange`, over a drive whose stored keys may
change between the turns of the loop. The frames of the iterator are the pages
of a scan (`Core.Scanned`): the keys passed so far and those of the current
frame are scanned, and the moving boundary key is where the rest begins (`On`).
-/
open Kinetic.Core

namespace Kinetic.L3

open L1 L2

/-- Keys are ordered by their bytes. -/
instance byteOrder : LinearOrder UInt8 where
  le_refl := UInt8.le_refl
  le_trans _ _ _ := UInt8.le_trans
  lt_iff_le_not_ge a b := by simp only [UInt8.lt_iff_toNat_lt, UInt8.le_iff_toNat_le]; omega
  le_antisymm _ _ := UInt8.le_antisymm
  le_total := UInt8.le_total
  toDecidableLE := inferInstance

/-- The drive, as the answers it gives at each moment: when the iterator is
made, and at each increment. -/
abbrev Drive := Nat → Call → KeyRangeReply

/-- A `GetKeyRange` that succeeds returns an ascending, gap-free initial segment
of the keys then stored in the range. -/
def Serves (drive : Drive) (stored : Nat → Finset Bytes) : Prop :=
  ∀ n (r : Span Bytes) (size : BitVec 32),
    let reply := drive n (.getKeyRangeS r.first r.firstInc r.last r.lastInc false size.toInt)
    reply.status.code = .ok →
      ∃ keys, reply.keys = some keys ∧ Page (stored n) r size.toInt.toNat keys

inductive Outcome where
  /-- The turns are used up. -/
  | running
  /-- The iterator equals `KeyRangeEnd`. -/
  | ended
  /-- An exception left the loop; the constructor's leaves no iterator. -/
  | threw (what : Thrown) (it : Option KeyRangeIterator)
  | undefined
  deriving DecidableEq, Repr

/-- What can be seen of the loop: the keys it was given, the answers to its
frame requests, and how it came out. -/
structure Iteration where
  yields : List Bytes
  frames : List KeyRangeReply
  outcome : Outcome
  deriving DecidableEq, Repr

namespace KeyRangeIterator

def asks (it : KeyRangeIterator) : Option Call :=
  match it.keys with
  | none => none
  | some keys =>
    if it.relpos ≠ -1 ∧ (it.relpos + 1 = -1 ∨ it.relpos + 1 = toInt32 keys.length) then
      (moveBoundary { it with relpos := it.relpos + 1 }).map frameCall
    else none

/-- `for (; it != KeyRangeEnd(); ++it) use(*it);` from moment `n` on, as in
src/integration_test/blocking_smoketest.cc:64-69. -/
def walk (drive : Drive) : Nat → Nat → KeyRangeIterator → Iteration
  | _, 0, _ => ⟨[], [], .running⟩
  | n, fuel + 1, it =>
    match it.equal keyRangeEnd with
    | none => ⟨[], [], .undefined⟩
    | some true => ⟨[], [], .ended⟩
    | some false =>
      match it.dereference with
      | .error e => ⟨[], [], .threw e (some it)⟩
      | .ok none => ⟨[], [], .undefined⟩
      | .ok (some key) =>
        let frames := it.asks.toList.map (drive n)
        match it.increment (fun _ => drive n) with
        | none => ⟨[key], frames, .undefined⟩
        | some (some e, next) => ⟨[key], frames, .threw e (some next)⟩
        | some (none, next) =>
          let w := walk drive (n + 1) fuel next
          ⟨key :: w.yields, frames ++ w.frames, w.outcome⟩

end KeyRangeIterator

def iterate (drive : Drive) (framesz : BitVec 32) (r : Span Bytes) (turns : Nat) : Iteration :=
  let frame := drive 0 (KeyRangeIterator.initial 0 framesz r.first r.firstInc r.last r.lastInc).frameCall
  match KeyRangeIterator.create (fun _ => drive 0) 0 framesz r.first r.firstInc r.last r.lastInc with
  | none => ⟨[], [frame], .undefined⟩
  | some (.error e) => ⟨[], [frame], .threw e none⟩
  | some (.ok it) =>
    let w := it.walk drive 1 turns
    { w with frames := frame :: w.frames }

/-- The answer to a `GetKeyRange` that is performed in `s`, `keys` being what the
iterator holds; `none` has not returned yet. -/
def Operation.keyRangeReply (lib : Lib) (op : Operation) (keys : Option (List Bytes))
    (s : NonblockingPacketService) : Option KeyRangeReply :=
  (op.perform lib s).1.map fun status =>
    ⟨status, (outputs op.call.callback { keys := keys } s.handlers (op.perform lib s).2.log).keys⟩

theorem perform_ok {lib : Lib} {s : NonblockingPacketService} (h : (service lib).Reachable s)
    (op : Operation) (hd : op.Defined lib s) {status : KineticStatus}
    (hr : (op.perform lib s).1 = some status) (hok : status.code = .ok) :
    Succeeded s.handlers (op.perform lib s).2.log := by
  obtain ⟨ops₁, h₁⟩ := submit_run op hd
  obtain ⟨ops₂, h₂⟩ := wait_run hd.2.2
  have hw := h.run (h₁.append h₂)
  have hends := wait_ends lib op s
  unfold Operation.perform runOperation at hr ⊢
  cases he : wait lib s.handlers op.first op.turns op.fds (op.submit lib s) with
  | mk exit w =>
  rw [he] at hr hends hw
  match exit with
  | none => cases hr
  | some .done =>
    cases hr
    exact (done_status (steady hw).inv (sound hw) (hends.done rfl)).1 hok
  | some (.selectFailed message) => cases hr; cases hok
  | some .timedOut => cases hr; cases hok
  | some .connectionFailed => cases hr; cases hok

/-- A `GetKeyRange` that succeeds has put a list in `keys`. -/
theorem keyRangeReply_listed {lib : Lib} {s : NonblockingPacketService}
    (h : (service lib).Reachable s) (op : Operation) (hd : op.Defined lib s)
    (hc : op.call.callback = .getKeyRange) {held : Option (List Bytes)} {reply : KeyRangeReply}
    (hr : op.keyRangeReply lib held s = some reply) (hok : reply.status.code = .ok) :
    reply.keys ≠ none := by
  unfold Operation.keyRangeReply at hr
  obtain ⟨status, hst, rfl⟩ := Option.map_eq_some_iff.1 hr
  obtain ⟨response, value, hm⟩ := perform_ok h op hd hst hok
  have hm : Completion.handle s.handlers response value ∈ callsOf s.handlers (op.perform lib s).2.log :=
    mem_callsOf.2 ⟨hm, rfl⟩
  obtain ⟨ops, hrun⟩ := perform_run op hd
  rcases callsOf_cases (steady (h.run hrun)).inv s.handlers with hn | ⟨c, hn⟩
  · rw [hn] at hm; cases hm
  · rw [hn, List.mem_singleton] at hm
    unfold outputs
    rw [hn, ← hm, hc]
    simp [Callback.success]

theorem iterateKeyRange_submits (b : BlockingKineticConnection) (bconn : Nat) (framesz : BitVec 32)
    (start : Bytes) (si : Bool) (last : Bytes) (li : Bool) :
    b.iterateKeyRangeS start si last li framesz =
      b.submits (KeyRangeIterator.initial bconn framesz start si last li).frameCall := rfl

namespace KeyRangeIterator

variable {it next : KeyRangeIterator} {answers : Answers} {drive : Drive}

theorem increment_eq {keys : List Bytes} (hk : it.keys = some keys) (hr : it.relpos ≠ -1)
    (hi : it.relpos ≠ 2 ^ 31 - 1) : it.increment answers =
      if it.relpos + 1 = -1 ∨ it.relpos + 1 = toInt32 keys.length then
        nextFrame { it with relpos := it.relpos + 1 } answers
      else some (none, { it with relpos := it.relpos + 1 }) := by
  unfold increment advance
  rw [if_neg (by simp [hr, hk]), if_neg hi]
  dsimp only
  rw [hk]
  by_cases h1 : it.relpos + 1 = -1
  · rw [if_pos h1, if_pos (.inl h1)]
  · by_cases h2 : it.relpos + 1 = toInt32 keys.length
    · rw [if_neg h1, if_pos (.inr h2)]
      exact if_pos h2
    · rw [if_neg h1, if_neg (by simp [h1, h2])]
      exact if_neg h2

/-- It will never equal `KeyRangeEnd` and never yield a key: incrementing it
throws and leaves it as it is. -/
structure Dead (it : KeyRangeIterator) : Prop where
  unequal : it.equal keyRangeEnd = some false ∧ keyRangeEnd.equal it = some false
  yields : ∃ e, it.dereference = .error e
  increment : ∀ answers, ∃ e, it.increment answers = some (some e, it)
  postIncrement : ∀ answers, ∃ e, it.postIncrement answers = some (.error e, it)

theorem Bad.dead (h : it.Bad) : it.Dead := by
  refine ⟨⟨equal_bad (.inl h), equal_bad (.inr h)⟩, ?_, fun _ => ⟨_, if_pos (.inl h.2)⟩,
    fun _ => ⟨_, if_pos (.inl h.2)⟩⟩
  unfold dereference
  cases it.keys with
  | none => exact ⟨_, rfl⟩
  | some keys => exact ⟨_, if_pos h.2⟩

/-- After moment `n` the iterator stands on a key of a frame, the keys `passed`
having been left behind. -/
structure On (stored : Nat → Finset Bytes) (framesz : BitVec 32) (r : Span Bytes) (n : Nat)
    (it : KeyRangeIterator) (passed : List Bytes) (before keys : List Bytes) (p : Nat) : Prop where
  bconn : it.bconn = some 0
  framesz : it.framesz = framesz
  last : it.last = r.last
  lastInc : it.lastInc = r.lastInc
  forward : it.reverseOrder = false
  eol : it.eol = false
  held : it.keys = some keys
  relpos : it.relpos = p
  within : p < keys.length
  frame : keys.length < 2 ^ 31
  passed : passed = before ++ keys.take p
  scanned : ∀ x, keys.getLast? = some x →
    Scanned stored r 0 (n + 1) (before ++ keys) ⟨x, false, r.last, r.lastInc⟩

/-- After moment `n` the iterator is at its end: nothing is missing from `passed`
that was stored all along. -/
structure Over (stored : Nat → Finset Bytes) (r : Span Bytes) (n : Nat) (it : KeyRangeIterator)
    (passed : List Bytes) : Prop where
  eol : it.eol = true
  complete : ∀ k ∈ r, (∀ m ≤ n, k ∈ stored m) → k ∈ passed

variable {stored : Nat → Finset Bytes} {framesz : BitVec 32} {r : Span Bytes}

/-- A frame is loaded: `moved` has its boundary where the scan is to go on. -/
theorem nextFrame_page (hd : Serves drive stored) (h1 : 1 ≤ framesz.toNat)
    (h2 : framesz.toNat ≤ 2 ^ 31 - 1) {moved : KeyRangeIterator} {n : Nat} {out : List Bytes}
    (hm : it.moveBoundary = some moved) (hb : moved.bconn = some 0) (hf : moved.framesz = framesz)
    (hl : moved.last = r.last) (hli : moved.lastInc = r.lastInc)
    (hrev : moved.reverseOrder = false) (heol : moved.eol = false)
    (hs : Scanned stored r 0 n out ⟨moved.first, moved.firstInc, r.last, r.lastInc⟩) :
    let reply := drive n moved.frameCall
    ∃ next, it.nextFrame (fun _ => drive n) =
        some (if reply.status.code = .ok then none else some (.runtimeError reply.status.message),
          next) ∧
      (reply.status.code ≠ .ok → next.Bad) ∧
      (reply.status.code = .ok → Over stored r n next out ∨
        ∃ keys, On stored framesz r n next out out keys 0) := by
  intro reply
  have hn : it.nextFrame (fun _ => drive n) =
      if reply.status.code = .ok then
        some (none, { moved with keys := reply.keys, relpos := 0, eol := (reply.keys.getD []).isEmpty })
      else some (some (.runtimeError reply.status.message),
        { moved with keys := reply.keys, relpos := -1 }) := by
    unfold nextFrame
    rw [hm]
    simp [hb, heol, reply]
  rw [hn]
  split
  · rename_i hok
    refine ⟨_, rfl, fun h => absurd hok h, fun _ => ?_⟩
    have hserve := hd n ⟨moved.first, moved.firstInc, r.last, r.lastInc⟩ framesz
    have hcall : moved.frameCall = .getKeyRangeS moved.first moved.firstInc r.last r.lastInc false
        framesz.toInt := by
      unfold frameCall
      rw [hl, hli, hrev, hf]
    dsimp only at hserve
    rw [← hcall] at hserve
    obtain ⟨keys, hk, hpage⟩ := hserve hok
    have hk' : reply.keys = some keys := hk
    rw [hk']
    match keys, hpage with
    | [], hpage =>
      exact .inl ⟨rfl, fun k hk hall => hs.ended (Nat.zero_le n) hpage hk
        fun m _ hm => hall m (Nat.le_of_lt_succ hm)⟩
    | key :: keys, hpage =>
      have hsize : framesz.toInt.toNat = framesz.toNat := by
        rw [BitVec.toInt_eq_toNat_of_lt (by omega)]
        exact Int.toNat_natCast _
      have hlen := hpage.bound
      rw [hsize] at hlen
      exact .inr ⟨key :: keys, hb, hf, hl, hli, hrev, rfl, rfl, rfl, Nat.succ_pos _, by omega,
        by simp, fun x hx => hs.page (Nat.zero_le n) hpage hx⟩
  · rename_i hne
    exact ⟨_, rfl, fun _ => ⟨heol, rfl⟩, fun h => absurd h hne⟩

section
variable {n p : Nat} {passed before keys : List Bytes}

theorem On.key (h : On stored framesz r n it passed before keys p) :
    ∃ key, it.equal keyRangeEnd = some false ∧ it.dereference = .ok (some key) ∧
      keys[p]? = some key ∧ passed ++ [key] = before ++ keys.take (p + 1) := by
  have hr : it.relpos ≠ -1 := by rw [h.relpos]; omega
  obtain ⟨key, hk⟩ : ∃ key, keys[p]? = some key := ⟨_, List.getElem?_eq_getElem h.within⟩
  refine ⟨key, ?_, ?_, hk, ?_⟩
  · unfold equal
    rw [if_neg (by simp [h.eol]), if_neg (by simp [keyRangeEnd])]
  · unfold dereference
    rw [h.held]
    dsimp only
    rw [if_neg hr, h.eol, h.relpos, indexed_eq, hk]
    rfl
  · rw [h.passed, List.append_assoc, List.take_add_one, hk]
    rfl

theorem On.scannedAll (h : On stored framesz r n it passed before keys p) :
    ∃ rest, Scanned stored r 0 (n + 1) (before ++ keys) rest := by
  have hne : keys ≠ [] := fun hk => by
    have := h.within
    rw [hk] at this
    exact absurd this (Nat.not_lt_zero p)
  exact ⟨_, h.scanned _ (List.getLast?_eq_getLast_of_ne_nil hne)⟩

theorem On.within_frame (h : On stored framesz r n it passed before keys p)
    (hp : p + 1 < keys.length) : it.asks = none ∧
      ∃ next, it.increment answers = some (none, next) ∧
        On stored framesz r (n + 1) next (before ++ keys.take (p + 1)) before keys (p + 1) := by
  have hlen := h.frame
  have hr := h.relpos
  have hne : ¬ (it.relpos + 1 = -1 ∨ it.relpos + 1 = toInt32 keys.length) := by
    rw [toInt32_of_lt hlen]; omega
  constructor
  · unfold asks
    rw [h.held]
    exact if_neg fun hc => hne hc.2
  · rw [increment_eq h.held (by omega) (by omega), if_neg hne]
    refine ⟨_, rfl, ⟨h.bconn, h.framesz, h.last, h.lastInc, h.forward, h.eol, h.held, ?_, hp,
      hlen, rfl, fun x hx => (h.scanned x hx).wait⟩⟩
    dsimp only
    omega

theorem On.past_frame (hd : Serves drive stored) (h1 : 1 ≤ framesz.toNat)
    (h2 : framesz.toNat ≤ 2 ^ 31 - 1) (h : On stored framesz r n it passed before keys p)
    (hp : p + 1 = keys.length) :
    ∃ call next, it.asks = some call ∧
      let reply := drive (n + 1) call
      it.increment (fun _ => drive (n + 1)) =
        some (if reply.status.code = .ok then none else some (.runtimeError reply.status.message),
          next) ∧
      (reply.status.code ≠ .ok → next.Bad) ∧
      (reply.status.code = .ok → Over stored r (n + 1) next (before ++ keys) ∨
        ∃ keys', On stored framesz r (n + 1) next (before ++ keys) (before ++ keys) keys' 0) := by
  have hlen := h.frame
  have hr := h.relpos
  have hpast : it.relpos + 1 = -1 ∨ it.relpos + 1 = toInt32 keys.length := by
    rw [toInt32_of_lt hlen]; omega
  have hne : keys ≠ [] := fun hk => by rw [hk] at hp; exact absurd hp (Nat.succ_ne_zero p)
  have hlast := List.getLast?_eq_getLast_of_ne_nil hne
  have hboundary : moveBoundary { it with relpos := it.relpos + 1 } =
      some { it with relpos := it.relpos + 1, first := keys.getLast hne, firstInc := false } := by
    unfold moveBoundary
    rw [h.held]
    dsimp only
    rw [if_neg (by omega), show ((keys.length : Int) - 1) = ((keys.length - 1 : Nat) : Int) by omega,
      indexed_eq, ← List.getLast?_eq_getElem?, hlast]
    rfl
  obtain ⟨next, hn, hbad, hok⟩ := nextFrame_page hd h1 h2 hboundary h.bconn h.framesz h.last h.lastInc
    h.forward h.eol (h.scanned _ hlast)
  refine ⟨_, next, ?_, ?_, hbad, hok⟩
  · unfold asks
    rw [h.held]
    dsimp only
    rw [if_pos ⟨by omega, hpast⟩, ← h.held, hboundary]
    rfl
  · rw [increment_eq h.held (by omega) (by omega), if_pos hpast]
    exact hn

end

/-! ## The loop -/

/-- What `turns` turns from moment `n` on show, `passed` having been left behind. -/
structure Shows (stored : Nat → Finset Bytes) (r : Span Bytes) (turns n : Nat)
    (passed : List Bytes) (w : Iteration) : Prop where
  ascending : (passed ++ w.yields).Pairwise (· < ·)
  sound : ∀ k ∈ passed ++ w.yields, k ∈ r ∧ ∃ m < n + w.yields.length, k ∈ stored m
  complete : w.outcome = .ended → ∀ k ∈ r, (∀ m < n + w.yields.length, k ∈ stored m) →
    k ∈ passed ++ w.yields
  running : w.outcome = .running → w.yields.length = turns
  failed : ∀ reply ∈ w.frames, reply.status.code ≠ .ok →
    ∃ it, w.outcome = .threw (.runtimeError reply.status.message) (some it)
  threw : ∀ e it, w.outcome = .threw e it →
    (∃ reply ∈ w.frames, reply.status.code ≠ .ok) ∧ ∀ x ∈ it, x.Dead
  defined : w.outcome ≠ .undefined

section
variable {turns n p : Nat} {passed before keys : List Bytes} {rest : Span Bytes} {w : Iteration}

theorem Shows.turn {key : Bytes} {frames : List KeyRangeReply}
    (h : Shows stored r turns (n + 1) (passed ++ [key]) w)
    (hf : ∀ reply ∈ frames, reply.status.code = .ok) :
    Shows stored r (turns + 1) n passed ⟨key :: w.yields, frames ++ w.frames, w.outcome⟩ := by
  have hy : passed ++ [key] ++ w.yields = passed ++ key :: w.yields := by simp
  have hl : n + 1 + w.yields.length = n + (key :: w.yields).length := by
    rw [List.length_cons]; omega
  refine ⟨hy ▸ h.ascending, fun k hk => ?_, fun ho k hk hs => ?_, fun ho => ?_,
    fun reply hr hne => ?_, fun e it ho => ?_, h.defined⟩
  · rw [← hl]; exact h.sound k (by rw [hy]; exact hk)
  · rw [← hl] at hs; rw [← hy]; exact h.complete ho k hk hs
  · rw [List.length_cons, h.running ho]
  · rcases List.mem_append.1 hr with hr | hr
    · exact absurd (hf reply hr) hne
    · exact h.failed reply hr hne
  · obtain ⟨⟨reply, hr, hne⟩, hdead⟩ := h.threw e it ho
    exact ⟨⟨reply, List.mem_append_right _ hr, hne⟩, hdead⟩

theorem shows_scanned {out : List Bytes} (hs : Scanned stored r 0 n out rest)
    (hout : (passed ++ w.yields).Sublist out)
    (hc : w.outcome = .ended → ∀ k ∈ r, (∀ m < n, k ∈ stored m) → k ∈ passed ++ w.yields)
    (hr : w.outcome = .running → w.yields.length = turns)
    (hf : ∀ reply ∈ w.frames, reply.status.code ≠ .ok →
      ∃ it, w.outcome = .threw (.runtimeError reply.status.message) (some it))
    (ht : ∀ e it, w.outcome = .threw e it →
      (∃ reply ∈ w.frames, reply.status.code ≠ .ok) ∧ ∀ x ∈ it, x.Dead)
    (hdef : w.outcome ≠ .undefined) : Shows stored r turns n passed w := by
  refine ⟨hs.ascending.sublist hout, fun k hk => ?_, fun ho k hk hall => ?_, hr, hf, ht, hdef⟩
  · obtain ⟨hkr, m, -, hm, hkm⟩ := hs.sound k (hout.subset hk)
    exact ⟨hkr, m, by omega, hkm⟩
  · exact hc ho k hk fun m hm => hall m (by omega)

theorem Over.shows (h : Over stored r n it passed) (hs : Scanned stored r 0 (n + 1) passed rest) :
    Shows stored r turns (n + 1) passed (it.walk drive (n + 1) turns) := by
  cases turns with
  | zero =>
    exact shows_scanned hs (by simp [walk]) (by simp [walk]) (by simp [walk]) (by simp [walk])
      (by simp [walk]) (by simp [walk])
  | succ turns =>
    have hw : it.walk drive (n + 1) (turns + 1) = ⟨[], [], .ended⟩ := by
      unfold walk
      rw [show it.equal keyRangeEnd = some true from equal_exhausted h.eol rfl]
    rw [hw]
    refine shows_scanned hs (by simp) (fun _ k hk hall => ?_) (by simp) (by simp) (by simp) (by simp)
    rw [List.append_nil]
    exact h.complete k hk fun m hm => hall m (by omega)

/-- **The loop**, from a key on. -/
theorem On.shows (hd : Serves drive stored) (h1 : 1 ≤ framesz.toNat)
    (h2 : framesz.toNat ≤ 2 ^ 31 - 1) (turns : Nat)
    (h : On stored framesz r n it passed before keys p) :
    Shows stored r turns (n + 1) passed (it.walk drive (n + 1) turns) := by
  induction turns generalizing n it passed before keys p with
  | zero =>
    obtain ⟨rest, hs⟩ := h.scannedAll
    refine shows_scanned hs ?_ (by simp [walk]) (by simp [walk]) (by simp [walk]) (by simp [walk])
      (by simp [walk])
    rw [h.passed]
    simpa [walk] using List.take_sublist p keys
  | succ turns ih =>
    obtain ⟨rest, hs⟩ := h.scannedAll
    obtain ⟨key, hne, hkey, -, hpassed⟩ := h.key
    have hout : (passed ++ [key]).Sublist (before ++ keys) := by
      rw [hpassed]
      exact List.Sublist.append_left (List.take_sublist _ _) _
    unfold walk
    rw [hne, hkey]
    dsimp only
    rcases Nat.lt_or_ge (p + 1) keys.length with hp | hp
    · obtain ⟨hasks, next, hi, hon⟩ := h.within_frame hp
      rw [hasks, hi]
      dsimp only
      rw [← hpassed] at hon
      exact (ih hon).turn (by simp)
    · have hp : p + 1 = keys.length := Nat.le_antisymm h.within hp
      obtain ⟨call, next, hasks, hi, hbad, hok⟩ := h.past_frame hd h1 h2 hp
      have hall : passed ++ [key] = before ++ keys := by
        rw [hpassed, hp, List.take_length]
      rw [← hall] at hok hs
      rw [hasks, hi]
      by_cases hst : (drive (n + 1) call).status.code = .ok
      · rw [if_pos hst]
        refine Shows.turn ?_ (by simpa using hst)
        rcases hok hst with hover | ⟨keys', hon⟩
        · exact hover.shows hs.wait
        · exact ih hon
      · rw [if_neg hst]
        dsimp only
        refine shows_scanned hs (List.Sublist.refl _) (by simp) (by simp) (fun reply hr _ => ?_)
          (fun e it' ho => ?_) (by simp)
        · obtain rfl : reply = drive (n + 1) call := by simpa using hr
          exact ⟨_, rfl⟩
        · simp only [Outcome.threw.injEq] at ho
          obtain ⟨-, rfl⟩ := ho
          refine ⟨⟨_, by simp, hst⟩, fun x hx => ?_⟩
          obtain rfl := Option.mem_some_iff.1 hx
          exact (hbad hst).dead

end

end KeyRangeIterator

/-- What the loop over `IterateKeyRange` is for. -/
structure Iterates (drive : Drive) (stored : Nat → Finset Bytes) (framesz : BitVec 32)
    (r : Span Bytes) : Prop where
  ordered : ∀ turns, (iterate drive framesz r turns).yields.Pairwise (· < ·) ∧
    ∀ k ∈ (iterate drive framesz r turns).yields, k ∈ r
  /-- A key that is stored throughout is not missed. -/
  complete : ∀ turns, (iterate drive framesz r turns).outcome = .ended → ∀ k ∈ r,
    (∀ m ≤ (iterate drive framesz r turns).yields.length, k ∈ stored m) →
      k ∈ (iterate drive framesz r turns).yields
  /-- Without changes just the stored keys are found, -/
  unchanged : ∀ S, (∀ m, stored m = S) → ∀ turns, (iterate drive framesz r turns).outcome = .ended →
    ∀ k, k ∈ (iterate drive framesz r turns).yields ↔ k ∈ S ∧ k ∈ r
  /-- and the loop ends, at the latest when they are. -/
  ends : ∀ S, (∀ m, stored m = S) → ∀ turns, S.card < turns →
    (∀ reply ∈ (iterate drive framesz r turns).frames, reply.status.code = .ok) →
      (iterate drive framesz r turns).outcome = .ended
  /-- Only the constructor, which asks for the first frame, leaves no iterator. -/
  failed : ∀ turns, ∀ reply ∈ (iterate drive framesz r turns).frames, reply.status.code ≠ .ok →
    ∃ it, (iterate drive framesz r turns).outcome = .threw (.runtimeError reply.status.message) it ∧
      (it = none → (iterate drive framesz r turns).frames = [reply])
  dead : ∀ turns e it, (iterate drive framesz r turns).outcome = .threw e (some it) → it.Dead
  defined : ∀ turns, (iterate drive framesz r turns).outcome ≠ .undefined

variable {drive : Drive} {stored : Nat → Finset Bytes}

open KeyRangeIterator

theorem iterate_shows (hd : Serves drive stored) {framesz : BitVec 32} (h1 : 1 ≤ framesz.toNat)
    (h2 : framesz.toNat ≤ 2 ^ 31 - 1) (r : Span Bytes) (turns : Nat) :
    Shows stored r turns 1 [] (iterate drive framesz r turns) ∨
      ∃ reply, reply.status.code ≠ .ok ∧ iterate drive framesz r turns =
        ⟨[], [reply], .threw (.runtimeError reply.status.message) none⟩ := by
  have hm : (initial 0 framesz r.first r.firstInc r.last r.lastInc).moveBoundary =
      some (initial 0 framesz r.first r.firstInc r.last r.lastInc) := rfl
  obtain ⟨it, hn, -, hok⟩ := nextFrame_page hd h1 h2 hm rfl rfl rfl rfl rfl rfl
    (Scanned.start stored r 0)
  unfold iterate KeyRangeIterator.create
  rw [hn]
  by_cases hst : (drive 0 (initial 0 framesz r.first r.firstInc r.last r.lastInc).frameCall).status.code = .ok
  · rw [if_pos hst]
    have hshows : Shows stored r turns 1 [] (it.walk drive 1 turns) := by
      rcases hok hst with hover | ⟨keys, hon⟩
      · exact hover.shows (Scanned.start stored r 0).wait
      · exact hon.shows hd h1 h2 turns
    refine .inl ⟨hshows.ascending, hshows.sound, hshows.complete, hshows.running,
      fun reply hr hne => ?_, fun e it ho => ?_, hshows.defined⟩
    · rcases List.mem_cons.1 hr with rfl | hr
      · exact absurd hst hne
      · exact hshows.failed reply hr hne
    · obtain ⟨⟨reply, hr, hne⟩, hdead⟩ := hshows.threw e it ho
      exact ⟨⟨reply, List.mem_cons_of_mem _ hr, hne⟩, hdead⟩
  · rw [if_neg hst]
    exact .inr ⟨_, hst, rfl⟩

/-- **Range iteration** yields the keys of the range in order, each once: all
that are stored throughout, and just those stored if they do not change. A frame
that fails ends it for good. -/
theorem iterates (hd : Serves drive stored) {framesz : BitVec 32} (h1 : 1 ≤ framesz.toNat)
    (h2 : framesz.toNat ≤ 2 ^ 31 - 1) (r : Span Bytes) : Iterates drive stored framesz r := by
  have hcases := iterate_shows hd h1 h2 r
  refine ⟨fun turns => ?_, fun turns ho k hk hall => ?_, fun S hS turns ho k => ?_,
    fun S hS turns hlt hok => ?_, fun turns reply hr hne => ?_, fun turns e it ho => ?_,
    fun turns => ?_⟩
  all_goals rcases hcases turns with h | ⟨first, hfirst, he⟩
  · exact ⟨h.ascending, fun k hk => (h.sound k hk).1⟩
  · rw [he]
    exact ⟨.nil, by simp⟩
  · exact h.complete ho k hk fun m hm => hall m (by omega)
  · rw [he] at ho; cases ho
  · constructor
    · intro hk
      obtain ⟨hr, m, -, hs⟩ := h.sound k hk
      exact ⟨hS m ▸ hs, hr⟩
    · rintro ⟨hs, hr⟩
      exact h.complete ho k hr fun m _ => (hS m).symm ▸ hs
  · rw [he] at ho; cases ho
  · match ho : (iterate drive framesz r turns).outcome with
    | .running =>
      have hlen := length_le_card h.ascending fun k hk => by
        obtain ⟨-, m, -, hs⟩ := h.sound k hk
        exact hS m ▸ hs
      rw [List.nil_append, h.running ho] at hlen
      omega
    | .ended => rfl
    | .threw e it =>
      obtain ⟨⟨reply, hr, hne⟩, -⟩ := h.threw e it ho
      exact absurd (hok reply hr) hne
    | .undefined => exact absurd ho h.defined
  · rw [he] at hok
    exact absurd (hok first (by simp)) hfirst
  · obtain ⟨it, ho⟩ := h.failed reply hr hne
    exact ⟨some it, ho, by simp⟩
  · rw [he] at hr ⊢
    rw [List.mem_singleton.1 hr]
    exact ⟨_, rfl, fun _ => rfl⟩
  · exact (h.threw e (some it) ho).2 it rfl
  · rw [he] at ho; cases ho
  · exact h.defined
  · rw [he]; simp

/-- A drive that answers with as many keys as it may. -/
def fullFrames (stored : List Bytes) : Drive
  | _, .getKeyRangeS first firstInc last lastInc _ maxResults =>
    if 0 < maxResults then
      ⟨⟨.ok, "", 0⟩, some ((stored.filter (· ∈ Span.mk first firstInc last lastInc)).take
        maxResults.toNat)⟩
    else ⟨⟨.clientInternalError, "", 0⟩, none⟩
  | _, _ => ⟨⟨.clientInternalError, "", 0⟩, none⟩

theorem fullFrames_serves {keys : List Bytes} (hk : keys.Pairwise (· < ·)) :
    Serves (fullFrames keys) fun _ => keys.toFinset := by
  intro n r size reply hok
  have hsize : 0 < size.toInt := by
    by_contra hn
    simp only [reply, fullFrames, if_neg hn, reduceCtorEq] at hok
  refine ⟨_, ?_, page_take (fun _ => List.mem_toFinset) hk r (by omega)⟩
  simp only [reply, fullFrames, if_pos hsize]

theorem iterates_three :
    Iterates (fullFrames [[97], [98], [99]]) (fun _ => [[97], [98], [99]].toFinset) 2
      ⟨[97], true, [99], true⟩ :=
  iterates (fullFrames_serves (by decide)) (by decide) (by decide) _

end Kinetic.L3
