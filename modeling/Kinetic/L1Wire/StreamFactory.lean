import Kinetic.Core.Ownership
import Mathlib.Data.List.Nodup

/-!
# `MessageStreamFactory`

A factory makes message streams over descriptors and over `SSL` objects. An `SSL`
that it has to make itself it remembers in its one field `ssl_`, and frees in its
destructor if it has ever made one. That is right for a factory that makes one:
a later one takes the place of the first, whether or not it comes to be a stream
(`freed_once_iff`).
-/
open Kinetic.Core

namespace Kinetic.L1

/-- What OpenSSL answers: whether there is an object, and the returns of
`SSL_set_fd` and `SSL_accept`. -/
structure SslAnswers where
  new : Bool := true
  setFd : Int := 1
  accept : Int := 1
  deriving DecidableEq, Repr

/-- A call of `NewMessageStream`, with the answers it gets; the `SSL` that the
caller passes, if it passes one, is the caller's. -/
structure StreamCall where
  fd : Int
  useSsl : Bool
  ssl : Option Nat := none
  maxMessageSizeBytes : Nat := 0
  answers : SslAnswers := {}
  deriving DecidableEq, Repr

/-- What the byte stream of a message stream goes over. -/
inductive Transport where
  | plain (fd : Int)
  /-- over an `SSL` of the caller -/
  | given (ssl : Nat)
  /-- over an `SSL` of the factory -/
  | made (ssl : Nat)
  deriving DecidableEq, Repr

/-- mirrors include/kinetic/message_stream.h:77-80. The `SSL` objects of `SSL_new`
are numbered; `next` is the number of the next one. `ssl_` is not initialized, and
not read before it is set. -/
structure MessageStreamFactory where
  ssl : Option Nat
  sslCreated : Bool
  next : Nat
  deriving DecidableEq, Repr

namespace MessageStreamFactory

/-- mirrors src/main/message_stream.cc:105-109 -/
def create : MessageStreamFactory := ⟨none, false, 0⟩

/-- `SSL_free` of a null pointer does nothing.
mirrors src/main/message_stream.cc:112-116 -/
def destroy (f : MessageStreamFactory) : List (Lease Nat) :=
  if f.sslCreated then f.ssl.toList.map .release else []

/-- The stream with its limit, or `none` for false, and what is taken from OpenSSL
and given back.
mirrors src/main/message_stream.cc:118-154 -/
def newMessageStream (c : StreamCall) (f : MessageStreamFactory) :
    Option (Nat × Transport) × MessageStreamFactory × List (Lease Nat) :=
  if c.useSsl then
    match c.ssl with
    | some ssl => (some (c.maxMessageSizeBytes, .given ssl), f, [])
    | none =>
      if !c.answers.new then (none, { f with ssl := none }, [])
      else
        let ssl := f.next
        let f := { f with ssl := some ssl, next := f.next + 1 }
        if c.answers.setFd ≠ 1 then (none, f, [.acquire ssl, .release ssl])
        else if c.answers.accept ≠ 1 then (none, f, [.acquire ssl, .release ssl])
        else (some (c.maxMessageSizeBytes, .made ssl), { f with sslCreated := true }, [.acquire ssl])
  else (some (c.maxMessageSizeBytes, .plain c.fd), f, [])

/-- The calls in turn: their streams, and everything taken and given back. -/
def serve : List StreamCall → MessageStreamFactory →
    List (Option (Nat × Transport)) × MessageStreamFactory × List (Lease Nat)
  | [], f => ([], f, [])
  | c :: cs, f =>
    let (stream, f, us) := newMessageStream c f
    let (streams, f, vs) := serve cs f
    (stream :: streams, f, us ++ vs)

/-! ## One call -/

/-- How a call ends that has to make an `SSL`. -/
inductive Outcome where
  | refused
  | failed
  | made
  deriving DecidableEq, Repr

/-- The ending, which the answers decide; `none` for a call that makes no `SSL`. -/
def outcome (c : StreamCall) : Option Outcome :=
  if c.useSsl && c.ssl.isNone then
    if !c.answers.new then some .refused
    else if c.answers.setFd = 1 ∧ c.answers.accept = 1 then some .made
    else some .failed
  else none

/-- The `SSL` objects that streams have been made over. -/
def madeFor (streams : List (Option (Nat × Transport))) : List Nat :=
  streams.filterMap fun
    | some (_, .made ssl) => some ssl
    | some (_, .given _) => none
    | some (_, .plain _) => none
    | none => none

/-- What `ssl_` is after a call that ended so, `made` being the objects of the
streams. -/
def Remembers (f : MessageStreamFactory) (made : List Nat) : Option Outcome → Prop
  | none => made = []
  | some .refused => f.ssl = none
  | some .failed => ∃ n, f.ssl = some n ∧ n ∉ made
  | some .made => ∃ before n, made = before ++ [n] ∧ f.ssl = some n

/-- The state of a factory whose streams run over the objects `made`, its last
attempt at one having ended as `last`. -/
structure Owns (f : MessageStreamFactory) (us : List (Lease Nat)) (made : List Nat)
    (last : Option Outcome) : Prop where
  settled : settle [] us = some made.reverse
  fresh : ∀ n ∈ made, n < f.next
  nodup : made.Nodup
  created : f.sslCreated = true ↔ made ≠ []
  remembers : f.Remembers made last

theorem create_owns : Owns create [] [] none :=
  ⟨rfl, by simp, List.nodup_nil, by simp [create], rfl⟩

variable {f : MessageStreamFactory} {us : List (Lease Nat)} {made : List Nat}
  {last : Option Outcome}

theorem Owns.untouched (h : Owns f us made last) : Owns f (us ++ []) (made ++ []) last := by
  rwa [List.append_nil, List.append_nil]

theorem Owns.refused (h : Owns f us made last) :
    Owns { f with ssl := none } (us ++ []) (made ++ []) (some .refused) := by
  rw [List.append_nil, List.append_nil]
  exact ⟨h.settled, h.fresh, h.nodup, h.created, rfl⟩

theorem Owns.next_notMem (h : Owns f us made last) : f.next ∉ made :=
  fun hm => Nat.lt_irrefl _ (h.fresh _ hm)

theorem Owns.failed (h : Owns f us made last) :
    Owns { f with ssl := some f.next, next := f.next + 1 }
      (us ++ [.acquire f.next, .release f.next]) (made ++ []) (some .failed) := by
  refine ⟨?_, fun n hn => ?_, ?_, ?_, f.next, rfl, ?_⟩
  · rw [settle_append_of h.settled, settle_bracket, List.append_nil]
    rfl
  · rw [List.append_nil] at hn
    exact Nat.lt_succ_of_lt (h.fresh n hn)
  · rw [List.append_nil]; exact h.nodup
  · rw [List.append_nil]; exact h.created
  · rw [List.append_nil]; exact h.next_notMem

theorem Owns.further (h : Owns f us made last) :
    Owns { ssl := some f.next, sslCreated := true, next := f.next + 1 }
      (us ++ [.acquire f.next]) (made ++ [f.next]) (some .made) := by
  refine ⟨?_, fun n hn => ?_, ?_, by simp, made, f.next, rfl, rfl⟩
  · rw [settle_append_of h.settled, List.reverse_append]
    rfl
  · rcases List.mem_append.1 hn with hn | hn
    · exact Nat.lt_succ_of_lt (h.fresh n hn)
    · rw [List.mem_singleton.1 hn]; exact Nat.lt_succ_self _
  · rw [List.nodup_append]
    refine ⟨h.nodup, List.nodup_singleton _, fun n hn m hm => ?_⟩
    rw [List.mem_singleton.1 hm]
    exact Nat.ne_of_lt (h.fresh n hn)

theorem newMessageStream_cases (c : StreamCall) (f : MessageStreamFactory) :
    (outcome c = none ∧ ∃ s, madeFor [some s] = [] ∧ newMessageStream c f = (some s, f, [])) ∨
    (outcome c = some .refused ∧ newMessageStream c f = (none, { f with ssl := none }, [])) ∨
    (outcome c = some .failed ∧ newMessageStream c f =
      (none, { f with ssl := some f.next, next := f.next + 1 },
        [.acquire f.next, .release f.next])) ∨
    (outcome c = some .made ∧ newMessageStream c f =
      (some (c.maxMessageSizeBytes, .made f.next),
        { ssl := some f.next, sslCreated := true, next := f.next + 1 }, [.acquire f.next])) := by
  obtain ⟨fd, useSsl, ssl, max, new, setFd, accept⟩ := c
  cases useSsl with
  | false => exact .inl ⟨rfl, _, rfl, rfl⟩
  | true =>
    cases ssl with
    | some ssl => exact .inl ⟨rfl, _, rfl, rfl⟩
    | none =>
      cases new with
      | false => exact .inr (.inl ⟨rfl, rfl⟩)
      | true =>
        by_cases hfd : setFd = 1
        · by_cases hacc : accept = 1
          · exact .inr (.inr (.inr (by simp [outcome, newMessageStream, hfd, hacc])))
          · exact .inr (.inr (.inl (by simp [outcome, newMessageStream, hfd, hacc])))
        · exact .inr (.inr (.inl (by simp [outcome, newMessageStream, hfd])))

/-- **One call** either makes no `SSL`, or remembers the one it has made. -/
theorem Owns.call (h : Owns f us made last) (c : StreamCall) :
    Owns (newMessageStream c f).2.1 (us ++ (newMessageStream c f).2.2)
      (made ++ madeFor [(newMessageStream c f).1]) ((outcome c).or last) ∧
    ((newMessageStream c f).1 = none ↔ outcome c = some .refused ∨ outcome c = some .failed) := by
  rcases newMessageStream_cases c f with ⟨ho, s, hm, he⟩ | ⟨ho, he⟩ | ⟨ho, he⟩ | ⟨ho, he⟩
  all_goals rw [ho, he]
  · exact ⟨by rw [hm]; exact h.untouched, by simp⟩
  · exact ⟨h.refused, by simp⟩
  · exact ⟨h.failed, by simp⟩
  · exact ⟨h.further, by simp⟩

/-! ## Any calls -/

theorem Owns.serve (cs : List StreamCall) (h : Owns f us made last) :
    Owns (serve cs f).2.1 (us ++ (serve cs f).2.2) (made ++ madeFor (serve cs f).1)
      ((cs.filterMap outcome).getLast?.or last) ∧
    (MessageStreamFactory.serve cs f).1.map Option.isNone = cs.map fun c =>
      decide (outcome c = some .refused ∨ outcome c = some .failed) := by
  induction cs generalizing f us made last with
  | nil => exact ⟨h.untouched, rfl⟩
  | cons c cs ih =>
    obtain ⟨hc, hn⟩ := h.call c
    obtain ⟨hrest, hnone⟩ := ih hc
    have hmade : madeFor ((newMessageStream c f).1 ::
        (MessageStreamFactory.serve cs (newMessageStream c f).2.1).1) =
        madeFor [(newMessageStream c f).1] ++
          madeFor (MessageStreamFactory.serve cs (newMessageStream c f).2.1).1 :=
      List.filterMap_append (l := [_])
    have hlast : ((c :: cs).filterMap outcome).getLast?.or last =
        (cs.filterMap outcome).getLast?.or ((outcome c).or last) := by
      rw [List.filterMap_cons]
      cases outcome c with
      | none => rfl
      | some o => cases (cs.filterMap outcome) <;> simp [List.getLast?_cons]
    refine ⟨?_, ?_⟩
    · rw [hlast]
      simp only [MessageStreamFactory.serve]
      rw [hmade, ← List.append_assoc, ← List.append_assoc]
      exact hrest
    · simp only [MessageStreamFactory.serve, List.map_cons]
      rw [hnone]
      refine congrArg (· :: _) ?_
      rw [Bool.eq_iff_iff, Option.isNone_iff_eq_none, decide_eq_true_eq]
      exact hn

theorem Owns.destroyed (h : Owns f us made last) :
    settle [] (us ++ f.destroy) =
      if made = [] then some []
      else match last with
        | some .made => some made.dropLast.reverse
        | some .refused => some made.reverse
        | some .failed => none
        | none => none := by
  rw [settle_append_of h.settled, destroy]
  by_cases hm : made = []
  · rw [if_neg (fun hc => h.created.1 hc hm), if_pos hm, hm]
    rfl
  rw [if_pos (h.created.2 hm), if_neg hm]
  have hr := h.remembers
  match last with
  | none => exact absurd hr hm
  | some .refused =>
    rw [show f.ssl = none from hr]
    rfl
  | some .failed =>
    obtain ⟨n, hn, hnot⟩ := hr
    rw [hn]
    simp [settle, hnot]
  | some .made =>
    obtain ⟨before, n, rfl, hn⟩ := hr
    rw [hn]
    simp [settle]

/-- **Each `SSL` is freed once**, by a factory that has served these calls and is
destroyed, exactly when at most one stream was made over an `SSL` of its own and,
if one was, no later call tried to make another. A later one that is made, or that
OpenSSL refuses, leaks what was made before; after one that fails the destructor
frees the same `SSL` again. Until then every stream's own `SSL` is there, each
stream has another, and a call returns false exactly if its own attempt at an `SSL`
did not succeed. -/
theorem freed_once_iff (cs : List StreamCall) :
    let (streams, f, us) := serve cs create
    let made := madeFor streams
    let last := (cs.filterMap outcome).getLast?
    settle [] us = some made.reverse ∧ made.Nodup ∧
    (streams.map Option.isNone = cs.map fun c =>
      decide (outcome c = some .refused ∨ outcome c = some .failed)) ∧
    (settle [] (us ++ f.destroy) = some [] ↔ made = [] ∨ made.length = 1 ∧ last = some .made) ∧
    (settle [] (us ++ f.destroy) = none ↔ made ≠ [] ∧ last = some .failed) ∧
    (last = some .made → settle [] (us ++ f.destroy) = some made.dropLast.reverse) ∧
    (last = some .refused → settle [] (us ++ f.destroy) = some made.reverse) := by
  obtain ⟨ho, hn⟩ := create_owns.serve cs
  rw [List.nil_append, List.nil_append, Option.or_none] at ho
  have hd := ho.destroyed
  cases hs : serve cs create with
  | mk streams rest =>
  obtain ⟨f, us⟩ := rest
  rw [hs] at ho hn hd
  dsimp only at ho hn hd ⊢
  have hr := ho.remembers
  refine ⟨ho.settled, ho.nodup, hn, ?_, ?_, fun hl => ?_, fun hl => ?_⟩
  · rw [hd]
    by_cases hm : madeFor streams = []
    · simp [hm]
    rw [if_neg hm]
    match hl : (cs.filterMap outcome).getLast? with
    | none => rw [hl] at hr; exact absurd hr hm
    | some .refused | some .failed => simp [hm]
    | some .made =>
      rw [hl] at hr
      obtain ⟨before, n, he, -⟩ := hr
      simp [he]
  · rw [hd]
    by_cases hm : madeFor streams = []
    · simp [hm]
    rw [if_neg hm]
    match hl : (cs.filterMap outcome).getLast? with
    | none => rw [hl] at hr; exact absurd hr hm
    | some .failed => simp [hm]
    | some .refused | some .made => simp
  all_goals
    rw [hd, hl]
    by_cases hm : madeFor streams = [] <;> simp [hm]

/-- A second handshake fails, and the `SSL` it was for is freed twice. -/
example :
    let (_, f, us) := serve [⟨3, true, none, 0, {}⟩, ⟨4, true, none, 0, { accept := 0 }⟩] create
    settle [] (us ++ f.destroy) = none := by decide

end MessageStreamFactory
end Kinetic.L1
