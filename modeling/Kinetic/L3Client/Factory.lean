import Kinetic.L2Service.Handshake
import Kinetic.L2Service.Receiver
import Kinetic.L2Service.SocketWrapper
import Kinetic.L3Client.Forwarding

/-!
# `KineticConnectionFactory`

A connection is made in four steps: the environment of TLS, the socket, the
handshake of the receiver, and the objects over them. Each of the first three can
fail, and what was made before it is then given back as the exception leaves
`doNewConnection`; the eight functions of the factory wrap what comes out of it.

`establish` is the body of its `try`, with the resources it takes and gives back.
The answers that reading gets during the handshake are those of the transport,
whether it is the socket or the TLS connection over it.

**Assumptions.** None on what the system and the device answer (`Surroundings`).

**Results.**
* `establish_spec`: it makes a service if every step goes well (`Succeeds`), and
  otherwise throws what names the step that did not (`Failure`).
* `establish_returns`: it returns, once the handshake of TLS does and the clock of the
  receiver runs out.
* `Succeeds.serving`: the service is a new one, on the chosen socket.
* `doNewConnection_outcome`, `wrapped_outcome`, `connections_made`: the same of the
  functions that a caller has, with what becomes of his connection.
-/
open Kinetic.Core

namespace Kinetic.L3

open L1 L2 NonblockingPacketService

/-- mirrors include/kinetic/connection_options.h:26-42 -/
structure ConnectionOptions where
  host : String
  port : Int
  useSsl : Bool
  userId : Int
  hmacKey : Bytes

/-- mirrors include/kinetic/status.h:38-75 -/
structure Status where
  errorMessage : String
  deriving DecidableEq, Repr

namespace Status

def makeOk : Status := ⟨""⟩

def makeInternalError (errorMessage : String) : Status := ⟨errorMessage⟩

def ok (s : Status) : Bool := s.errorMessage = ""

end Status

/-- What the calls to the system answer while a connection is made. -/
structure Surroundings where
  sslCtx : Bool := true
  ssl : Bool := true
  resolve : String → Int → Option (List Address)
  answers : List SslConnect := []
  turns : List HandshakeTurn

def Surroundings.peer (env : Surroundings) (options : ConnectionOptions) : SocketWrapper.Peer :=
  ⟨env.resolve options.host options.port, env.answers⟩

namespace KineticConnectionFactory

/-- The packet that was being read: the constructor that throws is the only one to
know of it. -/
def abandoned (s : NonblockingPacketService) : List (Lease Resource) :=
  if s.receiver.nonblockingResponse.isSome then [.acquire .reader] else []

/-- `none` while the handshake of TLS or that of the receiver goes on.
mirrors src/main/kinetic_connection_factory.cc:121-137 -/
def establish (lib : Lib) (options : ConnectionOptions) (env : Surroundings) :
    Option (Except String NonblockingPacketService × List (Lease Resource)) :=
  match SocketWrapper.new options.useSsl true env.sslCtx env.ssl with
  | (.error what, us) => some (.error what, us)
  | (.ok w, us) =>
    (w.connect (env.peer options)).bind fun
      | (false, w, vs) => some (.error "Could not connect to socket.", us ++ vs ++ w.destroy)
      | (true, w, vs) =>
        let unshaken := NonblockingReceiver.unshaken (w.fd.getD 0) options.hmacKey
        (NonblockingReceiver.handshakeLoop lib env.turns unshaken).map fun s =>
          if (HandshakeHandler.after s.log).success then
            (.ok (serving options.userId s.socket s.receiver), us ++ vs)
          else (.error "Could not complete handshake.", us ++ vs ++ (abandoned s ++ w.destroy))

/-- A connection, with the packet service that it owns. -/
abbrev Owned (κ : Type) := Option (κ × NonblockingPacketService)

/-- What one of the factory's functions returns, and leaves in `connection`. -/
abbrev Made (κ : Type) := Status × Owned κ × List (Lease Resource)

/-- mirrors src/main/kinetic_connection_factory.cc:117-143 -/
def doNewConnection (lib : Lib) (options : ConnectionOptions) (env : Surroundings)
    (connection : Owned NonblockingKineticConnection) : Option (Made NonblockingKineticConnection) :=
  (establish lib options env).map fun
    | (.error what, us) => (.makeInternalError ("Connection error: " ++ what), connection, us)
    | (.ok service, us) => (.makeOk, some (⟨0⟩, service), us)

/-- A connection made into a local pointer, and wrapped if that went well. -/
def wrapped {α β : Type} (make : Owned α → Option (Made α)) (wrap : α → β) (connection : Owned β) :
    Option (Made β) :=
  (make none).map fun (status, made, us) =>
    (status, if status.ok then made.map (Prod.map wrap id) else connection, us)

variable (lib : Lib) (options : ConnectionOptions) (env : Surroundings)

/-- mirrors src/main/kinetic_connection_factory.cc:37-41 -/
def newNonblockingConnection :
    Owned NonblockingKineticConnection → Option (Made NonblockingKineticConnection) :=
  doNewConnection lib options env

/-- mirrors src/main/kinetic_connection_factory.cc:43-51 -/
def newNonblockingConnectionShared :
    Owned NonblockingKineticConnection → Option (Made NonblockingKineticConnection) :=
  wrapped (doNewConnection lib options env) id

/-- mirrors src/main/kinetic_connection_factory.cc:53-71, for either pointer -/
def newThreadsafeNonblockingConnection : Owned ThreadsafeNonblockingKineticConnection →
    Option (Made ThreadsafeNonblockingKineticConnection) :=
  wrapped (doNewConnection lib options env) .mk

/-- mirrors src/main/kinetic_connection_factory.cc:73-93, for either pointer and the
timeout apart -/
def newBlockingConnection :
    Owned BlockingKineticConnection → Option (Made BlockingKineticConnection) :=
  wrapped (doNewConnection lib options env) .mk

/-- mirrors src/main/kinetic_connection_factory.cc:95-115, for either pointer and the
timeout apart -/
def newThreadsafeBlockingConnection : Owned ThreadsafeBlockingKineticConnection →
    Option (Made ThreadsafeBlockingKineticConnection) :=
  wrapped (newBlockingConnection lib options env) .mk

/-! ## The receiver under construction -/

/-- The descriptor and the key that the receiver was given; it has no callbacks. -/
structure Given (fd : Nat) (hmacKey : Bytes) (s : NonblockingPacketService) : Prop where
  fd : s.socket.fd = fd
  hmacKey : s.receiver.hmacKey = hmacKey
  scripts : s.scripts = []

variable {lib options env} {fd : Nat} {hmacKey : Bytes} {s t : NonblockingPacketService}

namespace Given

theorem of (h : Given fd hmacKey s) (hfd : t.socket.fd = s.socket.fd)
    (hkey : t.receiver.hmacKey = s.receiver.hmacKey) (hs : t.scripts = s.scripts) :
    Given fd hmacKey t :=
  ⟨hfd.trans h.fd, hkey.trans h.hmacKey, hs.trans h.scripts⟩

theorem set (h : Given fd hmacKey s) {r : NonblockingReceiver}
    (hr : r.hmacKey = s.receiver.hmacKey) : Given fd hmacKey { s with receiver := r } :=
  h.of rfl hr rfl

theorem complete (h : Given fd hmacKey s) (c : Completion) :
    Given fd hmacKey (L2.complete lib c s) := by
  rw [complete_quiet c h.scripts]
  exact h.of rfl rfl rfl

theorem callAllLoop (h : Given fd hmacKey s) (error : KineticStatus) (seqs : List Int) :
    Given fd hmacKey (NonblockingReceiver.callAllLoop lib error seqs s) := by
  induction seqs generalizing s with
  | nil => exact h
  | cons seq seqs ih =>
    unfold NonblockingReceiver.callAllLoop
    split
    · exact ih h
    · split
      · refine ih (Given.complete (h.set ?_) _)
        rfl
      · exact h.of rfl rfl rfl

theorem callAll (h : Given fd hmacKey s) (error : KineticStatus) :
    Given fd hmacKey (NonblockingReceiver.callAllErrorHandlers lib error s) := by
  have hfailed : Given fd hmacKey (s.emit (.failedAll error)) := h.of rfl rfl rfl
  unfold NonblockingReceiver.callAllErrorHandlers
  dsimp only
  refine (Given.callAllLoop ?_ error _).of rfl rfl rfl
  split
  · exact hfailed
  · exact (hfailed.complete _).of rfl rfl rfl

theorem dispatch (h : Given fd hmacKey s) (ack : Int) (x key : Nat) :
    Given fd hmacKey (NonblockingReceiver.dispatch lib ack x key s) := by
  unfold NonblockingReceiver.dispatch NonblockingReceiver.answer
  dsimp only
  split
  · split
    all_goals
      refine Given.set (Given.complete (h.set ?_) _) ?_
      · rfl
      · rfl
  · exact h.of rfl rfl rfl

theorem process (h : Given fd hmacKey s) :
    Given fd hmacKey (NonblockingReceiver.processResponse lib s).2 := by
  have hn : ∀ c, Given fd hmacKey (NonblockingReceiver.noteCommand c s) :=
    fun c => h.of rfl rfl rfl
  have hp := processing lib s
  generalize NonblockingReceiver.processResponse lib s = out at hp ⊢
  cases hp with
  | mismatch _ _ => exact h.callAll _
  | unparsed _ _ =>
    refine Given.callAll (h.set ?_) _
    rfl
  | unacknowledged _ _ => exact (hn _).callAll _
  | unmatched _ _ _ => exact hn _
  | matched _ _ _ => exact (hn _).dispatch _ _ _

theorem receiveLoop (h : Given fd hmacKey s) (fuel : Nat) :
    Given fd hmacKey (NonblockingReceiver.receiveLoop lib fuel s).2 := by
  refine receiveLoop_keeps (fun s r t h ho => ?_) (fun s r h => ?_) (fun _ h => h.callAll _)
    (fun _ h => h.process) fuel h
  · rcases openResponse_cases ho with ⟨-, rfl⟩ | ⟨-, -, -, rfl⟩
    · exact h
    · exact h.of rfl rfl rfl
  · have hf := readResponse_frame lib r s
    have ht : ∃ got, Socket.Took s.socket (NonblockingReceiver.readResponse lib r s).2.socket got :=
      (readResponse_took r).1
    obtain ⟨got, ht⟩ := ht
    exact h.of (by rw [ht.frame]) hf.hmacKey hf.scripts

theorem handshakeLoop {turns : List HandshakeTurn} (h : Given fd hmacKey s)
    (he : NonblockingReceiver.handshakeLoop lib turns s = some t) : Given fd hmacKey t := by
  induction turns generalizing s with
  | nil => cases he
  | cons turn turns ih =>
    have hr : Given fd hmacKey (NonblockingReceiver.receive lib (s.supply turn.io)).2 :=
      Given.receiveLoop (s := s.supply turn.io) ⟨h.fd, h.hmacKey, rfl⟩ _
    unfold NonblockingReceiver.handshakeLoop at he
    generalize NonblockingReceiver.receive lib (s.supply turn.io) = out at hr he
    split at he
    · rw [← Option.some.inj he]; exact hr
    · split at he
      · rw [← Option.some.inj he]; exact hr
      · split at he
        · rw [← Option.some.inj he]; exact hr
        · exact ih hr he

end Given

/-! ## What comes out -/

/-- The step that goes wrong: why, what it says, and what it leaves behind. -/
inductive Failure (lib : Lib) (options : ConnectionOptions) (env : Surroundings) :
    String → List Resource → Prop
  /-- Only the `SSL` was missing, or the `SSL_CTX` as well. -/
  | environment : options.useSsl = true → (env.sslCtx && env.ssl) = false →
      Failure lib options env "Failed Setting up SSL environment."
        (if env.sslCtx then [.sslCtx] else [])
  /-- No address would do, or the TLS handshake failed over the first that did. -/
  | unconnected : (options.useSsl = true → env.sslCtx = true ∧ env.ssl = true) →
      (∀ fd, SocketWrapper.chosen true (env.peer options) = some fd →
        options.useSsl = true ∧ SocketWrapper.connectSsl env.answers = some false) →
      Failure lib options env "Could not connect to socket." []
  /-- The receiver stopped in the state `s`, the device not having greeted it. -/
  | unshaken {fd : Nat} {s : NonblockingPacketService} :
      (options.useSsl = true → env.sslCtx = true ∧ env.ssl = true) →
      SocketWrapper.chosen true (env.peer options) = some fd →
      (options.useSsl = true → SocketWrapper.connectSsl env.answers = some true) →
      NonblockingReceiver.handshakeLoop lib env.turns
        (NonblockingReceiver.unshaken fd options.hmacKey) = some s →
      (HandshakeHandler.after s.log).success = false →
      Failure lib options env "Could not complete handshake."
        (if s.receiver.nonblockingResponse.isSome then [.reader] else [])

/-- Every step goes well. -/
structure Succeeds (lib : Lib) (options : ConnectionOptions) (env : Surroundings) (fd : Nat)
    (socket : Socket) (receiver : NonblockingReceiver) : Prop where
  environment : options.useSsl = true → env.sslCtx = true ∧ env.ssl = true
  connected : SocketWrapper.chosen true (env.peer options) = some fd
  secured : options.useSsl = true → SocketWrapper.connectSsl env.answers = some true
  shaken : NonblockingReceiver.handshake lib fd options.hmacKey env.turns =
    some (.ok (socket, receiver))

/-- What `establish` comes to. -/
inductive Establishes (lib : Lib) (options : ConnectionOptions) (env : Surroundings) :
    Except String NonblockingPacketService → List (Lease Resource) → Prop
  | failed {what : String} {left : List Resource} {us : List (Lease Resource)} :
      Failure lib options env what left → settle [] us = some left →
      (∀ fd socket receiver, ¬ Succeeds lib options env fd socket receiver) →
      Establishes lib options env (.error what) us
  | made {fd : Nat} {socket : Socket} {receiver : NonblockingReceiver}
      {us : List (Lease Resource)} : Succeeds lib options env fd socket receiver →
      settle [] us = some (.socket fd :: SocketWrapper.tls options.useSsl) →
      Establishes lib options env (.ok (serving options.userId socket receiver)) us

theorem new_fails {useSsl ctxMade sslMade : Bool} {what : String} {us : List (Lease Resource)}
    (h : SocketWrapper.new useSsl true ctxMade sslMade = (.error what, us)) :
    useSsl = true ∧ (ctxMade && sslMade) = false ∧
      what = "Failed Setting up SSL environment." ∧
      settle [] us = some (if ctxMade then [.sslCtx] else []) := by
  unfold SocketWrapper.new at h
  split at h
  · rename_i hs
    split at h
    · rename_i hm
      simp only [Prod.mk.injEq, Except.error.injEq] at h
      obtain ⟨rfl, rfl⟩ := h
      cases ctxMade <;> cases sslMade <;> first | exact ⟨hs, rfl, rfl, rfl⟩ | cases hm
    · cases h
  · cases h

theorem new_succeeds {useSsl ctxMade sslMade : Bool} {w : SocketWrapper}
    {us : List (Lease Resource)}
    (h : SocketWrapper.new useSsl true ctxMade sslMade = (.ok w, us)) :
    useSsl = true → ctxMade = true ∧ sslMade = true := by
  rintro rfl
  cases ctxMade <;> cases sslMade <;> first | exact ⟨rfl, rfl⟩ | cases h

theorem settle_unshaken (useSsl reading : Bool) (fd : Nat) :
    settle (.socket fd :: SocketWrapper.tls useSsl)
        ((if reading then [.acquire .reader] else []) ++
          SocketWrapper.destroy ⟨useSsl, useSsl, true, some fd⟩) =
      some (if reading then [.reader] else []) := by
  cases useSsl <;> cases reading <;>
    simp [SocketWrapper.tls, SocketWrapper.destroy, settle]

/-- Why `Connect` answers false. -/
theorem connect_refused {w w' : SocketWrapper} {us vs : List (Lease Resource)} {fd : Nat}
    (hn : SocketWrapper.new options.useSsl true env.sslCtx env.ssl = (.ok w, us))
    (hc : w.connect (env.peer options) = some (false, w', vs))
    (hfd : SocketWrapper.chosen true (env.peer options) = some fd) :
    options.useSsl = true ∧ SocketWrapper.connectSsl env.answers = some false := by
  have hb := (SocketWrapper.connect_spec hc).connected
  rw [(SocketWrapper.new_holds hn).wrapper] at hb
  dsimp only at hb
  have hs : options.useSsl = true ∧ SocketWrapper.connectSsl env.answers ≠ some true := by
    by_contra hn
    have := hb.2 ⟨by rw [hfd]; rfl, fun hs => by_contra fun hne => hn ⟨hs, hne⟩⟩
    cases this
  refine ⟨hs.1, ?_⟩
  cases hssl : SocketWrapper.connectSsl env.answers with
  | none =>
    have hnone : w.connect (env.peer options) = none := by
      rw [SocketWrapper.connect_eq_none, (SocketWrapper.new_holds hn).wrapper]
      exact ⟨hs.1, by rw [hfd]; rfl, SocketWrapper.connectSsl_eq_none.1 hssl⟩
    rw [hc] at hnone
    cases hnone
  | some ok =>
    cases ok with
    | true => exact absurd hssl hs.2
    | false => rfl

/-- **The body of the `try`**, step by step. -/
theorem establish_spec {out : Except String NonblockingPacketService} {us : List (Lease Resource)}
    (h : establish lib options env = some (out, us)) : Establishes lib options env out us := by
  unfold establish at h
  split at h
  · rename_i what us₀ hn
    obtain ⟨rfl, rfl⟩ := Prod.mk.inj (Option.some.inj h)
    obtain ⟨hs, hm, rfl, hu⟩ := new_fails hn
    refine .failed (.environment hs hm) hu fun fd socket receiver hg => ?_
    rw [(hg.environment hs).1, (hg.environment hs).2] at hm
    cases hm
  rename_i w us₀ hn
  have hmade := new_succeeds hn
  obtain ⟨⟨b, w', vs⟩, hc, h⟩ := Option.bind_eq_some_iff.1 h
  have hh := (SocketWrapper.new_holds hn).connect hc
  rw [List.nil_append] at hh
  have hb := (SocketWrapper.connect_spec hc).connected
  rw [(SocketWrapper.new_holds hn).wrapper] at hb
  dsimp only at hb
  cases b with
  | false =>
    obtain ⟨rfl, rfl⟩ := Prod.mk.inj (Option.some.inj h)
    refine .failed (.unconnected hmade fun fd => connect_refused hn hc) ?_
      fun fd socket receiver hg => ?_
    · rw [hh.destroy]
      cases SocketWrapper.chosen true (env.peer options) <;> rfl
    · have := hb.2 ⟨by rw [hg.connected]; rfl, hg.secured⟩
      cases this
  | true =>
    obtain ⟨hsome, hsecured⟩ := hb.1 rfl
    obtain ⟨fd, hfd⟩ := Option.isSome_iff_exists.1 hsome
    rw [hfd] at hh
    obtain ⟨hw, hsettled⟩ := hh
    obtain rfl : w' = ⟨options.useSsl, options.useSsl, true, some fd⟩ := hw
    obtain ⟨s, hloop, h⟩ := Option.map_eq_some_iff.1 h
    replace hloop : NonblockingReceiver.handshakeLoop lib env.turns
        (NonblockingReceiver.unshaken fd options.hmacKey) = some s := hloop
    have hshake : NonblockingReceiver.handshake lib fd options.hmacKey env.turns =
        some (if (HandshakeHandler.after s.log).success then .ok (s.socket, s.receiver)
          else .error "Could not complete handshake.") := by
      rw [NonblockingReceiver.handshake, hloop]
      rfl
    by_cases hs : (HandshakeHandler.after s.log).success = true
    · rw [if_pos hs] at h hshake
      obtain ⟨rfl, rfl⟩ := Prod.mk.inj h
      exact .made ⟨hmade, hfd, hsecured, hshake⟩ hsettled
    · rw [if_neg hs] at h hshake
      obtain ⟨rfl, rfl⟩ := Prod.mk.inj h
      refine .failed (.unshaken hmade hfd hsecured hloop (Bool.eq_false_iff.2 hs)) ?_
        fun fd' socket receiver hg => ?_
      · rw [settle_append_of hsettled]
        exact settle_unshaken options.useSsl s.receiver.nonblockingResponse.isSome fd
      · obtain rfl := Option.some.inj (hfd.symm.trans hg.connected)
        rw [hg.shaken] at hshake
        cases hshake

/-- It comes to an end, if the handshake of TLS does and the clock goes on. -/
theorem establish_returns (hssl : SocketWrapper.connectSsl env.answers ≠ none)
    (hlate : ∃ turn ∈ env.turns, turn.late = true) : establish lib options env ≠ none := by
  intro h
  unfold establish at h
  split at h
  · cases h
  rename_i w us₀ hn
  rcases Option.bind_eq_none_iff.1 h with h
  cases hc : w.connect (env.peer options) with
  | none =>
    obtain ⟨-, -, hwait⟩ := SocketWrapper.connect_eq_none.1 hc
    exact hssl (SocketWrapper.connectSsl_eq_none.2 hwait)
  | some out =>
    obtain ⟨b, w', vs⟩ := out
    have h := h _ hc
    cases b with
    | false => cases h
    | true =>
      obtain ⟨turn, hm, hl⟩ := hlate
      have := handshakeLoop_late (Option.map_eq_none_iff.1 h) turn hm
      rw [hl] at this
      cases this

/-- The service is as the options say, and closing its wrapper gives all back. -/
theorem Succeeds.serving {fd : Nat} {socket : Socket} {receiver : NonblockingReceiver}
    (h : Succeeds lib options env fd socket receiver) :
    let s := serving options.userId socket receiver
    Fresh s ∧ s.socket.fd = fd ∧ s.sender.userId = options.userId ∧
      s.sender.hmacKey = options.hmacKey ∧ s.receiver.hmacKey = options.hmacKey ∧
      settle (.socket fd :: SocketWrapper.tls options.useSsl)
        (SocketWrapper.destroy ⟨options.useSsl, options.useSsl, true, some s.socket.fd⟩) =
          some [] := by
  obtain ⟨t, he, ht⟩ := Option.map_eq_some_iff.1 h.shaken
  have hg : Given fd options.hmacKey t :=
    Given.handshakeLoop (s := NonblockingReceiver.unshaken fd options.hmacKey) ⟨rfl, rfl, rfl⟩ he
  split at ht
  · obtain ⟨rfl, rfl⟩ := Prod.mk.inj (Except.ok.inj ht)
    refine ⟨handshake_fresh options.userId h.shaken, hg.fd, rfl, hg.hmacKey, hg.hmacKey, ?_⟩
    have := settle_unshaken options.useSsl false fd
    rw [← hg.fd] at this ⊢
    exact this
  · cases ht

/-- What one of the factory's functions comes to, over the connection that was in
`connection` before. -/
structure Outcome {κ : Type} (lib : Lib) (options : ConnectionOptions) (env : Surroundings)
    (wrap : NonblockingKineticConnection → κ) (connection : Owned κ) (m : Made κ) : Prop where
  ok_iff : m.1.ok = true ↔ ∃ fd socket receiver, Succeeds lib options env fd socket receiver
  made : ∀ fd socket receiver, Succeeds lib options env fd socket receiver →
    m.2.1 = some (wrap ⟨0⟩, NonblockingPacketService.serving options.userId socket receiver) ∧
      settle [] m.2.2 = some (.socket fd :: SocketWrapper.tls options.useSsl)
  failed : m.1.ok = false → m.2.1 = connection ∧ ∃ what left, Failure lib options env what left ∧
    m.1 = .makeInternalError ("Connection error: " ++ what) ∧ settle [] m.2.2 = some left

theorem makeInternalError_ok (what : String) :
    (Status.makeInternalError ("Connection error: " ++ what)).ok = false := by
  simp [Status.makeInternalError, Status.ok]

theorem doNewConnection_outcome {connection : Owned NonblockingKineticConnection}
    {m : Made NonblockingKineticConnection}
    (h : doNewConnection lib options env connection = some m) :
    Outcome lib options env id connection m := by
  obtain ⟨⟨out, us⟩, he, h⟩ := Option.map_eq_some_iff.1 h
  cases establish_spec he with
  | @failed what left us hf hu hn =>
    obtain rfl := h
    refine ⟨⟨fun hok => ?_, fun ⟨fd, k, r, hg⟩ => absurd hg (hn fd k r)⟩,
      fun fd k r hg => absurd hg (hn fd k r), fun _ => ⟨rfl, what, left, hf, rfl, hu⟩⟩
    rw [makeInternalError_ok] at hok
    cases hok
  | @made fd socket receiver us hg hu =>
    obtain rfl := h
    refine ⟨⟨fun _ => ⟨fd, socket, receiver, hg⟩, fun _ => rfl⟩, fun fd' k r hg' => ?_,
      fun hok => by cases hok⟩
    obtain rfl := Option.some.inj (hg.connected.symm.trans hg'.connected)
    have hsame := hg.shaken.symm.trans hg'.shaken
    obtain ⟨rfl, rfl⟩ := Prod.mk.inj (Except.ok.inj (Option.some.inj hsame))
    exact ⟨rfl, hu⟩

/-- Wrapping keeps the outcome, and the old connection if there is no new one. -/
theorem wrapped_outcome {α β : Type} {inner : NonblockingKineticConnection → α}
    {make : Owned α → Option (Made α)} {wrap : α → β} {connection : Owned β} {m : Made β}
    (hmake : ∀ m, make none = some m → Outcome lib options env inner none m)
    (h : wrapped make wrap connection = some m) :
    Outcome lib options env (wrap ∘ inner) connection m := by
  obtain ⟨⟨status, made, us⟩, he, rfl⟩ := Option.map_eq_some_iff.1 h
  obtain ⟨h1, h2, h3⟩ := hmake _ he
  refine ⟨h1, fun fd k r hg => ?_, fun hok => ?_⟩
  · have hok : status.ok = true := h1.2 ⟨fd, k, r, hg⟩
    obtain ⟨hm, hu⟩ := h2 fd k r hg
    refine ⟨?_, hu⟩
    dsimp only at hm ⊢
    rw [if_pos hok, hm]
    rfl
  · dsimp only at hok ⊢
    rw [hok]
    exact ⟨rfl, (h3 hok).2⟩

variable (lib options env) in
/-- **A connection is made, or nothing is touched.** Each function of the factory
returns once the handshake of TLS is over and the receiver's clock is late. Its
status is good exactly when every step went well; then `connection` holds a new
one over a service in an initial state, on the socket of the first address that
will do and with the options' user and key, and closing it gives everything back.
Otherwise `connection` is what it was, the status names the step that failed, and
everything is given back but the `SSL_CTX` for which there was no `SSL` and the
packet that the receiver was reading. -/
theorem connections_made :
    (∀ c m, newNonblockingConnection lib options env c = some m →
      Outcome lib options env id c m) ∧
    (∀ c m, newNonblockingConnectionShared lib options env c = some m →
      Outcome lib options env id c m) ∧
    (∀ c m, newThreadsafeNonblockingConnection lib options env c = some m →
      Outcome lib options env ThreadsafeNonblockingKineticConnection.mk c m) ∧
    (∀ c m, newBlockingConnection lib options env c = some m →
      Outcome lib options env BlockingKineticConnection.mk c m) ∧
    (∀ c m, newThreadsafeBlockingConnection lib options env c = some m →
      Outcome lib options env (ThreadsafeBlockingKineticConnection.mk ∘ .mk) c m) ∧
    (∀ fd socket receiver, Succeeds lib options env fd socket receiver →
      let s := serving options.userId socket receiver
      Fresh s ∧ s.socket.fd = fd ∧ s.sender.userId = options.userId ∧
        s.sender.hmacKey = options.hmacKey ∧ s.receiver.hmacKey = options.hmacKey ∧
        settle (.socket fd :: SocketWrapper.tls options.useSsl)
          (SocketWrapper.destroy ⟨options.useSsl, options.useSsl, true, some s.socket.fd⟩) =
            some []) ∧
    (SocketWrapper.connectSsl env.answers ≠ none → (∃ turn ∈ env.turns, turn.late = true) →
      (∀ c, newNonblockingConnection lib options env c ≠ none) ∧
      (∀ c, newNonblockingConnectionShared lib options env c ≠ none) ∧
      (∀ c, newThreadsafeNonblockingConnection lib options env c ≠ none) ∧
      (∀ c, newBlockingConnection lib options env c ≠ none) ∧
      ∀ c, newThreadsafeBlockingConnection lib options env c ≠ none) := by
  have hblocking : ∀ c m, newBlockingConnection lib options env c = some m →
      Outcome lib options env BlockingKineticConnection.mk c m :=
    fun c m h => wrapped_outcome (fun _ => doNewConnection_outcome) h
  refine ⟨fun c m => doNewConnection_outcome,
    fun c m h => wrapped_outcome (fun _ => doNewConnection_outcome) h,
    fun c m h => wrapped_outcome (fun _ => doNewConnection_outcome) h, hblocking,
    fun c m h => wrapped_outcome (fun _ => hblocking none _) h,
    fun fd socket receiver => Succeeds.serving, fun hssl hlate => ?_⟩
  have hdo : ∀ c, doNewConnection lib options env c ≠ none := fun c h =>
    establish_returns hssl hlate (Option.map_eq_none_iff.1 h)
  have hwrapped : ∀ {α β : Type} {make : Owned α → Option (Made α)} {wrap : α → β},
      make none ≠ none → ∀ c, wrapped make wrap c ≠ none :=
    fun hm c h => hm (Option.map_eq_none_iff.1 h)
  exact ⟨hdo, hwrapped (hdo none), hwrapped (hdo none), hwrapped (hdo none),
    hwrapped (hwrapped (hdo none) none)⟩

/-- A connection over TLS to the second address of `localhost`. -/
def greeted : ConnectionOptions × Surroundings :=
  (⟨"localhost", 8443, true, 1, [1]⟩,
   { resolve := fun _ _ => some [{ socket := some 3, connect := false }, { socket := some 5 }]
     answers := [.wantRead, .ok]
     turns := greeting })

theorem connections_made_greeted :
    ∃ s us, newThreadsafeBlockingConnection Codec.plain greeted.1 greeted.2 none =
        some (Status.makeOk, some (⟨⟨⟨0⟩⟩⟩, s), us) ∧
      Fresh s ∧ s.socket.fd = 5 ∧ s.receiver.hmacKey = [1] ∧
      settle [] us = some [.socket 5, .ssl, .sslCtx] := by
  obtain ⟨-, -, -, -, hmade, hserving, -⟩ := connections_made Codec.plain greeted.1 greeted.2
  have hok : ((newThreadsafeBlockingConnection Codec.plain greeted.1 greeted.2 none).map
      fun m => m.1) = some Status.makeOk := by decide +kernel
  obtain ⟨⟨status, c, us⟩, he, rfl⟩ := Option.map_eq_some_iff.1 hok
  have ho := hmade none _ he
  obtain ⟨fd, socket, receiver, hg⟩ := ho.ok_iff.1 rfl
  obtain ⟨rfl, hu⟩ := ho.made fd socket receiver hg
  obtain ⟨hr, hfd, -, -, hkey, -⟩ := hserving fd socket receiver hg
  obtain rfl : 5 = fd := Option.some.inj hg.connected
  exact ⟨_, us, he, hr, hfd, hkey, hu⟩

end KineticConnectionFactory
end Kinetic.L3
