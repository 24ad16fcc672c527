import Kinetic.Core.LTS
import Kinetic.Core.Ownership

/-!
# `SocketWrapper`

The descriptor under a connection: `Connect` tries the addresses of the host in
turn and keeps the first socket that passes every step, closing those that do
not; over it, for TLS, `ConnectSSL` calls itself until the handshake is over. The
calls to the system answer as the lists they are given say, and every socket,
`SSL` and `SSL_CTX` taken or given back is noted.
-/
open Kinetic.Core

namespace Kinetic.L2

inductive Resource where
  | socket (fd : Nat)
  | sslCtx
  | ssl
  /-- A `NonblockingPacketReader`. -/
  | reader
  deriving DecidableEq, Repr

/-- What the calls made for one address answer: whether they succeed, and the new
descriptor of `socket`. -/
structure Address where
  getnameinfo : Bool := true
  socket : Option Nat
  getFlags : Bool := true
  setFlags : Bool := true
  connect : Bool := true
  setNonblock : Bool := true
  deriving DecidableEq, Repr

/-- What `SSL_get_error` makes of the answer of `SSL_connect`. -/
inductive SslConnect where
  | ok
  | wantRead
  | wantWrite
  | failed
  deriving DecidableEq, Repr

/-- mirrors src/main/socket_wrapper.h:38-43; `ssl_` and `ctx_` by whether they are
there, and `fd_` by its value unless it is -1. -/
structure SocketWrapper where
  ctx : Bool
  ssl : Bool
  nonblocking : Bool
  fd : Option Nat
  deriving DecidableEq, Repr

namespace SocketWrapper

/-- What the constructor takes for TLS: there is no `SSL` without an `SSL_CTX`. -/
def environment (ctxMade sslMade : Bool) : List (Lease Resource) :=
  (if ctxMade then [.acquire .sslCtx] else []) ++
    if ctxMade && sslMade then [.acquire .ssl] else []

/-- The constructor. One that throws runs no destructor.
mirrors src/main/socket_wrapper.cc:107-120 -/
def new (useSsl nonblocking ctxMade sslMade : Bool) :
    Except String SocketWrapper × List (Lease Resource) :=
  if useSsl then
    if !(ctxMade && sslMade) || !ctxMade then
      (.error "Failed Setting up SSL environment.", environment ctxMade sslMade)
    else (.ok ⟨true, true, nonblocking, none⟩, environment ctxMade sslMade)
  else (.ok ⟨false, false, nonblocking, none⟩, [])

/-- mirrors src/main/socket_wrapper.cc:122-134 -/
def destroy (w : SocketWrapper) : List (Lease Resource) :=
  (match w.fd with
    | none => []
    | some fd => [.release (.socket fd)]) ++
  ((if w.ssl then [.release .ssl] else []) ++ if w.ctx then [.release .sslCtx] else [])

/-- The loop over the addresses; a step that fails closes the socket and goes on.
mirrors src/main/socket_wrapper.cc:157-218 -/
def connectLoop (nonblocking : Bool) : List Address → Option Nat × List (Lease Resource)
  | [] => (none, [])
  | a :: as =>
    if !a.getnameinfo then connectLoop nonblocking as
    else
      match a.socket with
      | none => connectLoop nonblocking as
      | some fd =>
        let next := connectLoop nonblocking as
        let closed := (next.1, .acquire (.socket fd) :: .release (.socket fd) :: next.2)
        if !a.getFlags then closed
        else if !a.setFlags then closed
        else if !a.connect then closed
        else if nonblocking && !a.setNonblock then closed
        else (some fd, [.acquire (.socket fd)])

/-- mirrors src/main/socket_wrapper.cc:235-260; `none` when the answers run out,
the handshake still going on. -/
def connectSsl : List SslConnect → Option Bool
  | [] => none
  | .ok :: _ => some true
  | .wantRead :: answers => connectSsl answers
  | .wantWrite :: answers => connectSsl answers
  | .failed :: _ => some false

/-- What a call of `Connect` meets: the addresses of the host, if it can be
resolved, and the answers to the TLS handshake. -/
structure Peer where
  addresses : Option (List Address)
  answers : List SslConnect := []

/-- mirrors src/main/socket_wrapper.cc:136-233 -/
def connect (peer : Peer) (w : SocketWrapper) :
    Option (Bool × SocketWrapper × List (Lease Resource)) :=
  match peer.addresses with
  | none => some (false, w, [])
  | some as =>
    match connectLoop w.nonblocking as with
    | (none, us) => some (false, w, us)
    | (some fd, us) =>
      let w := { w with fd := some fd }
      if w.ssl then (connectSsl peer.answers).map fun b => (b, w, us)
      else some (true, w, us)

/-! ## One call of Connect -/

/-- Every step succeeds. -/
def Usable (nonblocking : Bool) (a : Address) : Bool :=
  a.getnameinfo && a.socket.isSome && a.getFlags && a.setFlags && a.connect &&
    (!nonblocking || a.setNonblock)

/-- The socket of the first address that will do. -/
def chosen (nonblocking : Bool) (peer : Peer) : Option Nat :=
  ((peer.addresses.getD []).find? (Usable nonblocking)).bind Address.socket

/-- **The loop** keeps the socket of the first address that will do, and no other. -/
theorem connectLoop_spec (nonblocking : Bool) (as : List Address) (held : List Resource) :
    (connectLoop nonblocking as).1 = (as.find? (Usable nonblocking)).bind Address.socket ∧
      settle held (connectLoop nonblocking as).2 = some
        (((connectLoop nonblocking as).1.map Resource.socket).toList ++ held) := by
  induction as with
  | nil => exact ⟨rfl, rfl⟩
  | cons a as ih =>
    obtain ⟨h1, h2⟩ := ih
    by_cases hu : Usable nonblocking a = true
    · rw [List.find?_cons_of_pos hu]
      obtain ⟨gn, sk, gf, sf, co, nb⟩ := a
      simp only [Usable, Bool.and_eq_true, Option.isSome_iff_exists] at hu
      obtain ⟨⟨⟨⟨⟨rfl, fd, rfl⟩, rfl⟩, rfl⟩, rfl⟩, hnb⟩ := hu
      have hn : (nonblocking && !nb) = false := by
        cases nonblocking <;> simp_all
      simp [connectLoop, hn, settle]
    · rw [List.find?_cons_of_neg hu, ← h1]
      have hskip : (connectLoop nonblocking (a :: as)).1 = (connectLoop nonblocking as).1 ∧
          settle held (connectLoop nonblocking (a :: as)).2 =
            settle held (connectLoop nonblocking as).2 := by
        rw [connectLoop]
        generalize connectLoop nonblocking as = next
        split
        · exact ⟨rfl, rfl⟩
        rename_i hg
        split
        · exact ⟨rfl, rfl⟩
        rename_i fd hs
        dsimp only
        split
        · exact ⟨rfl, settle_bracket ..⟩
        rename_i hf
        split
        · exact ⟨rfl, settle_bracket ..⟩
        rename_i hf'
        split
        · exact ⟨rfl, settle_bracket ..⟩
        rename_i hc
        split
        · exact ⟨rfl, settle_bracket ..⟩
        rename_i hn
        refine absurd ?_ hu
        simp only [Bool.not_eq_true, Bool.not_eq_false'] at hg hf hf' hc hn
        cases nonblocking <;> simp_all [Usable]
      rw [hskip.1, hskip.2]
      exact ⟨rfl, h2⟩

/-- **The handshake** is over at the first answer that is not to try again. -/
theorem connectSsl_eq_none {answers : List SslConnect} :
    connectSsl answers = none ↔ ∀ a ∈ answers, a = .wantRead ∨ a = .wantWrite := by
  induction answers with
  | nil => simp [connectSsl]
  | cons a answers ih => cases a <;> simp [connectSsl, ih]

/-- What a call of `Connect` comes to. -/
structure Connects (peer : Peer) (w : SocketWrapper) (b : Bool) (w' : SocketWrapper)
    (us : List (Lease Resource)) : Prop where
  wrapper : w' = { w with fd := (chosen w.nonblocking peer).or w.fd }
  uses : ∀ held, settle held us =
    some (((chosen w.nonblocking peer).map Resource.socket).toList ++ held)
  connected : b = true ↔ (chosen w.nonblocking peer).isSome ∧
    (w.ssl = true → connectSsl peer.answers = some true)

theorem connect_spec {peer : Peer} {w w' : SocketWrapper} {b : Bool} {us : List (Lease Resource)}
    (h : w.connect peer = some (b, w', us)) : Connects peer w b w' us := by
  obtain ⟨addresses, answers⟩ := peer
  cases addresses with
  | none =>
    simp only [connect, Option.some.injEq, Prod.mk.injEq] at h
    obtain ⟨rfl, rfl, rfl⟩ := h
    exact ⟨by simp [chosen], fun held => by simp [chosen, settle], by simp [chosen]⟩
  | some as =>
    have hloop := fun held => connectLoop_spec w.nonblocking as held
    have hchosen : (connectLoop w.nonblocking as).1 = chosen w.nonblocking ⟨some as, answers⟩ :=
      (hloop []).1
    rw [connect] at h
    dsimp only at h
    cases hl : connectLoop w.nonblocking as with
    | mk found us₀ =>
    rw [hl] at h hchosen
    simp only [hl] at hloop
    dsimp only at hchosen
    cases found with
    | none =>
      simp only [Option.some.injEq, Prod.mk.injEq] at h
      obtain ⟨rfl, rfl, rfl⟩ := h
      exact ⟨by rw [← hchosen]; rfl, fun held => by rw [← hchosen]; exact (hloop held).2, by
        rw [← hchosen]; simp⟩
    | some fd =>
      dsimp only at h
      split at h
      · rename_i hs
        obtain ⟨b', hb, he⟩ := Option.map_eq_some_iff.1 h
        simp only [Prod.mk.injEq] at he
        obtain ⟨rfl, rfl, rfl⟩ := he
        refine ⟨by rw [← hchosen]; rfl, fun held => by rw [← hchosen]; exact (hloop held).2, ?_⟩
        rw [← hchosen, hb]
        simp [hs]
      · rename_i hs
        simp only [Option.some.injEq, Prod.mk.injEq] at h
        obtain ⟨rfl, rfl, rfl⟩ := h
        refine ⟨by rw [← hchosen]; rfl, fun held => by rw [← hchosen]; exact (hloop held).2, ?_⟩
        rw [← hchosen]
        simp [hs]

theorem connect_eq_none {peer : Peer} {w : SocketWrapper} :
    w.connect peer = none ↔ w.ssl = true ∧ (chosen w.nonblocking peer).isSome ∧
      ∀ a ∈ peer.answers, a = .wantRead ∨ a = .wantWrite := by
  obtain ⟨addresses, answers⟩ := peer
  rw [← connectSsl_eq_none]
  cases addresses with
  | none => simp [connect, chosen]
  | some as =>
    have hchosen : (connectLoop w.nonblocking as).1 = chosen w.nonblocking ⟨some as, answers⟩ :=
      (connectLoop_spec w.nonblocking as []).1
    rw [← hchosen, connect]
    dsimp only
    cases connectLoop w.nonblocking as with
    | mk found us =>
    cases found with
    | none => simp
    | some fd =>
      dsimp only
      cases hs : w.ssl <;> simp

/-! ## A life -/

/-- Any number of calls of `Connect`, with the trace of what they take and give
back. -/
def lifecycle (useSsl nonblocking ctxMade sslMade : Bool) :
    LTS (SocketWrapper × List (Lease Resource)) Peer where
  init p := new useSsl nonblocking ctxMade sslMade = (.ok p.1, p.2)
  step p peer q := ∃ b us, p.1.connect peer = some (b, q.1, us) ∧ q.2 = p.2 ++ us

/-- What the constructor has taken for TLS. -/
def tls (useSsl : Bool) : List Resource := if useSsl then [.ssl, .sslCtx] else []

/-- After `Connect`s that got the sockets `got`. -/
structure Holds (useSsl nonblocking : Bool) (got : List Nat) (w : SocketWrapper)
    (us : List (Lease Resource)) : Prop where
  wrapper : w = ⟨useSsl, useSsl, nonblocking, got.getLast?⟩
  settled : settle [] us = some ((got.map Resource.socket).reverse ++ tls useSsl)

theorem new_holds {useSsl nonblocking ctxMade sslMade : Bool} {w : SocketWrapper}
    {us : List (Lease Resource)} (h : new useSsl nonblocking ctxMade sslMade = (.ok w, us)) :
    Holds useSsl nonblocking [] w us := by
  unfold new at h
  split at h
  · rename_i hs
    subst hs
    split at h
    · cases h
    · rename_i hm
      simp only [Prod.mk.injEq, Except.ok.injEq] at h
      obtain ⟨rfl, rfl⟩ := h
      cases ctxMade <;> cases sslMade <;> first | exact absurd rfl hm | exact ⟨rfl, rfl⟩
  · rename_i hs
    rw [Bool.not_eq_true] at hs
    subst hs
    simp only [Prod.mk.injEq, Except.ok.injEq] at h
    obtain ⟨rfl, rfl⟩ := h
    exact ⟨rfl, rfl⟩

theorem Holds.connect {useSsl nonblocking : Bool} {got : List Nat} {w w' : SocketWrapper}
    {us vs : List (Lease Resource)} (h : Holds useSsl nonblocking got w us) {peer : Peer} {b : Bool}
    (hc : w.connect peer = some (b, w', vs)) :
    Holds useSsl nonblocking (got ++ (chosen nonblocking peer).toList) w' (us ++ vs) := by
  obtain ⟨rfl, hs⟩ := h
  obtain ⟨hw, hu, -⟩ := connect_spec hc
  refine ⟨?_, ?_⟩
  · rw [hw]
    cases chosen nonblocking peer <;> simp
  · rw [settle_append_of hs, hu]
    cases chosen nonblocking peer <;> simp

theorem Holds.destroy {useSsl nonblocking : Bool} {got : List Nat} {w : SocketWrapper}
    {us : List (Lease Resource)} (h : Holds useSsl nonblocking got w us) :
    settle [] (us ++ w.destroy) = some (got.dropLast.map Resource.socket).reverse := by
  obtain ⟨rfl, hs⟩ := h
  rw [settle_append_of hs, SocketWrapper.destroy]
  have hclosed : settle ((got.map Resource.socket).reverse ++ tls useSsl)
      (match got.getLast? with
        | none => []
        | some fd => [.release (.socket fd)]) =
      some ((got.dropLast.map Resource.socket).reverse ++ tls useSsl) := by
    rcases List.eq_nil_or_concat got with rfl | ⟨init, fd, rfl⟩
    · rfl
    · simp [settle]
  rw [settle_append_of hclosed]
  have hnot : ∀ r : Resource, (∀ fd, r ≠ .socket fd) →
      r ∉ (got.dropLast.map Resource.socket).reverse := by
    intro r hr hm
    obtain ⟨fd, -, rfl⟩ := List.mem_map.1 (List.mem_reverse.1 hm)
    exact hr fd rfl
  cases useSsl with
  | false => simp [tls, settle]
  | true =>
    simp only [tls, if_true, List.cons_append, List.nil_append, settle]
    rw [if_pos (by simp), List.erase_append_right _ (hnot .ssl (by simp)), List.erase_cons_head,
      if_pos (by simp), List.erase_append_right _ (hnot .sslCtx (by simp)), List.erase_cons_head,
      List.append_nil]

theorem lifecycle_holds {useSsl nonblocking ctxMade sslMade : Bool} {peers : List Peer}
    {p q : SocketWrapper × List (Lease Resource)} {got : List Nat}
    (hrun : (lifecycle useSsl nonblocking ctxMade sslMade).Run p peers q)
    (h : Holds useSsl nonblocking got p.1 p.2) :
    Holds useSsl nonblocking (got ++ peers.filterMap (chosen nonblocking)) q.1 q.2 := by
  induction hrun generalizing got with
  | nil => simpa using h
  | @cons p u q peer peers hs _ ih =>
    obtain ⟨b, us, hc, hu⟩ := hs
    have := ih (hu ▸ h.connect hc)
    rw [List.append_assoc] at this
    rw [List.filterMap_cons]
    cases hch : chosen nonblocking peer <;> simpa [hch] using this

/-- **A wrapper connects** exactly when some address of the host will do, and takes
the first; a TLS handshake must then succeed, and only one that is never over keeps
`Connect` from returning. Whatever was tried, nothing is closed twice, and a wrapper
that is deleted has given back everything but the sockets that a later `Connect`
replaced: all of it, if it connected at most once. -/
theorem life_balanced {useSsl nonblocking ctxMade sslMade : Bool} {w₀ w : SocketWrapper}
    {us₀ us : List (Lease Resource)} {peers : List Peer}
    (h0 : new useSsl nonblocking ctxMade sslMade = (.ok w₀, us₀))
    (hrun : (lifecycle useSsl nonblocking ctxMade sslMade).Run (w₀, us₀) peers (w, us)) :
    let got := peers.filterMap (chosen nonblocking)
    w.fd = got.getLast? ∧
    settle [] (us ++ w.destroy) = some (got.dropLast.map Resource.socket).reverse ∧
    (settle [] (us ++ w.destroy) = some [] ↔ got.length ≤ 1) ∧
    ∀ peer, (w.connect peer = none ↔ useSsl = true ∧ (chosen nonblocking peer).isSome ∧
        ∀ a ∈ peer.answers, a = .wantRead ∨ a = .wantWrite) ∧
      ∀ b w' vs, w.connect peer = some (b, w', vs) →
        (b = true ↔ (chosen nonblocking peer).isSome ∧
          (useSsl = true → connectSsl peer.answers = some true)) ∧
        w'.fd = (chosen nonblocking peer).or w.fd := by
  intro got
  have hh : Holds useSsl nonblocking got w us := by
    simpa using lifecycle_holds hrun (new_holds h0)
  have hd := hh.destroy
  have hw := hh.wrapper
  have hssl : w.ssl = useSsl := by rw [hw]
  have hnb : w.nonblocking = nonblocking := by rw [hw]
  refine ⟨by rw [hw], hd, ?_, fun peer => ⟨?_, fun b w' vs hc => ?_⟩⟩
  · rw [hd, Option.some.injEq, List.reverse_eq_nil_iff, List.map_eq_nil_iff,
      ← List.length_eq_zero_iff, List.length_dropLast]
    omega
  · rw [connect_eq_none, hssl, hnb]
  · obtain ⟨h1, -, h3⟩ := connect_spec hc
    rw [hssl, hnb] at h3
    exact ⟨h3, by rw [h1, hnb]⟩

/-- The first address refuses, the second will do, and the handshake takes a while. -/
def secondAddress : Peer where
  addresses := some [{ socket := some 3, connect := false }, { socket := none },
    { socket := some 3 }, { socket := some 4 }]
  answers := [.wantRead, .wantWrite, .ok]

theorem life_balanced_secondAddress :
    settle [] ([.acquire .sslCtx, .acquire .ssl, .acquire (.socket 3), .release (.socket 3),
      .acquire (.socket 3)] ++ destroy ⟨true, true, true, some 3⟩) = some [] := by
  have hstep : (lifecycle true true true true).step
      (⟨true, true, true, none⟩, [.acquire .sslCtx, .acquire .ssl]) secondAddress
      (⟨true, true, true, some 3⟩, [.acquire .sslCtx, .acquire .ssl, .acquire (.socket 3),
        .release (.socket 3), .acquire (.socket 3)]) :=
    ⟨true, [.acquire (.socket 3), .release (.socket 3), .acquire (.socket 3)], rfl, rfl⟩
  exact ((life_balanced rfl (.cons hstep (.nil _))).2.2.1).2 (by decide)

end SocketWrapper
end Kinetic.L2
