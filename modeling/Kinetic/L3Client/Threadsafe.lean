import Kinetic.Core.Monitor
import Kinetic.L2Service.Registration
import Kinetic.L3Client.Answers
import Kinetic.L3Client.Iteration

/-!
# Many threads on one connection

Each method of the two thread-safe classes locks their recursive mutex, calls the
same method of the connection they hold, and unlocks it. Callbacks run inside `Run`
and may call further methods, which lock the mutex again. Whatever small steps a
method is made of, if by itself it does what the model of the connection says, then
threads see their calls made one after another (`threads_in_order`,
`blocking_threads_in_order`).

`IterateKeyRange` is such a method for as long as it loads the first frame. The
iterator that it returns points to the inner connection: the frames it loads later
on are not calls of the thread-safe class.
-/
open Kinetic.Core

namespace Kinetic.L3

open L1 L2 NonblockingPacketService Monitor

variable {lib : Lib} {T : Type} [DecidableEq T]

/-! ## ThreadsafeNonblockingKineticConnection -/

structure SharedNonblocking where
  connection : ThreadsafeNonblockingKineticConnection
  service : NonblockingPacketService

/-- The methods of `ThreadsafeNonblockingKineticConnection`, the operations being
one of them; `scripts` is what the callbacks will do that are called meanwhile. -/
inductive NonblockingMethod where
  | setClientClusterVersion (clusterVersion : Int)
  | operation (call : Call) (scripts : List (List Action))
  | run (io : Io) (fds : FdSets)
  | removeHandler (handlerKey : Nat)

inductive NonblockingReply where
  | none
  | key (handlerKey : Nat)
  | ran (ok : Bool) (fds : FdSets)
  | removed (found : Bool)

namespace NonblockingMethod

/-- The submission of an operation, where no null pointer is dereferenced. -/
def request (c : ThreadsafeNonblockingKineticConnection) (call : Call) :
    Option (Message × Command × Bytes) := do
  let submission ← c.submits call
  let value ← submission.value
  return (submission.message, submission.command, value)

def Defined (lib : Lib) : NonblockingMethod → SharedNonblocking → Prop
  | .operation call _, s => (request s.connection call).isSome ∧ s.service.submitDefined = true
  | .run io _, s => (s.service.supply io).runDefined lib = true
  | _, _ => True

/-- mirrors src/main/threadsafe_nonblocking_kinetic_connection.cc:34-368 -/
def apply (lib : Lib) : NonblockingMethod → SharedNonblocking →
    Option (NonblockingReply × SharedNonblocking)
  | .setClientClusterVersion clusterVersion, s =>
    some (.none, { s with connection := s.connection.setClientClusterVersion clusterVersion })
  | .operation call scripts, s => do
    let (m, c, v) ← request s.connection call
    let (key, service) :=
      NonblockingPacketService.submit lib (complete lib) m c v { s.service with scripts }
    return (.key key, { s with service })
  | .run io fds, s =>
    let (ok, fds, service) := (s.service.supply io).run lib fds
    some (.ran ok fds, { s with service })
  | .removeHandler handlerKey, s =>
    let (found, service) := s.service.remove handlerKey
    some (.removed found, { s with service })

end NonblockingMethod

def NonblockingReply.handlerKey : NonblockingReply → Option Nat
  | .key k => some k
  | _ => Option.none

theorem submit_keys {s : NonblockingPacketService} (hs : Steady lib s)
    (scripts : List (List Action)) (m : Message) (c : Command) (v : Bytes) :
    ∃ new, ((Op.submit scripts m c v).apply lib s).log = s.log ++ new ∧ [s.nextKey] <+: keys new := by
  cases hf : s.failed with
  | true =>
    obtain ⟨-, new, hl⟩ := submit_failed hs hf scripts m c v
    exact ⟨_, hl, keys new, rfl⟩
  | false =>
    obtain ⟨r, he, -, hk, -⟩ := enqueue_spec lib m c v s.handlers s.nextKey
      ({ s with scripts } : NonblockingPacketService).count
    have hl : ((Op.submit scripts m c v).apply lib s).log = s.log ++ [.submitted r] := by
      simp only [Op.apply, NonblockingPacketService.submit, hf, Bool.false_eq_true, if_false]
      exact congrArg NonblockingPacketService.log he
    exact ⟨_, hl, [], by rw [List.append_nil, ← hk]; rfl⟩

/-- **One call** is at most one operation of the service, and the key it returns has
been logged. -/
theorem apply_run {op : NonblockingMethod} {s t : SharedNonblocking} {r : NonblockingReply}
    (hs : Steady lib s.service) (hd : op.Defined lib s) (h : op.apply lib s = some (r, t)) :
    (∃ ops, (service lib).Run s.service ops t.service) ∧
      ∃ new, t.service.log = s.service.log ++ new ∧ r.handlerKey.toList <+: keys new := by
  cases op with
  | setClientClusterVersion clusterVersion =>
    obtain ⟨rfl, rfl⟩ := Prod.mk.inj (Option.some.inj h)
    exact ⟨⟨[], .nil _⟩, [], (List.append_nil _).symm, List.nil_prefix⟩
  | operation call scripts =>
    obtain ⟨⟨m, c, v⟩, hreq⟩ := Option.isSome_iff_exists.1 hd.1
    simp only [NonblockingMethod.apply, hreq, Option.bind_eq_bind, Option.bind_some,
      Option.pure_def, Option.some.injEq, Prod.mk.injEq] at h
    obtain ⟨rfl, rfl⟩ := h
    refine ⟨⟨[.submit scripts m c v], .cons ⟨hd.2, rfl⟩ (.nil _)⟩, ?_⟩
    rw [submit_key]
    exact submit_keys hs scripts m c v
  | run io fds =>
    obtain ⟨rfl, rfl⟩ := Prod.mk.inj (Option.some.inj h)
    have hrun : (service lib).Run s.service [.run io fds] ((Op.run io fds).apply lib s.service) :=
      .cons ⟨hd, rfl⟩ (.nil _)
    obtain ⟨new, hl⟩ := steps_log (run_steps hrun hs).1 hs.inv
    exact ⟨⟨_, hrun⟩, new, hl, List.nil_prefix⟩
  | removeHandler handlerKey =>
    obtain ⟨rfl, rfl⟩ := Prod.mk.inj (Option.some.inj h)
    have hrun : (service lib).Run s.service [.remove handlerKey]
        ((Op.remove handlerKey).apply lib s.service) := .cons ⟨trivial, rfl⟩ (.nil _)
    obtain ⟨new, hl⟩ := steps_log (run_steps hrun hs).1 hs.inv
    exact ⟨⟨_, hrun⟩, new, hl, List.nil_prefix⟩

def returnedKeys (calls : List (NonblockingMethod × NonblockingReply)) : List Nat :=
  calls.filterMap fun c => c.2.handlerKey

/-- **Any calls**, one after another. -/
theorem inOrder_run {s t : SharedNonblocking} {calls : List (NonblockingMethod × NonblockingReply)}
    (hs : (service lib).Reachable s.service)
    (h : InOrder (NonblockingMethod.Defined lib) (NonblockingMethod.apply lib) s calls t) :
    (service lib).Reachable t.service ∧
      ∃ new, t.service.log = s.service.log ++ new ∧ (returnedKeys calls).Sublist (keys new) := by
  induction h with
  | nil => exact ⟨hs, [], (List.append_nil _).symm, List.Sublist.refl _⟩
  | @snoc t u calls op r _ hd ha ih =>
    obtain ⟨ht, new, hl, hsub⟩ := ih
    obtain ⟨⟨ops, hrun⟩, new', hl', hsub'⟩ := apply_run (steady ht) hd ha
    refine ⟨ht.run hrun, new ++ new', by rw [hl', hl, List.append_assoc], ?_⟩
    have hkeys : keys (new ++ new') = keys new ++ keys new' := by
      rw [keys, keyed_append, List.map_append]
      rfl
    have hret : returnedKeys (calls ++ [(op, r)]) = returnedKeys calls ++ r.handlerKey.toList := by
      rw [returnedKeys, List.filterMap_append]
      cases hk : r.handlerKey <;> simp [hk, returnedKeys]
    rw [hkeys, hret]
    exact hsub.append hsub'.sublist

/-- **Threads that share a connection** get the replies, and leave the connection in
the state, of their calls made one after another in the order in which they return:
so whatever holds of every run of the service holds however they interleave. No two
operations are given the same key, a thread inside a method is alone there and
nothing keeps it from going on. -/
theorem threads_in_order {m : Methods SharedNonblocking NonblockingMethod NonblockingReply}
    (himp : m.Implements (NonblockingMethod.Defined lib) (NonblockingMethod.apply lib)) {st : State m T}
    (h : (system m (NonblockingMethod.Defined lib) (fun s => Fresh s.service) T).Reachable st) :
    (∃ s₀ s, Fresh s₀.service ∧
      InOrder (NonblockingMethod.Defined lib) (NonblockingMethod.apply lib) s₀
        (st.returned.map Prod.snd) s ∧
      (st.mutex = .free → st.object = s) ∧ (service lib).Reachable s.service ∧
      (s.service.handlers ≤ 2 ^ 64 → (returnedKeys (st.returned.map Prod.snd)).Nodup)) ∧
    ∀ t op l, st.phase t = .running op l →
      Outside st t ∧ Unblocked m (NonblockingMethod.Defined lib) st t l := by
  obtain ⟨s₀, s, h0, hio, hfree⟩ := serializes himp h
  obtain ⟨hr, new, hl, hsub⟩ := inOrder_run ⟨_, [], h0, .nil _⟩ hio
  rw [h0.log, List.nil_append] at hl
  exact ⟨⟨s₀, s, h0, hio, hfree, hr, fun hn => (keys_nodup hr hn).sublist (hl ▸ hsub)⟩,
    (unblocked himp h).1⟩

def untouchedNonblocking : State (Methods.torn (NonblockingMethod.apply Codec.plain)) Bool where
  object := ⟨⟨⟨0⟩⟩, create 5 1 [] 0⟩
  mutex := .free
  phase _ := .idle
  returned := []

/-- One of two threads has called `NoOp`, the other `Get` while the first was inside. -/
theorem threads_in_order_torn :
    ∃ (mid st : State (Methods.torn (NonblockingMethod.apply Codec.plain)) Bool)
      (s₀ s : SharedNonblocking),
      mid.mutex = .held true 1 ∧ Outside mid true ∧
      mid.phase false = .waiting (.operation (.getS [107]) []) ∧
      st.returned.map Prod.fst = [true, false] ∧
      returnedKeys (st.returned.map Prod.snd) = [0, 1] ∧ Fresh s₀.service ∧
      InOrder (NonblockingMethod.Defined Codec.plain) (NonblockingMethod.apply Codec.plain) s₀
        (st.returned.map Prod.snd) s ∧ st.object = s := by
  let op : NonblockingMethod := .operation .noOp []
  let op' : NonblockingMethod := .operation (.getS [107]) []
  let M := system (Methods.torn (NonblockingMethod.apply Codec.plain))
    (NonblockingMethod.Defined Codec.plain) (fun s => Fresh s.service) Bool
  obtain ⟨⟨r, u⟩, hu⟩ : ∃ x, op.apply Codec.plain untouchedNonblocking.object = some x :=
    Option.isSome_iff_exists.1 (by decide +kernel)
  have hnext : (op.apply Codec.plain untouchedNonblocking.object).all (fun x =>
      x.1.handlerKey = some 0 ∧ x.2.service.submitDefined ∧
        (NonblockingMethod.request x.2.connection (.getS [107])).isSome ∧
        (op'.apply Codec.plain x.2).any fun y => y.1.handlerKey = some 1) = true := by
    decide +kernel
  rw [hu] at hnext
  simp only [Option.all_some, decide_eq_true_eq, Option.any_eq_true] at hnext
  obtain ⟨hr, hdef, hreq, ⟨r', u'⟩, hu', hr'⟩ := hnext
  have hd : op.Defined Codec.plain untouchedNonblocking.object :=
    ⟨by decide +kernel, by decide +kernel⟩
  have hd' : op'.Defined Codec.plain u := ⟨hreq, hdef⟩
  obtain ⟨moves, mid, l, moves', st, hrun, hm, -, hin, hwait, hrun', hfree, -, hret⟩ := torn_pair
    (fun s : SharedNonblocking => Fresh s.service) (u := false) (t := true) (by decide) rfl rfl rfl
    hd hu hd' hu' u'
  have hmid : M.Reachable mid :=
    ⟨untouchedNonblocking, moves, ⟨create_fresh 5 1 [] 0, rfl, fun _ => rfl, rfl⟩, hrun⟩
  have himp := Methods.torn_implements (NonblockingMethod.Defined Codec.plain)
    (NonblockingMethod.apply Codec.plain)
  obtain ⟨⟨s₀, s, h0, hio, hobj, -⟩, -⟩ := threads_in_order himp (hmid.run hrun')
  refine ⟨mid, st, s₀, s, hm, ((threads_in_order himp hmid).2 true op l hin).1, hwait, ?_, ?_, h0,
    hio, hobj hfree⟩
  · rw [hret]; rfl
  · rw [hret]
    simp [returnedKeys, untouchedNonblocking, hr, hr']

/-! ## ThreadsafeBlockingKineticConnection -/

/-- The call of the inner connection that each call makes: its own, but that
`SecureErase` makes `InstantErase`. -/
def ThreadsafeBlockingKineticConnection.forwards : Call → Call
  | .secureErase pin => .instantErase pin
  | .secureEraseS pin => .instantEraseS pin
  | call => call

theorem submits_forwards (c : ThreadsafeBlockingKineticConnection) (call : Call) :
    c.submits call =
      c.connection.submits (ThreadsafeBlockingKineticConnection.forwards call) := by
  cases call <;> rfl

/-- The object behind the mutex, and the device. -/
structure SharedBlocking where
  connection : ThreadsafeBlockingKineticConnection
  net : Net

/-- What happens while an operation waits: in its first `Run` and in each turn of
its loop, and what the device has sent when it returns. -/
structure Meanwhile where
  first : Io
  turns : List Turn
  fds : FdSets
  packets : List Packet
  arrived : Bytes

/-- The methods of `ThreadsafeBlockingKineticConnection`. An operation comes with
the caller's out parameters. -/
inductive BlockingMethod where
  | setClientClusterVersion (clusterVersion : Int)
  | operation (call : Call) (out : Outputs) (meanwhile : Meanwhile)
  | iterateKeyRange (startKey : StringPtr) (startKeyInclusive : Bool) (endKey : StringPtr)
      (endKeyInclusive : Bool) (frameSize : BitVec 32) (meanwhile : Meanwhile)

inductive BlockingReply where
  | none
  | returned (status : KineticStatus) (out : Outputs)
  /-- The iterator, or what its constructor throws. -/
  | iterator (made : Except Thrown KeyRangeIterator)

namespace BlockingMethod

/-- An operation of the inner connection. -/
def inner (s : SharedBlocking) (call : Call) (meanwhile : Meanwhile) : Operation :=
  ⟨s.connection.connection, call, meanwhile.first, meanwhile.turns, meanwhile.fds⟩

/-- mirrors src/main/threadsafe_blocking_kinetic_connection.cc:36-371; `none` has not
returned, or dereferences a null pointer. -/
def apply (lib : Lib) : BlockingMethod → SharedBlocking → Option (BlockingReply × SharedBlocking)
  | .setClientClusterVersion clusterVersion, s =>
    some (.none, { s with connection := s.connection.setClientClusterVersion clusterVersion })
  | .operation call out meanwhile, s => do
    let op := inner s (ThreadsafeBlockingKineticConnection.forwards call) meanwhile
    let (status, service) := op.perform lib s.net.service
    let status ← status
    return (.returned status (outputs op.call.callback out s.net.service.handlers service.log),
      { s with net := ⟨service, meanwhile.packets, meanwhile.arrived⟩ })
  | .iterateKeyRange startKey startKeyInclusive endKey endKeyInclusive frameSize meanwhile, s => do
    let start ← startKey
    let last ← endKey
    let it := KeyRangeIterator.initial 0 frameSize start startKeyInclusive last endKeyInclusive
    let op := inner s it.frameCall meanwhile
    let reply ← op.keyRangeReply lib it.keys s.net.service
    let made ← KeyRangeIterator.create (fun _ _ => reply) 0 frameSize start startKeyInclusive last
      endKeyInclusive
    return (.iterator made, { s with
      net := ⟨(op.perform lib s.net.service).2, meanwhile.packets, meanwhile.arrived⟩ })

/-- The operation is defined, and the device is honest while it runs. -/
def Allowed (lib : Lib) (net : Net) (op : Operation) (meanwhile : Meanwhile) : Prop :=
  op.Defined lib net.service ∧ ∃ ops, (network lib).Run net ops
    ⟨(op.perform lib net.service).2, meanwhile.packets, meanwhile.arrived⟩

def Defined (lib : Lib) : BlockingMethod → SharedBlocking → Prop
  | .setClientClusterVersion _, _ => True
  | .operation call _ meanwhile, s =>
    Allowed lib s.net (inner s (ThreadsafeBlockingKineticConnection.forwards call) meanwhile)
      meanwhile
  | .iterateKeyRange startKey startKeyInclusive endKey endKeyInclusive frameSize meanwhile, s =>
    ∃ start last, startKey = some start ∧ endKey = some last ∧
      Allowed lib s.net (inner s (KeyRangeIterator.initial 0 frameSize start startKeyInclusive last
        endKeyInclusive).frameCall meanwhile) meanwhile

end BlockingMethod

def BlockingMethod.isOperation : BlockingMethod → Bool
  | .operation _ _ _ => true
  | .iterateKeyRange _ _ _ _ _ _ => true
  | .setClientClusterVersion _ => false

/-- The operation performed is this call, and this happened meanwhile. -/
def Performed.Is (c : Performed) (call : Call) (meanwhile : Meanwhile) : Prop :=
  c.op.call = call ∧ c.op.first = meanwhile.first ∧ c.op.turns = meanwhile.turns ∧
    c.op.fds = meanwhile.fds

def Performed.outputs (c : Performed) (out : Outputs) : Outputs :=
  L3.outputs c.op.call.callback out c.before.service.handlers c.after.service.log

/-- The reply of a method is the status of the operation performed, and the out
parameters that its callback has left. An iterator holds the keys it was given, and
is at its end if there are none; without `OK` its constructor throws. -/
def Replies : BlockingMethod × BlockingReply → Performed → Prop
  | (.operation call out meanwhile, .returned status out'), c =>
    c.Is (ThreadsafeBlockingKineticConnection.forwards call) meanwhile ∧ c.status = status ∧
      out' = c.outputs out
  | (.iterateKeyRange startKey startKeyInclusive endKey endKeyInclusive frameSize meanwhile,
      .iterator made), c =>
    ∃ start last, startKey = some start ∧ endKey = some last ∧
      let it := KeyRangeIterator.initial 0 frameSize start startKeyInclusive last endKeyInclusive
      c.Is it.frameCall meanwhile ∧
      made = if c.status.code = .ok then
          .ok { it with
            keys := (c.outputs {}).keys
            relpos := 0
            eol := ((c.outputs {}).keys.getD []).isEmpty }
        else .error (.runtimeError c.status.message)
  | _, _ => False

/-- **One call** that performs an operation. -/
theorem apply_performs {s t : SharedBlocking} {method : BlockingMethod} {r : BlockingReply}
    (hop : method.isOperation = true) (hd : method.Defined lib s)
    (ha : method.apply lib s = some (r, t)) :
    ∃ c : Performed, c.before = s.net ∧ c.after = t.net ∧
      Performs lib c.before c.op c.status c.after ∧ Replies (method, r) c := by
  cases method with
  | setClientClusterVersion clusterVersion => cases hop
  | operation call out meanwhile =>
    obtain ⟨hdef, hrun⟩ := hd
    cases hp : (BlockingMethod.inner s (ThreadsafeBlockingKineticConnection.forwards call)
      meanwhile).perform lib s.net.service with
    | mk status service =>
    cases status with
    | none => simp [BlockingMethod.apply, hp] at ha
    | some status =>
      simp only [BlockingMethod.apply, hp, bind, Option.bind_some, pure, Option.some.injEq,
        Prod.mk.injEq] at ha
      obtain ⟨rfl, rfl⟩ := ha
      rw [hp] at hrun
      exact ⟨⟨s.net, _, status, _⟩, rfl, rfl, ⟨hdef, hrun, hp⟩, ⟨rfl, rfl, rfl, rfl⟩, rfl, rfl⟩
  | iterateKeyRange startKey si endKey ei frameSize meanwhile =>
    obtain ⟨start, last, rfl, rfl, hdef, hrun⟩ := hd
    cases hp : (BlockingMethod.inner s (KeyRangeIterator.initial 0 frameSize start si last
      ei).frameCall meanwhile).perform lib s.net.service with
    | mk status service =>
    cases status with
    | none => simp [BlockingMethod.apply, Operation.keyRangeReply, hp] at ha
    | some status =>
      simp only [BlockingMethod.apply, Operation.keyRangeReply, hp, KeyRangeIterator.create_eq, bind,
        Option.bind_some, Option.map_some, pure, Option.some.injEq, Prod.mk.injEq] at ha
      obtain ⟨rfl, rfl⟩ := ha
      rw [hp] at hrun
      exact ⟨⟨s.net, _, status, _⟩, rfl, rfl, ⟨hdef, hrun, hp⟩, start, last, rfl, rfl,
        ⟨rfl, rfl, rfl, rfl⟩, rfl⟩

/-- **Any calls** one after another are a session. -/
theorem inOrder_session {s t : SharedBlocking} {calls : List (BlockingMethod × BlockingReply)}
    (h : InOrder (BlockingMethod.Defined lib) (BlockingMethod.apply lib) s calls t) :
    ∃ performed, Session lib s.net performed t.net ∧
      List.Forall₂ Replies (calls.filter fun c => c.1.isOperation) performed := by
  induction h with
  | nil => exact ⟨[], .nil, .nil⟩
  | @snoc t u calls method r _ hd ha ih =>
    obtain ⟨performed, hs, hall⟩ := ih
    rw [List.filter_append]
    cases hop : method.isOperation with
    | true =>
      obtain ⟨⟨before, op, status, after⟩, rfl, rfl, hp, hr⟩ := apply_performs hop hd ha
      refine ⟨performed ++ [_], hs.snoc hp, ?_⟩
      rw [List.filter_cons_of_pos (by exact hop), List.filter_nil]
      exact List.rel_append hall (.cons hr .nil)
    | false =>
      have hnet : u.net = t.net := by
        cases method with
        | setClientClusterVersion clusterVersion =>
          obtain ⟨rfl, rfl⟩ := Prod.mk.inj (Option.some.inj ha)
          rfl
        | operation call out meanwhile => cases hop
        | iterateKeyRange startKey si endKey ei frameSize meanwhile => cases hop
      rw [List.filter_cons_of_neg (by simp [hop]), List.filter_nil, List.append_nil, hnet]
      exact ⟨performed, hs, hall⟩

/-- **Threads that share a blocking connection** to an honest device perform, one
after another in the order in which they return, a session of operations, the first
frames of iterators among them. Each is answered for itself: whichever thread gets
`OK` has the data of a packet that was received while it was inside and acknowledges
its own request. A thread inside a method is alone there, and nothing keeps it from
going on. -/
theorem blocking_threads_in_order {m : Methods SharedBlocking BlockingMethod BlockingReply}
    (himp : m.Implements (BlockingMethod.Defined lib) (BlockingMethod.apply lib)) {st : State m T}
    (h : (system m (BlockingMethod.Defined lib) (fun s => Connected s.net) T).Reachable st) :
    (∃ s₀ s performed, Connected s₀.net ∧
      InOrder (BlockingMethod.Defined lib) (BlockingMethod.apply lib) s₀
        (st.returned.map Prod.snd) s ∧
      (st.mutex = .free → st.object = s) ∧ Session lib s₀.net performed s.net ∧
      List.Forall₂ Replies ((st.returned.map Prod.snd).filter fun c => c.1.isOperation)
        performed ∧
      ∀ c ∈ performed, Answered lib c.before c.op c.status c.after) ∧
    ∀ t op l, st.phase t = .running op l →
      Outside st t ∧ Unblocked m (BlockingMethod.Defined lib) st t l := by
  obtain ⟨s₀, s, h0, hio, hfree⟩ := serializes himp h
  obtain ⟨performed, hs, hall⟩ := inOrder_session hio
  refine ⟨⟨s₀, s, performed, h0, hio, hfree, hs, hall, fun c hc => ?_⟩, (unblocked himp h).1⟩
  obtain ⟨hr, hp⟩ := (hs.performs ⟨_, [], h0, .nil _⟩).2 c hc
  exact hp.answered hr

theorem Performs.allowed {net : Net} {op : Operation} {status : KineticStatus}
    {service : NonblockingPacketService} {meanwhile : Meanwhile}
    (hp : Performs lib net op status ⟨service, meanwhile.packets, meanwhile.arrived⟩) :
    BlockingMethod.Allowed lib net op meanwhile := by
  obtain ⟨hd, hrun, hret⟩ := hp
  refine ⟨hd, ?_⟩
  rw [hret]
  exact hrun

theorem Performs.apply_operation {s : SharedBlocking} {call : Call} {meanwhile : Meanwhile}
    {status : KineticStatus} {service : NonblockingPacketService} (out : Outputs)
    (hp : Performs lib s.net
      (BlockingMethod.inner s (ThreadsafeBlockingKineticConnection.forwards call) meanwhile) status
      ⟨service, meanwhile.packets, meanwhile.arrived⟩) :
    ∃ r, (BlockingMethod.operation call out meanwhile).apply lib s =
      some (r, { s with net := ⟨service, meanwhile.packets, meanwhile.arrived⟩ }) := by
  simp [BlockingMethod.apply, hp.returns]

theorem Performs.apply_iterateKeyRange {s : SharedBlocking} {start last : Bytes} {si ei : Bool}
    {frameSize : BitVec 32} {meanwhile : Meanwhile} {status : KineticStatus}
    {service : NonblockingPacketService}
    (hp : Performs lib s.net (BlockingMethod.inner s
      (KeyRangeIterator.initial 0 frameSize start si last ei).frameCall meanwhile) status
      ⟨service, meanwhile.packets, meanwhile.arrived⟩) :
    ∃ r, (BlockingMethod.iterateKeyRange (some start) si (some last) ei frameSize meanwhile).apply
      lib s = some (r, { s with net := ⟨service, meanwhile.packets, meanwhile.arrived⟩ }) := by
  simp [BlockingMethod.apply, Operation.keyRangeReply, KeyRangeIterator.create_eq, hp.returns]

def untouchedBlocking : State (Methods.torn (BlockingMethod.apply Codec.plain)) Bool where
  object := ⟨⟨⟨⟨0⟩⟩⟩, ⟨create 5 1 [] 0, [], []⟩⟩
  mutex := .free
  phase _ := .idle
  returned := []

def gotten : List Packet := [reply none 0 .success [7]]
def framed : List Packet := [reply none 1 .success []]

def loading : Operation :=
  { prompt framed with call := (KeyRangeIterator.initial 0 10 [97] true [98] true).frameCall }

def afterGet : Net := answered untouchedBlocking.object.net (prompt gotten) gotten
def afterFrame : Net := answered afterGet loading framed

theorem performs_gotten :
    Performs Codec.plain untouchedBlocking.object.net (prompt gotten) ⟨.ok, "", 0⟩ afterGet :=
  performs_first (by decide +kernel)
    ⟨List.prefix_append _ _, rfl, by decide +kernel, by simp [prompt, Socket.Fragment],
      by decide +kernel⟩
    (by decide +kernel) rfl (by decide +kernel) (by decide +kernel)

theorem performs_framed : Performs Codec.plain afterGet loading ⟨.ok, "", 0⟩ afterFrame :=
  performs_first (by decide +kernel)
    ⟨List.prefix_append _ _, rfl, by decide +kernel, by simp [loading, prompt, Socket.Fragment],
      by decide +kernel⟩
    (by decide +kernel) rfl (by decide +kernel) (by decide +kernel)

def promptGet : BlockingMethod :=
  .operation (.getS [107]) {}
    ⟨(prompt gotten).first, [], ⟨[], [], 0⟩, afterGet.packets, afterGet.arrived⟩

/-- An iterator whose first frame, without a key, comes in its first `Run`. -/
def promptFrame : BlockingMethod :=
  .iterateKeyRange (some [97]) true (some [98]) true 10
    ⟨(prompt framed).first, [], ⟨[], [], 0⟩, afterFrame.packets, afterFrame.arrived⟩

/-- One of two threads has had its `Get` answered, the other its first frame, for
which it has waited. -/
theorem blocking_threads_in_order_torn :
    ∃ (mid st : State (Methods.torn (BlockingMethod.apply Codec.plain)) Bool)
      (s₀ s : SharedBlocking) (performed : List Performed),
      mid.mutex = .held true 1 ∧ Outside mid true ∧ mid.phase false = .waiting promptFrame ∧
      st.returned.map Prod.fst = [true, false] ∧ performed.length = 2 ∧
      Session Codec.plain s₀.net performed s.net ∧
      List.Forall₂ Replies ((st.returned.map Prod.snd).filter fun c => c.1.isOperation) performed ∧
      ∀ c ∈ performed, Answered Codec.plain c.before c.op c.status c.after := by
  let M := system (Methods.torn (BlockingMethod.apply Codec.plain))
    (BlockingMethod.Defined Codec.plain) (fun s => Connected s.net) Bool
  have hd : promptGet.Defined Codec.plain untouchedBlocking.object := performs_gotten.allowed
  have hd' : promptFrame.Defined Codec.plain ⟨⟨⟨⟨0⟩⟩⟩, afterGet⟩ :=
    ⟨[97], [98], rfl, rfl, performs_framed.allowed⟩
  obtain ⟨r, hu⟩ : ∃ r, promptGet.apply Codec.plain untouchedBlocking.object =
      some (r, ⟨⟨⟨⟨0⟩⟩⟩, afterGet⟩) := Performs.apply_operation {} performs_gotten
  obtain ⟨r', hu'⟩ : ∃ r, promptFrame.apply Codec.plain ⟨⟨⟨⟨0⟩⟩⟩, afterGet⟩ =
      some (r, ⟨⟨⟨⟨0⟩⟩⟩, afterFrame⟩) := Performs.apply_iterateKeyRange performs_framed
  obtain ⟨moves, mid, l, moves', st, hrun, hm, -, hin, hwait, hrun', -, -, hret⟩ := torn_pair
    (fun s : SharedBlocking => Connected s.net) (u := false) (t := true) (by decide) rfl rfl rfl
    hd hu hd' hu' untouchedBlocking.object
  have hmid : M.Reachable mid :=
    ⟨untouchedBlocking, moves,
      ⟨⟨create_fresh 5 1 [] 0, rfl, rfl, rfl⟩, rfl, fun _ => rfl, rfl⟩, hrun⟩
  have himp := Methods.torn_implements (BlockingMethod.Defined Codec.plain)
    (BlockingMethod.apply Codec.plain)
  obtain ⟨⟨s₀, s, performed, -, -, -, hs, hall, hans⟩, -⟩ :=
    blocking_threads_in_order himp (hmid.run hrun')
  refine ⟨mid, st, s₀, s, performed, hm,
    ((blocking_threads_in_order himp hmid).2 true promptGet l hin).1, hwait, ?_, ?_, hs, hall, hans⟩
  · rw [hret]; rfl
  · rw [← hall.length_eq, hret]; rfl

end Kinetic.L3
