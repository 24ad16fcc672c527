import Kinetic.Core.LTS
import Mathlib.Logic.Function.Basic

/-!
# Objects behind a recursive mutex

Threads call the methods of an object, which take a mutex first and give it back
last. A method goes in small steps and may leave the object in any state between
two of them; it may also call another method of the object, which takes the mutex
again. What threads see is what they would see if the calls were made one after
another, in the order in which they return (`Monitor.serializes`), and a thread
that is inside is never kept waiting (`Monitor.unblocked`).
-/
namespace Kinetic.Core

/-- A mutex that its holder may lock again: free, or held by a thread that has
locked it `again` times after the first. -/
inductive RecursiveMutex (T : Type) where
  | free
  | held (t : T) (again : Nat)
  deriving DecidableEq, Repr

namespace RecursiveMutex

variable {T : Type} [DecidableEq T]

/-- `none` blocks. -/
def lock (t : T) : RecursiveMutex T → Option (RecursiveMutex T)
  | .free => some (.held t 0)
  | .held u n => if u = t then some (.held t (n + 1)) else none

/-- `none` is undefined. -/
def unlock (t : T) : RecursiveMutex T → Option (RecursiveMutex T)
  | .free => none
  | .held u n => if u = t then some (match n with | 0 => .free | n + 1 => .held t n) else none

end RecursiveMutex

/-- The methods of an object in small steps. A step reads and writes the object, or
locks or unlocks the mutex for a nested call; `nested` counts the nested calls under
way. -/
structure Methods (σ Op ρ : Type) where
  Local : Type
  nested : Local → Nat
  start : Op → Local
  access : Local → σ → Local → σ → Prop
  lock : Local → Local → Prop
  unlock : Local → Local → Prop
  result : Local → ρ → Prop
  nested_start : ∀ op, nested (start op) = 0
  nested_access : ∀ {l s l' s'}, access l s l' s' → nested l' = nested l
  nested_lock : ∀ {l l'}, lock l l' → nested l' = nested l + 1
  nested_unlock : ∀ {l l'}, unlock l l' → nested l = nested l' + 1
  nested_result : ∀ {l r}, result l r → nested l = 0

variable {σ Op ρ T : Type}

namespace Methods

variable (m : Methods σ Op ρ)

/-- A call by itself: from `s`, it gets here. -/
inductive Alone (op : Op) (s : σ) : m.Local → σ → Prop
  | start : Alone op s (m.start op) s
  | access {l l' : m.Local} {u u' : σ} : Alone op s l u → m.access l u l' u' → Alone op s l' u'
  | lock {l l' : m.Local} {u : σ} : Alone op s l u → m.lock l l' → Alone op s l' u
  | unlock {l l' : m.Local} {u : σ} : Alone op s l u → m.unlock l l' → Alone op s l' u

/-- A call by itself, where it is allowed, does what `apply` says. -/
def Implements (pre : Op → σ → Prop) (apply : Op → σ → Option (ρ × σ)) : Prop :=
  ∀ op s l r t, pre op s → m.Alone op s l t → m.result l r → apply op s = some (r, t)

end Methods

inductive InOrder (pre : Op → σ → Prop) (apply : Op → σ → Option (ρ × σ)) :
    σ → List (Op × ρ) → σ → Prop
  | nil (s : σ) : InOrder pre apply s [] s
  | snoc {s t u : σ} {calls : List (Op × ρ)} {op : Op} {r : ρ} : InOrder pre apply s calls t →
      pre op t → apply op t = some (r, u) → InOrder pre apply s (calls ++ [(op, r)]) u

namespace Monitor

/-- Where a thread is: outside, at the mutex, or inside. -/
inductive Phase (m : Methods σ Op ρ) where
  | idle
  | waiting (op : Op)
  | running (op : Op) (l : m.Local)

structure State (m : Methods σ Op ρ) (T : Type) where
  object : σ
  mutex : RecursiveMutex T
  phase : T → Phase m
  returned : List (T × Op × ρ)

inductive Move (T Op : Type) where
  | call (t : T) (op : Op)
  | enter (t : T)
  | access (t : T)
  | lock (t : T)
  | unlock (t : T)
  | leave (t : T)

variable [DecidableEq T] (m : Methods σ Op ρ) (pre : Op → σ → Prop)

/-- A thread moves. A method enters with the first lock, where the call must be
allowed, and leaves with the last unlock. -/
inductive Step : State m T → Move T Op → State m T → Prop
  | call {st : State m T} {t : T} (op : Op) : st.phase t = .idle →
      Step st (.call t op) { st with phase := Function.update st.phase t (.waiting op) }
  | enter {st : State m T} {t : T} {op : Op} {mutex : RecursiveMutex T} :
      st.phase t = .waiting op → st.mutex.lock t = some mutex → pre op st.object →
      Step st (.enter t)
        { st with mutex, phase := Function.update st.phase t (.running op (m.start op)) }
  | access {st : State m T} {t : T} {op : Op} {l l' : m.Local} {object : σ} :
      st.phase t = .running op l → m.access l st.object l' object →
      Step st (.access t)
        { st with object, phase := Function.update st.phase t (.running op l') }
  | lock {st : State m T} {t : T} {op : Op} {l l' : m.Local} {mutex : RecursiveMutex T} :
      st.phase t = .running op l → m.lock l l' → st.mutex.lock t = some mutex →
      Step st (.lock t) { st with mutex, phase := Function.update st.phase t (.running op l') }
  | unlock {st : State m T} {t : T} {op : Op} {l l' : m.Local} {mutex : RecursiveMutex T} :
      st.phase t = .running op l → m.unlock l l' → st.mutex.unlock t = some mutex →
      Step st (.unlock t) { st with mutex, phase := Function.update st.phase t (.running op l') }
  | leave {st : State m T} {t : T} {op : Op} {l : m.Local} {r : ρ} {mutex : RecursiveMutex T} :
      st.phase t = .running op l → m.result l r → st.mutex.unlock t = some mutex →
      Step st (.leave t) { st with
        mutex
        phase := Function.update st.phase t .idle
        returned := st.returned ++ [(t, op, r)] }

/-- Any number of threads, each calling what it likes. -/
def system (init : σ → Prop) (T : Type) [DecidableEq T] : LTS (State m T) (Move T Op) where
  init st := init st.object ∧ st.mutex = .free ∧ (∀ t, st.phase t = .idle) ∧ st.returned = []
  step := Step m pre

/-! ## One thread at a time -/

variable {m pre} {apply : Op → σ → Option (ρ × σ)} {init : σ → Prop} {st st' : State m T}

def Outside (st : State m T) (t : T) : Prop := ∀ u, u ≠ t → ∀ op l, st.phase u ≠ .running op l

/-- Nobody is inside, and the calls have left the object in `s`; or one thread is,
and is by itself since then. -/
inductive Inside (m : Methods σ Op ρ) (pre : Op → σ → Prop) (s : σ) (st : State m T) : Prop
  | free : st.mutex = .free → st.object = s → (∀ t op l, st.phase t ≠ .running op l) →
      Inside m pre s st
  | held (t : T) (op : Op) (l : m.Local) : st.mutex = .held t (m.nested l) →
      st.phase t = .running op l → pre op s → m.Alone op s l st.object → Outside st t →
      Inside m pre s st

theorem outside_update {t : T} (h : Outside st t) {object : σ} {mutex : RecursiveMutex T}
    {p : Phase m} {returned : List (T × Op × ρ)} :
    Outside ⟨object, mutex, Function.update st.phase t p, returned⟩ t := by
  intro u hu op l
  dsimp only
  rw [Function.update_of_ne hu]
  exact h u hu op l

theorem Inside.holder {s : σ} (h : Inside m pre s st) {t : T} {op : Op} {l : m.Local}
    (hp : st.phase t = .running op l) :
    st.mutex = .held t (m.nested l) ∧ pre op s ∧ m.Alone op s l st.object ∧ Outside st t := by
  cases h with
  | free _ _ hout => exact absurd hp (hout t op l)
  | held u op' l' hm hu hpre ha hout =>
    obtain rfl : t = u := by
      by_contra hne
      exact hout t hne op l hp
    rw [hu] at hp
    cases hp
    exact ⟨hm, hpre, ha, hout⟩

/-- The calls that have returned are in order, and the one inside goes on from there. -/
def Ordered (m : Methods σ Op ρ) (pre : Op → σ → Prop) (apply : Op → σ → Option (ρ × σ)) (s₀ : σ)
    (st : State m T) : Prop :=
  ∃ s, InOrder pre apply s₀ (st.returned.map Prod.snd) s ∧ Inside m pre s st

/-- **One move** of a thread keeps the calls in order. -/
theorem Ordered.step (himp : m.Implements pre apply) {s₀ : σ} (h : Ordered m pre apply s₀ st)
    {move : Move T Op} (hst : Step m pre st move st') : Ordered m pre apply s₀ st' := by
  obtain ⟨s, hs, hin⟩ := h
  cases hst with
  | @call t op hidle =>
    refine ⟨s, hs, ?_⟩
    have hother : ∀ u op' l, Function.update st.phase t (.waiting op) u = .running op' l →
        st.phase u = .running op' l ∧ u ≠ t := by
      intro u op' l hu
      by_cases hut : u = t
      · rw [hut, Function.update_self] at hu
        cases hu
      · rw [Function.update_of_ne hut] at hu
        exact ⟨hu, hut⟩
    cases hin with
    | free hm ho hout => exact .free hm ho fun u op' l hu => hout u op' l (hother u op' l hu).1
    | held u op' l hm hu hpre ha hout =>
      have hut : u ≠ t := fun he => by rw [he, hidle] at hu; cases hu
      exact .held u op' l hm ((Function.update_of_ne hut _ _).trans hu) hpre ha
        fun v hv op'' l' hp => hout v hv op'' l' (hother v op'' l' hp).1
  | @enter t op mutex hwait hlock hpre =>
    cases hin with
    | free hm ho hout =>
      rw [hm] at hlock
      obtain rfl := Option.some.inj hlock
      subst ho
      exact ⟨_, hs, .held t op (m.start op) (by rw [m.nested_start]) (Function.update_self ..) hpre
        .start (outside_update fun u _ => hout u)⟩
    | held u op' l hm hu _ ha hout =>
      rw [hm, RecursiveMutex.lock] at hlock
      split at hlock
      · rename_i he
        rw [he, hwait] at hu
        cases hu
      · cases hlock
  | @access t op l l' object hp hacc =>
    obtain ⟨hm, hpre, ha, hout⟩ := hin.holder hp
    exact ⟨s, hs, .held t op l' (by rw [m.nested_access hacc]; exact hm) (Function.update_self ..)
      hpre (ha.access hacc) (outside_update hout)⟩
  | @lock t op l l' mutex hp hl hlock =>
    obtain ⟨hm, hpre, ha, hout⟩ := hin.holder hp
    rw [hm, RecursiveMutex.lock, if_pos rfl] at hlock
    obtain rfl := Option.some.inj hlock
    exact ⟨s, hs, .held t op l' (by rw [m.nested_lock hl]) (Function.update_self ..) hpre
      (ha.lock hl) (outside_update hout)⟩
  | @unlock t op l l' mutex hp hl hunlock =>
    obtain ⟨hm, hpre, ha, hout⟩ := hin.holder hp
    rw [hm, m.nested_unlock hl, RecursiveMutex.unlock, if_pos rfl] at hunlock
    obtain rfl := Option.some.inj hunlock
    exact ⟨s, hs, .held t op l' rfl (Function.update_self ..) hpre (ha.unlock hl)
      (outside_update hout)⟩
  | @leave t op l r mutex hp hr hunlock =>
    obtain ⟨hm, hpre, ha, hout⟩ := hin.holder hp
    rw [hm, m.nested_result hr, RecursiveMutex.unlock, if_pos rfl] at hunlock
    obtain rfl := Option.some.inj hunlock
    refine ⟨st.object, ?_, .free rfl rfl fun u op' l' hu => ?_⟩
    · rw [List.map_append]
      exact hs.snoc hpre (himp op s l r st.object hpre ha hr)
    · by_cases hut : u = t
      · dsimp only at hu
        rw [hut, Function.update_self] at hu
        cases hu
      · exact outside_update hout u hut op' l' hu

/-! ## Any run -/

theorem ordered (himp : m.Implements pre apply) (h : (system m pre init T).Reachable st) :
    ∃ s₀, init s₀ ∧ Ordered m pre apply s₀ st := by
  refine LTS.Inductive.reachable (M := system m pre init T)
    (P := fun st => ∃ s₀, init s₀ ∧ Ordered m pre apply s₀ st) ⟨?_, ?_⟩ st h
  · rintro st ⟨h0, hm, hidle, hret⟩
    refine ⟨st.object, h0, st.object, ?_, .free hm rfl fun t op l hp => ?_⟩
    · rw [hret]; exact .nil _
    · rw [hidle t] at hp; cases hp
  · rintro st move st' ⟨s₀, h0, ho⟩ hst
    exact ⟨s₀, h0, ho.step himp hst⟩

/-- **Calls are made in order**: the results that threads have got are those of the
calls made one after another, in the order in which they returned; while the mutex
is free the object is as these calls have left it. -/
theorem serializes (himp : m.Implements pre apply) (h : (system m pre init T).Reachable st) :
    ∃ s₀ s, init s₀ ∧ InOrder pre apply s₀ (st.returned.map Prod.snd) s ∧
      (st.mutex = .free → st.object = s) := by
  obtain ⟨s₀, h0, s, hs, hin⟩ := ordered himp h
  refine ⟨s₀, s, h0, hs, fun hm => ?_⟩
  cases hin with
  | free _ ho _ => exact ho
  | held t op l hm' => rw [hm] at hm'; cases hm'

/-- What a method can do next, it can do where other threads are. -/
structure Unblocked (m : Methods σ Op ρ) (pre : Op → σ → Prop) (st : State m T) (t : T)
    (l : m.Local) : Prop where
  access : ∀ l' object, m.access l st.object l' object → ∃ st', Step m pre st (.access t) st'
  lock : ∀ l', m.lock l l' → ∃ st', Step m pre st (.lock t) st'
  unlock : ∀ l', m.unlock l l' → ∃ st', Step m pre st (.unlock t) st'
  leave : ∀ r, m.result l r → ∃ st', Step m pre st (.leave t) st'

/-- **Nobody inside is kept waiting**, least of all by a mutex that it holds already;
and a thread that waits is let in unless another is inside. -/
theorem unblocked (himp : m.Implements pre apply) (h : (system m pre init T).Reachable st) :
    (∀ t op l, st.phase t = .running op l → Outside st t ∧ Unblocked m pre st t l) ∧
    ∀ t op, st.phase t = .waiting op → pre op st.object →
      (∃ st', Step m pre st (.enter t) st') ∨ ∃ u op' l, st.phase u = .running op' l := by
  obtain ⟨s₀, -, s, -, hin⟩ := ordered himp h
  refine ⟨fun t op l hp => ?_, fun t op hp hpre => ?_⟩
  · obtain ⟨hm, -, -, hout⟩ := hin.holder hp
    have hlock : st.mutex.lock t = some (.held t (m.nested l + 1)) := by
      rw [hm, RecursiveMutex.lock, if_pos rfl]
    refine ⟨hout, fun l' object ha => ⟨_, .access hp ha⟩, fun l' hl => ⟨_, .lock hp hl hlock⟩,
      fun l' hl => ?_, fun r hr => ?_⟩
    · have hunlock : st.mutex.unlock t = some (.held t (m.nested l')) := by
        rw [hm, m.nested_unlock hl, RecursiveMutex.unlock, if_pos rfl]
      exact ⟨_, .unlock hp hl hunlock⟩
    · have hunlock : st.mutex.unlock t = some .free := by
        rw [hm, m.nested_result hr, RecursiveMutex.unlock, if_pos rfl]
      exact ⟨_, .leave hp hr hunlock⟩
  · cases hin with
    | free hm _ _ => exact .inl ⟨_, .enter hp (by rw [hm]; rfl) hpre⟩
    | held u op' l _ hu => exact .inr ⟨u, op', l, hu⟩

end Monitor

/-! ## Methods that leave nothing in order -/

/-- Where a call of `Methods.torn` is. -/
inductive Torn (σ Op ρ : Type) where
  | begin (op : Op)
  | inside (op : Op) (s : σ) (again : Nat)
  | finished (r : ρ)

inductive Torn.Access (apply : Op → σ → Option (ρ × σ)) : Torn σ Op ρ → σ → Torn σ Op ρ → σ → Prop
  | read (op : Op) (s s' : σ) : Access apply (.begin op) s (.inside op s 0) s'
  | scribble (op : Op) (s₀ : σ) (n : Nat) (s s' : σ) :
      Access apply (.inside op s₀ n) s (.inside op s₀ n) s'
  | store {op : Op} {s₀ s s' : σ} {r : ρ} : apply op s₀ = some (r, s') →
      Access apply (.inside op s₀ 0) s (.finished r) s'

inductive Torn.Again : Torn σ Op ρ → Torn σ Op ρ → Prop
  | again (op : Op) (s : σ) (n : Nat) : Again (.inside op s n) (.inside op s (n + 1))

/-- The methods that read the object, leave it in any state while they are at work,
taking the mutex again and giving it back as they like, and then store what it is
to be. -/
def Methods.torn (apply : Op → σ → Option (ρ × σ)) : Methods σ Op ρ where
  Local := Torn σ Op ρ
  nested
    | .inside _ _ n => n
    | _ => 0
  start := .begin
  access := Torn.Access apply
  lock := Torn.Again
  unlock l l' := Torn.Again l' l
  result l r := l = .finished r
  nested_start _ := rfl
  nested_access h := by cases h <;> rfl
  nested_lock h := by cases h; rfl
  nested_unlock h := by cases h; rfl
  nested_result h := by rw [h]

/-- A call of `op` that found the object in `s`, and by itself has left it in `t`. -/
def Torn.Since (apply : Op → σ → Option (ρ × σ)) (op : Op) (s t : σ) : Torn σ Op ρ → Prop
  | .begin op' => op' = op ∧ t = s
  | .inside op' s₀ _ => op' = op ∧ s₀ = s
  | .finished r => apply op s = some (r, t)

theorem Methods.torn_since {apply : Op → σ → Option (ρ × σ)} {op : Op} {s t : σ}
    {l : (Methods.torn apply).Local} (h : (Methods.torn apply).Alone op s l t) :
    Torn.Since apply op s t l := by
  induction h with
  | start => exact ⟨rfl, rfl⟩
  | access _ hacc ih =>
    cases hacc with
    | read => exact ih
    | scribble => exact ih
    | store he =>
      obtain ⟨rfl, rfl⟩ := ih
      exact he
  | lock _ hl ih => cases hl; exact ih
  | unlock _ hl ih => cases hl; exact ih

theorem Methods.torn_implements (pre : Op → σ → Prop) (apply : Op → σ → Option (ρ × σ)) :
    (Methods.torn apply).Implements pre apply := by
  intro op s l r t _ ha hr
  have hs := Methods.torn_since ha
  rw [show l = Torn.finished r from hr] at hs
  exact hs

/-- Two threads call such methods. The second waits while the first is inside, has
taken the mutex again and has left the object as bad as one likes; then it enters. -/
theorem Monitor.torn_pair [DecidableEq T] {pre : Op → σ → Prop} {apply : Op → σ → Option (ρ × σ)}
    (init : σ → Prop) {st : State (Methods.torn apply) T} {t u : T} (hne : u ≠ t)
    {op op' : Op} {r r' : ρ} {s s' : σ} (ht : st.phase t = .idle) (hu : st.phase u = .idle)
    (hm : st.mutex = .free) (hpre : pre op st.object) (ha : apply op st.object = some (r, s))
    (hpre' : pre op' s) (ha' : apply op' s = some (r', s')) (bad : σ) :
    ∃ moves mid l moves' st', (system (Methods.torn apply) pre init T).Run st moves mid ∧
      mid.mutex = .held t 1 ∧ mid.object = bad ∧ mid.phase t = .running op l ∧
      mid.phase u = .waiting op' ∧ (system (Methods.torn apply) pre init T).Run mid moves' st' ∧
      st'.mutex = .free ∧ st'.object = s' ∧
      st'.returned = st.returned ++ [(t, op, r), (u, op', r')] := by
  have hlock : ∀ n, (RecursiveMutex.held t n).lock t = some (.held t (n + 1)) := fun n => by
    rw [RecursiveMutex.lock, if_pos rfl]
  have hunlock : ∀ v : T, (RecursiveMutex.held v 0).unlock v = some .free := fun v => by
    rw [RecursiveMutex.unlock, if_pos rfl]
  have hagain : (RecursiveMutex.held t 1).unlock t = some (.held t 0) := by
    rw [RecursiveMutex.unlock, if_pos rfl]
  have hself : ∀ {f : T → Phase (Methods.torn apply)} {p q},
      Function.update (Function.update f t p) u q t = p := by
    intro f p q
    rw [Function.update_of_ne hne.symm, Function.update_self]
  have hother : ∀ {f : T → Phase (Methods.torn apply)} {p}, Function.update f t p u = f u :=
    Function.update_of_ne hne _ _
  -- both call, the first goes in and makes a nested call
  refine ⟨_, _, _, _, _, .cons (.call op ht) (.cons
    (.call (t := u) op' (hother.trans hu)) (.cons
    (.enter (t := t) hself (by rw [hm]; rfl) hpre) (.cons
    (.access (Function.update_self ..) (.read op st.object bad)) (.cons
    (.lock (Function.update_self ..) (.again op st.object 0) (hlock 0)) (.nil _))))),
    rfl, rfl, Function.update_self .., ?_, .cons
    (.unlock (Function.update_self ..) (.again op st.object 0) hagain) (.cons
    (.access (Function.update_self ..) (.store ha)) (.cons
    (.leave (Function.update_self ..) rfl (hunlock t)) (.cons
    (.enter (t := u) ?_ rfl hpre') (.cons
    (.access (Function.update_self ..) (.read op' s bad)) (.cons
    (.access (Function.update_self ..) (.store ha')) (.cons
    (.leave (Function.update_self ..) rfl (hunlock u)) (.nil _))))))), rfl, rfl, ?_⟩
  · simp [Function.update_of_ne hne]
  · simp [Function.update_of_ne hne]
  · rw [List.append_assoc]; rfl

end Kinetic.Core
