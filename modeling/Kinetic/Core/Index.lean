import Kinetic.Core.Dict

/-!
# A map and its index

A map whose values carry a name, and a second map from the names back to the
keys. `Linked live m b`: the index `b` has the names of the entries of `m` under
the live keys, and no others. With every key live the two are inverse to each
other (`linked_iff`); a loop over `m` that takes the names out of `b` one by one,
while entries of both may be erased, keeps them linked for the keys it has yet to
visit.
-/
namespace Kinetic.Core

variable {κ ι α : Type} [DecidableEq κ] [DecidableEq ι]

structure Linked (live : κ → Prop) (m : Dict κ (α × ι)) (b : Dict ι κ) : Prop where
  back : ∀ i k, b.find i = some k → live k ∧ ∃ a, m.find k = some (a, i)
  forth : ∀ k a i, m.find k = some (a, i) → live k → b.find i = some k

variable {live : κ → Prop} {m : Dict κ (α × ι)} {b : Dict ι κ} {k : κ} {a : α} {i : ι}

theorem linked_iff : Linked (fun _ => True) m b ↔
    ∀ k i, (∃ a, m.find k = some (a, i)) ↔ b.find i = some k := by
  constructor
  · rintro ⟨hb, hf⟩ k i
    exact ⟨fun ⟨a, hm⟩ => hf k a i hm trivial, fun hi => (hb i k hi).2⟩
  · intro h
    exact ⟨fun i k hi => ⟨trivial, (h k i).2 hi⟩, fun k a i hm _ => (h k i).1 ⟨a, hm⟩⟩

namespace Linked

theorem name_ne (h : Linked live m b) (hm : m.find k = some (a, i)) {j : ι} {k' : κ} (hj : j ≠ i)
    (hb : b.find j = some k') : k' ≠ k := by
  rintro rfl
  obtain ⟨-, a', hm'⟩ := h.back j k' hb
  obtain ⟨-, rfl⟩ := Prod.mk.inj (Option.some.inj (hm.symm.trans hm'))
  exact hj rfl

theorem erase (h : Linked live m b) (hm : m.find k = some (a, i)) (hk : live k) :
    Linked live (m.erase k) (b.erase i) := by
  have hi := h.forth k a i hm hk
  constructor
  · intro j k' hb
    rw [Dict.find_erase] at hb
    split at hb
    · cases hb
    rename_i hj
    obtain ⟨hk', a', hm'⟩ := h.back j k' hb
    exact ⟨hk', a', by rw [Dict.find_erase, if_neg (h.name_ne hm hj hb), hm']⟩
  · intro k' a' j hm' hk'
    rw [Dict.find_erase] at hm'
    split at hm'
    · cases hm'
    rename_i hne
    have hb := h.forth k' a' j hm' hk'
    rw [Dict.find_erase, if_neg, hb]
    rintro rfl
    exact hne (Option.some.inj (hb.symm.trans hi))

theorem insert (h : Linked (fun _ => True) m b) (hm : m.find k = none) (hb : b.find i = none)
    (a : α) : Linked (fun _ => True) (AList.insert k (a, i) m) (AList.insert i k b) := by
  constructor
  · intro j k' hj
    refine ⟨trivial, ?_⟩
    rw [Dict.find_insert] at hj
    split at hj
    · rename_i hij
      obtain rfl := Option.some.inj hj
      exact ⟨a, by rw [Dict.find_insert, if_pos rfl, hij]⟩
    · obtain ⟨-, a', hm'⟩ := h.back j k' hj
      refine ⟨a', ?_⟩
      rw [Dict.find_insert, if_neg, hm']
      rintro rfl
      rw [hm] at hm'
      cases hm'
  · intro k' a' j hm' _
    rw [Dict.find_insert] at hm'
    split at hm'
    · rename_i hk
      obtain ⟨-, rfl⟩ := Prod.mk.inj (Option.some.inj hm')
      rw [Dict.find_insert, if_pos rfl, hk]
    · have hj := h.forth k' a' j hm' trivial
      rw [Dict.find_insert, if_neg, hj]
      rintro rfl
      rw [hb] at hj
      cases hj

/-! ## A loop over the map -/

theorem start (h : Linked (fun _ => True) m b) : Linked (· ∈ m.keys) m b := by
  refine ⟨fun i k hb => ?_, fun k a i hm _ => h.forth k a i hm trivial⟩
  obtain ⟨-, a, hm⟩ := h.back i k hb
  exact ⟨Dict.mem_keys_iff.2 ⟨_, hm⟩, a, hm⟩

theorem visit {ks : List κ} (h : Linked (· ∈ k :: ks) m b) (hn : k ∉ ks)
    (hm : m.find k = some (a, i)) : Linked (· ∈ ks) m (b.erase i) := by
  have hi := h.forth k a i hm List.mem_cons_self
  constructor
  · intro j k' hb
    rw [Dict.find_erase] at hb
    split at hb
    · cases hb
    rename_i hj
    obtain ⟨hk', a', hm'⟩ := h.back j k' hb
    exact ⟨(List.mem_cons.1 hk').resolve_left (h.name_ne hm hj hb), a', hm'⟩
  · intro k' a' j hm' hk'
    have hb := h.forth k' a' j hm' (List.mem_cons_of_mem _ hk')
    rw [Dict.find_erase, if_neg, hb]
    rintro rfl
    obtain rfl := Option.some.inj (hb.symm.trans hi)
    exact hn hk'

theorem skip {ks : List κ} (h : Linked (· ∈ k :: ks) m b) (hm : m.find k = none) :
    Linked (· ∈ ks) m b := by
  refine ⟨fun i k' hb => ?_, fun k' a i hm' hk' => h.forth k' a i hm' (List.mem_cons_of_mem _ hk')⟩
  obtain ⟨hk', a, hm'⟩ := h.back i k' hb
  refine ⟨(List.mem_cons.1 hk').resolve_left ?_, a, hm'⟩
  rintro rfl
  rw [hm] at hm'
  cases hm'

theorem finish (h : Linked (· ∈ ([] : List κ)) m b) :
    Linked (fun _ => True) (∅ : Dict κ (α × ι)) b := by
  refine ⟨fun i k hb => ?_, fun k a i hm => by cases hm⟩
  have := (h.back i k hb).1
  cases this

end Linked

theorem Dict.erase_insert {ν : Type} {m : Dict κ ν} (h : m.find k = none) (v : ν) :
    Dict.erase (AList.insert k v m) k = m := by
  have hk : k ∉ m := Dict.notMem_iff.2 h
  refine AList.ext ?_
  show (AList.insert k v m).entries.kerase k = m.entries
  rw [AList.entries_insert_of_notMem hk]
  exact List.kerase_cons_eq rfl

end Kinetic.Core
