import Mathlib.Data.List.AList

/-!
# Unordered maps

`std::unordered_map` as Mathlib's association lists with distinct keys. The
C++ `insert` leaves an existing entry alone and says so, unlike
`AList.insert`; `erase` of an absent key does nothing. Iteration visits
`entries`, in an order the standard leaves open.
-/
namespace Kinetic.Core

/-- A finite map from `κ` to `ν`. -/
abbrev Dict (κ ν : Type) := AList (fun _ : κ => ν)

namespace Dict

variable {κ ν : Type} [DecidableEq κ]

/-- `m.find(k)`, `none` being `m.end()`. -/
def find (m : Dict κ ν) (k : κ) : Option ν := AList.lookup k m

/-- `m.erase(k)` -/
def erase (m : Dict κ ν) (k : κ) : Dict κ ν := AList.erase k m

/-- `m.insert(make_pair(k, v))`: the second component of its result (whether
the pair was inserted) and the map. -/
def insertNew (m : Dict κ ν) (k : κ) (v : ν) : Bool × Dict κ ν :=
  if k ∈ m then (false, m) else (true, AList.insert k v m)

omit [DecidableEq κ] in
/-- The values, in iteration order. -/
def values (m : Dict κ ν) : List ν := m.entries.map Sigma.snd

omit [DecidableEq κ] in
theorem isEmpty_iff (m : Dict κ ν) : m.entries.isEmpty = true ↔ m = ∅ := by
  rw [List.isEmpty_iff]
  exact ⟨fun h => AList.ext h, fun h => h ▸ rfl⟩

/-- `m.empty()`, which needs no comparison of values. -/
instance (m : Dict κ ν) : Decidable (m = ∅) := decidable_of_iff _ (isEmpty_iff m)

variable {m : Dict κ ν} {k k' : κ} {v v' : ν}

theorem mem_iff : k ∈ m ↔ ∃ v, m.find k = some v := by
  rw [← AList.lookup_isSome, Option.isSome_iff_exists]; rfl

theorem notMem_iff : k ∉ m ↔ m.find k = none := AList.lookup_eq_none.symm

theorem insertNew_present (h : m.find k = some v) (v' : ν) : m.insertNew k v' = (false, m) := by
  rw [insertNew, if_pos (mem_iff.2 ⟨v, h⟩)]

theorem insertNew_absent (h : m.find k = none) (v : ν) :
    m.insertNew k v = (true, AList.insert k v m) := by
  rw [insertNew, if_neg (notMem_iff.2 h)]

theorem values_insert (h : m.find k = none) (v : ν) :
    values (AList.insert k v m) = v :: values m := by
  rw [values, AList.entries_insert_of_notMem (notMem_iff.2 h)]; rfl

theorem find_some_iff : m.find k = some v ↔ (⟨k, v⟩ : Sigma fun _ : κ => ν) ∈ m.entries :=
  AList.mem_lookup_iff

theorem values_erase (h : m.find k = some v) :
    ∃ l₁ l₂, values m = l₁ ++ v :: l₂ ∧ values (m.erase k) = l₁ ++ l₂ := by
  have hk : k ∈ m.entries.keys := mem_iff.2 ⟨v, h⟩
  obtain ⟨b, l₁, l₂, -, he, hr⟩ := List.exists_of_kerase hk
  have hb : m.find k = some b := find_some_iff.2 (by rw [he]; simp)
  obtain rfl : v = b := Option.some.inj (h.symm.trans hb)
  refine ⟨l₁.map Sigma.snd, l₂.map Sigma.snd, by simp [values, he], ?_⟩
  show (m.entries.kerase k).map Sigma.snd = _
  rw [hr, List.map_append]

theorem mem_values_iff : v ∈ values m ↔ ∃ k, m.find k = some v := by
  simp only [values, List.mem_map]
  constructor
  · rintro ⟨⟨k, w⟩, he, rfl⟩
    exact ⟨k, find_some_iff.2 he⟩
  · rintro ⟨k, h⟩
    exact ⟨⟨k, v⟩, find_some_iff.1 h, rfl⟩

omit [DecidableEq κ] in
@[simp] theorem values_empty : values (∅ : Dict κ ν) = [] := rfl

@[simp] theorem find_empty (k : κ) : (∅ : Dict κ ν).find k = none := rfl

theorem find_erase (k k' : κ) (m : Dict κ ν) :
    (m.erase k).find k' = if k' = k then none else m.find k' := by
  split
  · rename_i h; subst h; exact AList.lookup_erase ..
  · rename_i h; exact AList.lookup_erase_ne h

theorem find_insert (k k' : κ) (v : ν) (m : Dict κ ν) :
    find (AList.insert k v m) k' = if k' = k then some v else m.find k' := by
  split
  · rename_i h; subst h; exact AList.lookup_insert ..
  · rename_i h; exact AList.lookup_insert_ne h

theorem eq_empty_iff : m = ∅ ↔ ∀ k, m.find k = none := by
  constructor
  · rintro rfl k; rfl
  · intro h
    have he : m.entries = [] := by
      rw [List.eq_nil_iff_forall_not_mem]
      rintro ⟨k, v⟩ hm
      have := find_some_iff.2 hm
      rw [h k] at this; cases this
    exact AList.ext he

theorem mem_keys_iff : k ∈ m.keys ↔ ∃ v, m.find k = some v := mem_iff

end Dict
end Kinetic.Core
