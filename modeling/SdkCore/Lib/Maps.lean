import Mathlib.Data.List.AList

/-!
# Finite maps

Operations of hash maps on Mathlib's association lists, each with what a lookup finds afterwards.
-/

namespace SdkCore.Maps

variable {κ ν : Type} [DecidableEq κ]

abbrev Map (κ ν : Type) [DecidableEq κ] := AList fun _ : κ => ν

/-- Keep the entries that satisfy `p`. -/
def retain (p : κ → ν → Bool) (m : Map κ ν) : Map κ ν where
  entries := m.entries.filter fun e => p e.1 e.2
  nodupKeys := m.nodupKeys.sublist List.filter_sublist

def mapValues (f : κ → ν → ν) (m : Map κ ν) : Map κ ν where
  entries := m.entries.map fun e => ⟨e.1, f e.1 e.2⟩
  nodupKeys := by
    have h := m.nodupKeys
    simp only [List.NodupKeys, List.keys, List.map_map] at h ⊢
    exact h

def values (m : Map κ ν) : List ν := m.entries.map (·.2)

theorem lookup_insert_ite (m : Map κ ν) (k k' : κ) (v : ν) :
    (m.insert k v).lookup k' = if k' = k then some v else m.lookup k' := by
  split
  · next h => rw [h, AList.lookup_insert]
  · next h => rw [AList.lookup_insert_ne h]

theorem lookup_erase_ite (m : Map κ ν) (k k' : κ) :
    (m.erase k).lookup k' = if k' = k then none else m.lookup k' := by
  split
  · next h => rw [h, AList.lookup_erase]
  · next h => rw [AList.lookup_erase_ne h]

variable {m : Map κ ν} {k : κ} {v : ν}

theorem lookup_of_erase {k' : κ} (h : (m.erase k).lookup k' = some v) : k' ≠ k ∧ m.lookup k' = some v := by
  rw [lookup_erase_ite] at h
  split at h
  · cases h
  · next hne => exact ⟨hne, h⟩

theorem ne_of_lookup {k' : κ} (h : m.lookup k = none) (h' : m.lookup k' = some v) : k ≠ k' := by
  rintro rfl
  simp [h] at h'

theorem lookup_eq_some_iff : m.lookup k = some v ↔ (⟨k, v⟩ : Sigma fun _ : κ => ν) ∈ m.entries :=
  AList.mem_lookup_iff

theorem mem_values : v ∈ values m ↔ ∃ k, m.lookup k = some v := by
  simp only [values, List.mem_map, lookup_eq_some_iff]
  constructor
  · rintro ⟨⟨k, v'⟩, h, rfl⟩
    exact ⟨k, h⟩
  · rintro ⟨k, h⟩
    exact ⟨_, h, rfl⟩

theorem isEmpty_iff : m.entries.isEmpty = true ↔ ∀ k, m.lookup k = none := by
  rw [List.isEmpty_iff, List.eq_nil_iff_forall_not_mem]
  constructor
  · intro h k
    by_contra hc
    obtain ⟨v, hv⟩ := Option.ne_none_iff_exists'.mp hc
    exact h _ (lookup_eq_some_iff.mp hv)
  · rintro h ⟨k, v⟩ hmem
    rw [← lookup_eq_some_iff, h k] at hmem
    cases hmem

theorem exists_of_not_isEmpty (h : ¬ m.entries.isEmpty = true) : ∃ k, (m.lookup k).isSome := by
  rw [isEmpty_iff] at h
  simpa [Option.isSome_iff_ne_none] using h

theorem lookup_erase_none (h : ∀ k, m.lookup k = none) (k k' : κ) : (m.erase k).lookup k' = none := by
  rw [lookup_erase_ite, h, ite_self]

theorem all_values_iff {p : ν → Bool} : (values m).all p = true ↔ ∀ k v, m.lookup k = some v → p v = true := by
  rw [List.all_eq_true]
  constructor
  · exact fun h k v hv => h v (mem_values.mpr ⟨k, hv⟩)
  · intro h v hv
    obtain ⟨k, hk⟩ := mem_values.mp hv
    exact h k v hk

theorem lookup_retain (p : κ → ν → Bool) (m : Map κ ν) (k : κ) :
    (retain p m).lookup k = (m.lookup k).filter (p k) := by
  apply Option.ext
  intro v
  simp only [Option.filter_eq_some_iff, lookup_eq_some_iff, retain, List.mem_filter]

theorem lookup_mapValues (f : κ → ν → ν) (m : Map κ ν) (k : κ) :
    (mapValues f m).lookup k = (m.lookup k).map (f k) := by
  apply Option.ext
  intro v
  simp only [Option.map_eq_some_iff, lookup_eq_some_iff, mapValues, List.mem_map, Sigma.mk.injEq]
  constructor
  · rintro ⟨⟨k', v'⟩, h, rfl, h'⟩
    exact ⟨v', h, eq_of_heq h'⟩
  · rintro ⟨v', h, rfl⟩
    exact ⟨⟨k, v'⟩, h, rfl, HEq.rfl⟩

end SdkCore.Maps
