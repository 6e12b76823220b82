import Mathlib

/-! The ordered-map interface that bounded queues need: the least entry of a
tree map, and how erasing it shrinks the map. -/

namespace StogasVerifier.Lib
open Std

variable {K V : Type} [LinearOrder K]

def firstKeyValue (map : TreeMap K V compare) : Option (K × V) :=
  map.minKey?.bind fun key => map[key]?.map fun value => (key, value)

@[simp]
theorem lookup_insert (map : TreeMap K V compare) (key other : K) (value : V) :
    (map.insert key value)[other]? = if key = other then some value else map[other]? := by
  simp [TreeMap.getElem?_insert]

@[simp]
theorem lookup_erase (map : TreeMap K V compare) (key other : K) :
    (map.erase key)[other]? = if key = other then none else map[other]? := by
  simp [TreeMap.getElem?_erase]

variable {map : TreeMap K V compare}

theorem mem_of_lookup {key : K} {value : V} (found : map[key]? = some value) :
    key ∈ map :=
  TreeMap.getElem?_eq_some_iff.mp found |>.1

theorem size_erase_of_lookup {key : K} {value : V} (found : map[key]? = some value) : (map.erase key).size + 1 = map.size := by
  have present : map.contains key = true := TreeMap.contains_iff_mem.mpr (mem_of_lookup found)
  have nonempty : map.size ≠ 0 := by
    intro empty
    have none : map.isEmpty = true := by simp [TreeMap.isEmpty_eq_size_eq_zero, empty]
    simp [TreeMap.getElem?_of_isEmpty none] at found
  rw [TreeMap.size_erase, if_pos present]
  omega

theorem size_insert_of_absent {key : K} (value : V) (absent : map[key]? = none) : (map.insert key value).size = map.size + 1 := by
  have missing : ¬ key ∈ map := by
    intro present
    rw [TreeMap.getElem?_eq_some_getElem present] at absent
    cases absent
  simp [TreeMap.size_insert, missing]

theorem firstKeyValue_found {key : K} {value : V} (first : firstKeyValue map = some (key, value)) : map[key]? = some value := by
  simp only [firstKeyValue, Option.bind_eq_some_iff, Option.map_eq_some_iff, Prod.mk.injEq] at first
  obtain ⟨least, -, stored, found, rfl, rfl⟩ := first
  exact found

theorem firstKeyValue_least {key other : K} {value stored : V}
    (first : firstKeyValue map = some (key, value)) (found : map[other]? = some stored) : key ≤ other := by
  simp only [firstKeyValue, Option.bind_eq_some_iff, Option.map_eq_some_iff, Prod.mk.injEq] at first
  obtain ⟨least, minimal, -, -, rfl, -⟩ := first
  have below := (TreeMap.minKey?_eq_some_iff_mem_and_forall.mp minimal).2 other (mem_of_lookup found)
  exact compare_le_iff_le.mp (by simpa [Ordering.isLE_iff_ne_gt] using below)

theorem firstKeyValue_none (absent : firstKeyValue map = none) : map.size = 0 := by
  cases least : map.minKey? with
  | none =>
    have empty := TreeMap.minKey?_eq_none_iff.mp least
    simpa [TreeMap.isEmpty_eq_size_eq_zero] using empty
  | some key =>
    have present := (TreeMap.minKey?_eq_some_iff_mem_and_forall.mp least).1
    simp [firstKeyValue, least, TreeMap.getElem?_eq_some_getElem present] at absent

theorem lookup_eq_none_of_size (empty : map.size = 0) (key : K) : map[key]? = none := by
  apply TreeMap.getElem?_of_isEmpty
  simp [TreeMap.isEmpty_eq_size_eq_zero, empty]

end StogasVerifier.Lib
