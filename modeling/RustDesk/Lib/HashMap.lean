import Mathlib.Tactic
import Mathlib.Data.List.Basic

/-!
# Hash maps

A map with the order in which its entries are iterated. That order is not specified and may change
whenever the map does, so nothing but `reorder` says anything about it; what is iterated is each
entry, once.
-/

variable {K V : Type*}

/-- A map and an order of its keys. -/
structure HMap (K V : Type*) where
  get : K → Option V
  keys : List K
  mem_keys : ∀ k, k ∈ keys ↔ (get k).isSome
  nodup : keys.Nodup

namespace HMap

def empty : HMap K V where
  get _ := none
  keys := []
  mem_keys _ := by simp
  nodup := List.nodup_nil

/-- Every value changed by `f`, which sees its key. -/
def map (m : HMap K V) (f : K → V → V) : HMap K V where
  get k := (m.get k).map (f k)
  keys := m.keys
  mem_keys k := by simp [m.mem_keys]
  nodup := m.nodup

/-- The same entries in another order. -/
def reorder (m : HMap K V) (keys : List K) (h : keys.Perm m.keys) : HMap K V where
  get := m.get
  keys := keys
  mem_keys k := h.mem_iff.trans (m.mem_keys k)
  nodup := h.nodup_iff.mpr m.nodup

def len (m : HMap K V) : ℕ := m.keys.length

def values (m : HMap K V) : List V := m.keys.filterMap m.get

def isEmpty (m : HMap K V) : Bool := m.keys.isEmpty

variable {m : HMap K V} {k k' : K} {v : V} {p : K → V → Bool}

@[simp] lemma get_map {f : K → V → V} : (m.map f).get k = (m.get k).map (f k) := rfl

lemma mem_values : v ∈ m.values ↔ ∃ k, m.get k = some v := by
  unfold values
  rw [List.mem_filterMap]
  constructor
  · rintro ⟨k, -, h⟩
    exact ⟨k, h⟩
  · rintro ⟨k, h⟩
    exact ⟨k, (m.mem_keys k).mpr (by simp [h]), h⟩

lemma get_eq_none_of_isEmpty (h : m.isEmpty) (k : K) : m.get k = none := by
  have hkeys : m.keys = [] := List.isEmpty_iff.mp h
  have hk := m.mem_keys k
  rw [hkeys] at hk
  simpa using hk

section Keys

variable [DecidableEq K] {f : V → V}

def insert (m : HMap K V) (k : K) (v : V) : HMap K V where
  get := Function.update m.get k (some v)
  keys := if k ∈ m.keys then m.keys else k :: m.keys
  mem_keys k' := by
    rcases eq_or_ne k' k with rfl | hne
    · rw [Function.update_self]
      split_ifs with h <;> simp [h]
    · rw [Function.update_of_ne hne, ← m.mem_keys]
      split_ifs <;> simp [hne]
  nodup := by
    split_ifs with h
    · exact m.nodup
    · exact List.nodup_cons.mpr ⟨h, m.nodup⟩

def erase (m : HMap K V) (k : K) : HMap K V where
  get := Function.update m.get k none
  keys := m.keys.filter (· ≠ k)
  mem_keys k' := by
    rcases eq_or_ne k' k with rfl | hne
    · simp
    · simp [hne, m.mem_keys]
  nodup := m.nodup.filter _

/-- The value under `k`, if there is one, changed by `f`. -/
def modify (m : HMap K V) (k : K) (f : V → V) : HMap K V :=
  m.map fun k' v => if k' = k then f v else v

@[simp] lemma get_insert_self : (m.insert k v).get k = some v := Function.update_self ..

lemma get_insert_of_ne (h : k' ≠ k) : (m.insert k v).get k' = m.get k' :=
  Function.update_of_ne h ..

@[simp] lemma get_erase_self : (m.erase k).get k = none := Function.update_self ..

lemma get_erase_of_ne (h : k' ≠ k) : (m.erase k).get k' = m.get k' := Function.update_of_ne h ..

@[simp] lemma get_modify_self : (m.modify k f).get k = (m.get k).map f := by
  simp [modify]

lemma get_modify_of_ne (h : k' ≠ k) : (m.modify k f).get k' = m.get k' := by
  simp [modify, h]

end Keys

end HMap
