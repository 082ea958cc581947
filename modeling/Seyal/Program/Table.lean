import Mathlib.Algebra.Order.BigOperators.Group.List
import Mathlib.Algebra.Order.Ring.Nat
import Mathlib.Data.List.AList

namespace Seyal.Program

/-! Finite maps, and the values they hold under some key. -/

abbrev Mapping (κ ν : Type) := AList fun _ : κ => ν

namespace Mapping

variable {κ ν : Type} [DecidableEq κ] {map : Mapping κ ν} {key other : κ} {value : ν} {holds : ν → Prop}

@[grind =] theorem lookup_insert_ite :
    (map.insert key value).lookup other = if other = key then some value else map.lookup other := by
  split
  next same => rw [same, AList.lookup_insert]
  next different => rw [AList.lookup_insert_ne different]

/-- Some value meets the condition: `map.values().any(..)`. -/
def anyValue (map : Mapping κ ν) (meets : ν → Bool) : Bool := map.entries.any fun entry => meets entry.2

theorem anyValue_eq_true {meets : ν → Bool} :
    anyValue map meets = true ↔ ∃ key value, map.lookup key = some value ∧ meets value = true := by
  unfold anyValue
  rw [List.any_eq_true]
  constructor
  · rintro ⟨⟨key, value⟩, member, found⟩
    exact ⟨key, value, AList.mem_lookup_iff.mpr member, found⟩
  · rintro ⟨key, value, member, found⟩
    exact ⟨⟨key, value⟩, AList.mem_lookup_iff.mp member, found⟩

/-- `map.retain(|_, value| keep(value))`. -/
def retainValues (map : Mapping κ ν) (keep : ν → Bool) : Mapping κ ν where
  entries := map.entries.filter fun entry => keep entry.2
  nodupKeys := map.nodupKeys.sublist List.filter_sublist

theorem lookup_retainValues {keep : ν → Bool} :
    (retainValues map keep).lookup key = some value ↔ map.lookup key = some value ∧ keep value = true := by
  change value ∈ (retainValues map keep).lookup key ↔ value ∈ map.lookup key ∧ _
  rw [AList.mem_lookup_iff, AList.mem_lookup_iff]
  exact List.mem_filter

/-- The weights of all values together. -/
def total (weigh : ν → Nat) (map : Mapping κ ν) : Nat := (map.entries.map fun entry => weigh entry.2).sum

theorem total_erase (weigh : ν → Nat) (map : Mapping κ ν) (key : κ) :
    total weigh (map.erase key) + ((map.lookup key).map weigh).getD 0 = total weigh map := by
  cases found : map.lookup key with
  | none =>
      have absent : key ∉ map.entries.keys := AList.lookup_eq_none.mp found
      have left : (map.erase key).entries = map.entries := List.kerase_of_notMem_keys absent
      simp only [total, left, Option.map_none, Option.getD_none, Nat.add_zero]
  | some value =>
      have present : key ∈ map.entries.keys := AList.lookup_isSome.mp (found ▸ rfl)
      obtain ⟨other, before, after, fresh, entries, erased⟩ := List.exists_of_kerase present
      have same : other = value := by
        have here : (⟨key, other⟩ : Sigma fun _ : κ => ν) ∈ map.entries := by simp [entries]
        exact Option.some.inj ((AList.mem_lookup_iff.mpr here).symm.trans found)
      have left : (map.erase key).entries = before ++ after := erased
      simp only [total, left, entries, List.map_append, List.sum_append, List.map_cons, List.sum_cons, same,
        Option.map_some, Option.getD_some]
      omega

theorem total_insert (weigh : ν → Nat) (map : Mapping κ ν) (key : κ) (value : ν) :
    total weigh (map.insert key value) + ((map.lookup key).map weigh).getD 0 = total weigh map + weigh value := by
  have split : total weigh (map.insert key value) = weigh value + total weigh (map.erase key) := rfl
  have rest := total_erase weigh map key
  omega

end Mapping

end Seyal.Program
