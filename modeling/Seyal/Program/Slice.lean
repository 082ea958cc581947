import Mathlib.Algebra.Order.BigOperators.Group.List
import Mathlib.Algebra.Order.Ring.Nat

namespace Seyal.Program

/-! Slice operations on lists. The checked form of each is `none` where the
range leaves the list; lemmas describe the result position by position. -/

namespace Slice

variable {α : Type}

def subrange (items : List α) (first past : Nat) : List α :=
  (items.drop first).take (past - first)

def subrange? (items : List α) (first past : Nat) : Option (List α) :=
  if first ≤ past ∧ past ≤ items.length then some (subrange items first past) else none

/-- The items from `start` on replaced by as many new ones. -/
def overwritten (items : List α) (start : Nat) (next : List α) : List α :=
  items.take start ++ next ++ items.drop (start + next.length)

def overwrite? (items : List α) (start : Nat) (next : List α) : Option (List α) :=
  if start + next.length ≤ items.length then some (overwritten items start next) else none

section Checked

variable {items : List α} {first past target index : Nat}

theorem subrange?_eq (ordered : first ≤ past) (inside : past ≤ items.length) :
    subrange? items first past = some (subrange items first past) := if_pos ⟨ordered, inside⟩

theorem overwrite?_eq {start : Nat} {next : List α} (fits : start + next.length ≤ items.length) :
    overwrite? items start next = some (overwritten items start next) := if_pos fits

end Checked

section Positions

variable {items : List α} {first past target : Nat}

theorem length_subrange (inside : past ≤ items.length) :
    (subrange items first past).length = past - first := by
  simp only [subrange, List.length_take, List.length_drop]
  omega

theorem subrange_append_subrange {middle : Nat} (lower : first ≤ middle) (upper : middle ≤ past) :
    subrange items first middle ++ subrange items middle past = subrange items first past := by
  have split : past - first = (middle - first) + (past - middle) := by omega
  have next : items.drop middle = (items.drop first).drop (middle - first) := by
    rw [List.drop_drop]
    congr 1
    omega
  rw [subrange, subrange, subrange, split, List.take_add, next]

theorem getElem?_subrange (index : Nat) :
    (subrange items first past)[index]? =
      if first + index < past then items[first + index]? else none := by
  simp only [subrange, List.getElem?_take, List.getElem?_drop]
  split <;> split <;> first | rfl | omega

theorem mem_subrange {item : α} :
    item ∈ subrange items first past ↔
      ∃ index, first ≤ index ∧ index < past ∧ items[index]? = some item := by
  rw [List.mem_iff_getElem?]
  constructor
  · rintro ⟨offset, found⟩
    rw [getElem?_subrange] at found
    split at found
    · exact ⟨first + offset, by omega, by assumption, found⟩
    · contradiction
  · rintro ⟨index, lower, upper, found⟩
    refine ⟨index - first, ?_⟩
    rw [getElem?_subrange, show first + (index - first) = index by omega, if_pos upper]
    exact found

@[simp] theorem length_overwritten {start : Nat} {next : List α} (fits : start + next.length ≤ items.length) :
    (overwritten items start next).length = items.length := by
  simp only [overwritten, List.length_append, List.length_take, List.length_drop]
  omega

theorem getElem?_overwritten {start : Nat} {next : List α} (fits : start + next.length ≤ items.length)
    (index : Nat) :
    (overwritten items start next)[index]? =
      if start ≤ index ∧ index < start + next.length then next[index - start]? else items[index]? := by
  simp only [overwritten, List.getElem?_append, List.length_append, List.length_take, List.getElem?_take,
    List.getElem?_drop, Nat.min_eq_left (show start ≤ items.length by omega)]
  split
  · split
    · rw [if_neg (by omega)]
    · rw [if_pos (by omega)]
  · rw [if_neg (by omega)]
    congr 1
    omega

theorem overwritten_overwritten {start : Nat} {next more : List α} (fits : start + next.length ≤ items.length) :
    overwritten (overwritten items start next) (start + next.length) more =
      overwritten items start (next ++ more) := by
  have front : (items.take start ++ next).length = start + next.length := by
    simp only [List.length_append, List.length_take]
    omega
  have taken : (overwritten items start next).take (start + next.length) = items.take start ++ next := by
    rw [overwritten, List.take_left' front]
  have dropped : (overwritten items start next).drop (start + next.length + more.length) =
      items.drop (start + (next.length + more.length)) := by
    rw [overwritten, ← List.drop_drop, List.drop_left' front, List.drop_drop, Nat.add_assoc]
  rw [overwritten, taken, dropped, overwritten, List.length_append, List.append_assoc, List.append_assoc,
    List.append_assoc, List.append_assoc]

end Positions

end Slice

end Seyal.Program
