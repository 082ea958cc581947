import Mathlib.Algebra.BigOperators.Group.Finset.Basic
import Mathlib.Algebra.Order.BigOperators.Group.List
import Mathlib.Algebra.Order.Ring.Nat

namespace Seyal.Program

/-! Sums over the entries of a list of which one changes. -/

variable {α ι : Type}

/-- The shares of all entries together. -/
def totalOf (share : α → Nat) (entries : List α) : Nat := (entries.map share).sum

variable {share other : α → Nat} {entries : List α} {index : Nat} {old : α}

@[simp] theorem totalOf_nil : totalOf share [] = 0 := rfl

@[simp] theorem totalOf_cons (entry : α) : totalOf share (entry :: entries) = share entry + totalOf share entries :=
  rfl

theorem totalOf_append_single (entry : α) :
    totalOf share (entries ++ [entry]) = totalOf share entries + share entry := by
  simp [totalOf]

theorem totalOf_set (share : α → Nat) (new : α) (found : entries[index]? = some old) :
    totalOf share (entries.set index new) + share old = totalOf share entries + share new := by
  induction entries generalizing index with
  | nil => cases found
  | cons entry rest ih =>
      cases index with
      | zero =>
          cases found
          simp only [List.set_cons_zero, totalOf_cons]
          omega
      | succ index =>
          have tail := ih found
          simp only [List.set_cons_succ, totalOf_cons]
          omega

theorem share_le_totalOf (share : α → Nat) (found : entries[index]? = some old) :
    share old ≤ totalOf share entries := by
  obtain ⟨before, after, rfl⟩ := List.append_of_mem (List.mem_of_getElem? found)
  simp only [totalOf, List.map_append, List.map_cons, List.sum_append, List.sum_cons]
  omega

theorem totalOf_congr (same : ∀ entry ∈ entries, share entry = other entry) :
    totalOf share entries = totalOf other entries := by
  rw [totalOf, totalOf, List.map_congr_left same]

theorem totalOf_filter {keep : α → Bool} :
    totalOf share (entries.filter keep) = totalOf (fun entry => if keep entry then share entry else 0) entries := by
  induction entries with
  | nil => rfl
  | cons entry rest ih =>
      by_cases kept : keep entry = true <;> simp [kept, ih]

theorem totalOf_add : totalOf (fun entry => share entry + other entry) entries =
    totalOf share entries + totalOf other entries := by
  induction entries with
  | nil => rfl
  | cons entry rest ih =>
      simp only [totalOf_cons, ih]
      omega

theorem sum_totalOf [Fintype ι] (shareOf : ι → α → Nat) (entries : List α) :
    ∑ owner, totalOf (shareOf owner) entries = totalOf (fun entry => ∑ owner, shareOf owner entry) entries := by
  induction entries with
  | nil => simp
  | cons entry rest ih => simp only [totalOf_cons, Finset.sum_add_distrib, ih]

end Seyal.Program
