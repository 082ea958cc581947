import Seyal.Program.Slice

namespace Seyal.Program

open Slice

/-! A string kept in pieces of one size, of which only the last may be shorter. -/

variable {α : Type} {size : Nat}

inductive Segmented (size : Nat) : List (List α) → Prop where
  | none : Segmented size []
  | last {piece : List α} (nonempty : piece ≠ []) (short : piece.length ≤ size) : Segmented size [piece]
  | full {piece : List α} {pieces : List (List α)} (length : piece.length = size) (rest : Segmented size pieces) :
      Segmented size (piece :: pieces)

def spill (size : Nat) (items : List α) : List (List α) :=
  if items = [] ∨ size = 0 then [] else items.take size :: spill size (items.drop size)
termination_by items.length
decreasing_by
  rename_i cut
  obtain ⟨some, positive⟩ := not_or.mp cut
  have long := List.length_pos_iff.mpr some
  rw [List.length_drop]
  omega

theorem spill_nil : spill size ([] : List α) = [] := by rw [spill, if_pos (.inl rfl)]

theorem spill_of_ne (positive : 0 < size) {items : List α} (some : items ≠ []) :
    spill size items = items.take size :: spill size (items.drop size) := by
  rw [spill, if_neg (not_or.mpr ⟨some, by omega⟩)]

theorem flatten_spill (positive : 0 < size) (items : List α) : (spill size items).flatten = items := by
  induction length : items.length using Nat.strong_induction_on generalizing items with
  | _ count ih =>
      by_cases empty : items = []
      · rw [empty, spill_nil]
        rfl
      · have long := List.length_pos_iff.mpr empty
        rw [spill_of_ne positive empty, List.flatten_cons,
          ih (items.drop size).length (by rw [List.length_drop]; omega) _ rfl, List.take_append_drop]

theorem segmented_spill (positive : 0 < size) (items : List α) : Segmented size (spill size items) := by
  induction length : items.length using Nat.strong_induction_on generalizing items with
  | _ count ih =>
      by_cases empty : items = []
      · rw [empty, spill_nil]
        exact .none
      · have long := List.length_pos_iff.mpr empty
        rw [spill_of_ne positive empty]
        by_cases more : items.length ≤ size
        · rw [List.drop_of_length_le more, spill_nil, List.take_of_length_le more]
          exact .last empty more
        · refine .full (by rw [List.length_take]; omega) ?_
          exact ih (items.drop size).length (by rw [List.length_drop]; omega) _ rfl

theorem length_le_spill (positive : 0 < size) (items : List α) : items.length ≤ (spill size items).length * size := by
  induction length : items.length using Nat.strong_induction_on generalizing items with
  | _ count ih =>
      by_cases empty : items = []
      · simp [← length, empty]
      · have long := List.length_pos_iff.mpr empty
        have rest := ih (items.drop size).length (by rw [List.length_drop]; omega) _ rfl
        rw [spill_of_ne positive empty, List.length_cons, Nat.add_mul, Nat.one_mul]
        rw [List.length_drop] at rest
        omega

namespace Segmented

variable {pieces front : List (List α)} {piece : List α}

theorem append (full : ∀ piece ∈ front, piece.length = size) (rest : Segmented size pieces) :
    Segmented size (front ++ pieces) := by
  induction front with
  | nil => exact rest
  | cons piece front ih =>
      exact .full (full piece List.mem_cons_self) (ih (List.forall_mem_cons.mp full).2)

theorem uncons {next : List α} (segmented : Segmented size (piece :: next :: pieces)) :
    piece.length = size ∧ Segmented size (next :: pieces) := by
  cases segmented with
  | full length rest => exact ⟨length, rest⟩

theorem front_full (segmented : Segmented size (front ++ [piece])) : ∀ piece ∈ front, piece.length = size := by
  induction front with
  | nil => exact List.forall_mem_nil _
  | cons first front ih =>
      obtain ⟨next, others, whole⟩ : ∃ next others, front ++ [piece] = next :: others :=
        List.exists_cons_of_ne_nil (by simp)
      rw [List.cons_append, whole] at segmented
      obtain ⟨length, rest⟩ := segmented.uncons
      rw [← whole] at rest
      intro other member
      rcases List.mem_cons.mp member with rfl | later
      · exact length
      · exact ih rest other later

theorem dropLast_full (segmented : Segmented size pieces) : ∀ piece ∈ pieces.dropLast, piece.length = size := by
  rcases List.eq_nil_or_concat pieces with rfl | ⟨front, piece, rfl⟩
  · exact List.forall_mem_nil _
  · rw [List.concat_eq_append] at segmented ⊢
    rw [List.dropLast_concat]
    exact segmented.front_full

theorem length_le (segmented : Segmented size pieces) : ∀ piece ∈ pieces, piece.length ≤ size := by
  induction segmented with
  | none => exact List.forall_mem_nil _
  | last nonempty short => exact fun other member => List.mem_singleton.mp member ▸ short
  | full length rest ih =>
      intro other member
      rcases List.mem_cons.mp member with rfl | later
      · exact Nat.le_of_eq length
      · exact ih other later

theorem length_le_flatten (segmented : Segmented size pieces) : pieces.length * size ≤ pieces.flatten.length + size := by
  induction segmented with
  | none => simp
  | last nonempty short => simp
  | @full first pieces length rest ih =>
      rw [List.flatten_cons, List.length_append, List.length_cons, Nat.add_mul, Nat.one_mul]
      omega

theorem piece_eq (segmented : Segmented size pieces) {index : Nat} (found : pieces[index]? = some piece) :
    piece = subrange pieces.flatten (index * size) (index * size + size) := by
  induction segmented generalizing index with
  | none => cases found
  | last nonempty short =>
      cases index with
      | zero =>
          cases found
          simp [subrange, List.take_of_length_le short]
      | succ index => cases found
  | @full first pieces length rest ih =>
      cases index with
      | zero =>
          cases found
          simp [subrange, ← length]
      | succ index =>
          have here := ih found
          rw [here, subrange, subrange, List.flatten_cons, Nat.add_mul, Nat.one_mul, Nat.add_comm (index * size),
            ← List.drop_drop, List.drop_left' length]
          congr 1
          omega

theorem exists_piece (segmented : Segmented size pieces) {index : Nat} (inside : index * size < pieces.flatten.length) :
    ∃ piece, pieces[index]? = some piece := by
  induction segmented generalizing index with
  | none => cases inside
  | @last piece nonempty short =>
      cases index with
      | zero => exact ⟨piece, rfl⟩
      | succ index =>
          rw [List.flatten_singleton, Nat.add_mul, Nat.one_mul] at inside
          omega
  | @full first pieces length rest ih =>
      cases index with
      | zero => exact ⟨first, rfl⟩
      | succ index =>
          rw [List.flatten_cons, List.length_append, Nat.add_mul, Nat.one_mul] at inside
          exact ih (by omega)

theorem length_flatten (full : ∀ piece ∈ pieces, piece.length = size) : pieces.flatten.length = pieces.length * size := by
  induction pieces with
  | nil => simp
  | cons piece pieces ih =>
      rw [List.flatten_cons, List.length_append, full piece List.mem_cons_self,
        ih (List.forall_mem_cons.mp full).2, List.length_cons, Nat.add_mul, Nat.one_mul,
        Nat.add_comm]

end Segmented

end Seyal.Program
