import Mathlib.Algebra.Order.BigOperators.Group.List
import Mathlib.Algebra.Order.Ring.Nat
import Mathlib.Data.List.Infix

namespace Seyal.Program

/-! Deleting tokens from a word in one pass from the left, and what the bytes
left over can spell. -/

variable {α : Type} {tokens : List (List α)} {input output word piece front rest left right : List α}

inductive Gap (tokens : List (List α)) : List α → Prop
  | nil : Gap tokens []
  | token {token rest : List α} : token ∈ tokens → Gap tokens rest → Gap tokens (token ++ rest)

/-- The letters of a word in order, with tokens between them. -/
inductive Spread (tokens : List (List α)) : List α → List α → Prop
  | letter (letter : α) : Spread tokens [letter] [letter]
  | cons {gap word piece : List α} (letter : α) :
      Gap tokens gap → Spread tokens word piece → Spread tokens (letter :: word) (letter :: (gap ++ piece))

/-- The pass: a token in front of the rest is deleted, any other letter is kept. -/
inductive Stripped (tokens : List (List α)) : List α → List α → Prop
  | nil : Stripped tokens [] []
  | token {token rest output : List α} :
      token ∈ tokens → Stripped tokens rest output → Stripped tokens (token ++ rest) output
  | keep {rest output : List α} (letter : α) :
      (∀ token ∈ tokens, ¬ token <+: letter :: rest) → Stripped tokens rest output →
      Stripped tokens (letter :: rest) (letter :: output)

theorem Spread.sublist (spread : Spread tokens word piece) : word.Sublist piece := by
  induction spread with
  | letter => exact List.Sublist.refl _
  | cons letter _ _ ih => exact (ih.trans (List.sublist_append_right _ _)).cons_cons letter

theorem Spread.letter_inv {letter : α} (spread : Spread tokens [letter] piece) : piece = [letter] := by
  cases spread with
  | letter => rfl
  | cons _ _ inner => cases inner

namespace Stripped

theorem next {letter : α} (stripped : Stripped tokens input (letter :: output)) :
    ∃ gap rest, input = gap ++ letter :: rest ∧ Gap tokens gap ∧
      (∀ token ∈ tokens, ¬ token <+: letter :: rest) ∧ Stripped tokens rest output := by
  generalize whole : letter :: output = left at stripped
  induction stripped with
  | nil => cases whole
  | token member _ ih =>
      obtain ⟨gap, rest, rfl, gapped, kept, stripped⟩ := ih whole
      exact ⟨_ ++ gap, rest, by rw [List.append_assoc], .token member gapped, kept, stripped⟩
  | keep letter kept stripped =>
      obtain ⟨rfl, rfl⟩ := List.cons.inj whole
      exact ⟨[], _, rfl, .nil, kept, stripped⟩

theorem skip (stripped : Stripped tokens input (front ++ output)) :
    ∃ before rest, input = before ++ rest ∧ Stripped tokens rest output := by
  induction front generalizing input with
  | nil => exact ⟨[], input, rfl, stripped⟩
  | cons letter front ih =>
      obtain ⟨gap, rest, rfl, -, -, stripped⟩ := next stripped
      obtain ⟨before, behind, rfl, remaining⟩ := ih stripped
      exact ⟨gap ++ letter :: before, behind, by simp, remaining⟩

theorem spread {letter : α} (stripped : Stripped tokens input (letter :: word ++ output)) :
    ∃ gap piece rest, input = gap ++ (piece ++ rest) ∧ Gap tokens gap ∧
      Spread tokens (letter :: word) piece ∧ ∀ token ∈ tokens, ¬ token <+: piece ++ rest := by
  induction word generalizing input letter with
  | nil =>
      obtain ⟨gap, rest, rfl, gapped, kept, _⟩ := next stripped
      exact ⟨gap, [letter], rest, rfl, gapped, .letter letter, kept⟩
  | cons second word ih =>
      obtain ⟨gap, behind, rfl, gapped, kept, stripped⟩ := next stripped
      obtain ⟨between, piece, rest, rfl, betweenGapped, spread, -⟩ := ih stripped
      refine ⟨gap, letter :: (between ++ piece), rest, by simp, gapped, .cons letter betweenGapped spread, ?_⟩
      simpa only [List.cons_append, List.append_assoc] using kept

/-- What the output spells was spread over a piece of the input. A token that it
spells had been broken up there. -/
theorem infix_output (stripped : Stripped tokens input output) (nonempty : word ≠ []) (found : word <:+: output) :
    ∃ piece, piece <:+: input ∧ Spread tokens word piece ∧ (word ∈ tokens → piece ≠ word) := by
  obtain ⟨front, behind, rfl⟩ := found
  rw [List.append_assoc] at stripped
  obtain ⟨before, rest, rfl, remaining⟩ := skip stripped
  obtain ⟨letter, tail, rfl⟩ := List.exists_cons_of_ne_nil nonempty
  obtain ⟨gap, piece, rest, rfl, -, spread, kept⟩ := spread remaining
  refine ⟨piece, ⟨before ++ gap, rest, by simp⟩, spread, ?_⟩
  rintro member rfl
  exact kept _ member (List.prefix_append _ _)

theorem letter_not_mem {letter : α} (stripped : Stripped tokens input output) (member : [letter] ∈ tokens) :
    letter ∉ output := by
  intro found
  obtain ⟨front, behind, rfl⟩ := List.append_of_mem found
  obtain ⟨piece, -, spread, broken⟩ :=
    stripped.infix_output (List.cons_ne_nil letter []) ⟨front, behind, by simp⟩
  exact broken member spread.letter_inv

end Stripped

/-! Words whose first letter occurs in them only once. Two of them never overlap. -/

def Headed (head : α) (word : List α) : Prop := ∃ tail, word = head :: tail ∧ head ∉ tail

namespace Headed

variable {head : α}

theorem front_eq_nil (headed : Headed head (front ++ head :: rest)) : front = [] := by
  obtain ⟨tail, whole, once⟩ := headed
  cases front with
  | nil => rfl
  | cons first front =>
      obtain ⟨_, rfl⟩ := List.cons.inj whole
      exact absurd (List.mem_append_right front List.mem_cons_self) once

/-- A word found across a seam lies on one side of it, when the right side
begins with the first letter of the word. -/
theorem found_beside (headed : Headed head word) (begins : right.head? = some head)
    (found : left ++ right = front ++ (word ++ rest)) :
    (∃ between, left = front ++ (word ++ between)) ∨
      ∃ between, front = left ++ between ∧ right = between ++ (word ++ rest) := by
  obtain ⟨between, rfl, rfl⟩ | ⟨between, rfl, split⟩ := List.append_eq_append_iff.mp found
  · exact .inr ⟨between, rfl, rfl⟩
  obtain ⟨more, rfl, _⟩ | ⟨more, rfl, rfl⟩ := List.append_eq_append_iff.mp split
  · exact .inl ⟨more, rfl⟩
  -- The word reaches over the seam. Its part on the right begins with its head.
  cases more with
  | nil => exact .inl ⟨[], by simp⟩
  | cons first more =>
      obtain rfl : first = head := by simpa using begins
      obtain rfl := headed.front_eq_nil
      exact .inr ⟨[], by simp, rfl⟩

theorem found_behind (headed : Headed head left) (word_headed : Headed head word)
    (found : left ++ right = front ++ (word ++ rest)) :
    front = [] ∨ ∃ between, right = between ++ (word ++ rest) := by
  obtain ⟨between, rfl, rfl⟩ | ⟨between, rfl, split⟩ := List.append_eq_append_iff.mp found
  · exact .inr ⟨between, rfl⟩
  obtain ⟨tail, rfl, _⟩ := word_headed
  cases between with
  | nil => exact .inr ⟨[], split.symm⟩
  | cons first between =>
      obtain ⟨rfl, _⟩ := List.cons.inj split
      exact .inl headed.front_eq_nil

end Headed

end Seyal.Program
