import Mathlib.Algebra.Order.BigOperators.Group.List
import Mathlib.Algebra.Order.Ring.Nat

namespace Seyal.Program.ShellWords

/-! How a POSIX shell splits a line into words, up to and including the removal of
quotes. -/

structure Letter where
  char : Char
  quoted : Bool
  deriving DecidableEq

abbrev Word := List Letter

def Word.text (word : Word) : List Char := word.map Letter.char

def spelled (quoted : Bool) (text : List Char) : Word := text.map fun char => ⟨char, quoted⟩

@[simp] theorem text_spelled (quoted : Bool) (text : List Char) : Word.text (spelled quoted text) = text := by
  simp [Word.text, spelled, Function.comp_def]

def apostrophe : Char := Char.ofNat 39

def doubleQuote : Char := Char.ofNat 34

def backslash : Char := Char.ofNat 92

def blank (char : Char) : Bool := char = ' ' || char = '\t'

/-- Unquoted, these end the word as an operator or start an expansion. -/
def isControl (char : Char) : Bool := "|&;<>()$`\n".toList.contains char

inductive Mode where
  | between
  | bare
  | single
  | double
  /-- After a backslash, between words or inside one. -/
  | escape (begun : Bool)
  | escapeDouble

/-- The word that has been begun starts with the letter. -/
def push (letter : Letter) (words : List Word) : List Word := words.modifyHead (letter :: ·)

/-- The words of a line, of which the first is the one that has been begun. There are
none if the line has an operator, an expansion, a comment or a quote that is not closed. -/
def lex : Mode → List Char → Option (List Word)
  | .between, [] => some []
  | .bare, [] => some [[]]
  | .single, [] | .double, [] | .escape _, [] | .escapeDouble, [] => none
  | .between, char :: rest =>
      if blank char then lex .between rest
      else if char = apostrophe then lex .single rest
      else if char = doubleQuote then lex .double rest
      else if char = backslash then lex (.escape false) rest
      else if isControl char || char = '#' then none
      else (lex .bare rest).map (push ⟨char, false⟩)
  | .bare, char :: rest =>
      if blank char then (lex .between rest).map ([] :: ·)
      else if char = apostrophe then lex .single rest
      else if char = doubleQuote then lex .double rest
      else if char = backslash then lex (.escape true) rest
      else if isControl char then none
      else (lex .bare rest).map (push ⟨char, false⟩)
  | .single, char :: rest =>
      if char = apostrophe then lex .bare rest else (lex .single rest).map (push ⟨char, true⟩)
  | .double, char :: rest =>
      if char = doubleQuote then lex .bare rest
      else if char = backslash then lex .escapeDouble rest
      else if "$`".toList.contains char then none
      else (lex .double rest).map (push ⟨char, true⟩)
  | .escape begun, char :: rest =>
      if char = '\n' then lex (if begun then .bare else .between) rest
      else (lex .bare rest).map (push ⟨char, true⟩)
  | .escapeDouble, char :: rest =>
      if char = '\n' then lex .double rest
      else if "$`\"\\".toList.contains char then (lex .double rest).map (push ⟨char, true⟩)
      else (lex .double rest).map fun words => push ⟨backslash, true⟩ (push ⟨char, true⟩ words)

def words (line : List Char) : Option (List Word) := lex .between line

/-- A tilde or a pattern, which the shell replaces. -/
def Word.expands (word : Word) : Bool :=
  word.head? = some ⟨'~', false⟩ || word.any fun letter => !letter.quoted && "*?[".toList.contains letter.char

def Plain (char : Char) : Prop :=
  blank char = false ∧ char ≠ apostrophe ∧ char ≠ doubleQuote ∧ char ≠ backslash ∧ isControl char = false ∧ char ≠ '#'

instance (char : Char) : Decidable (Plain char) := by unfold Plain; infer_instance

def prepend (word : Word) (words : List Word) : List Word := words.modifyHead (word ++ ·)

theorem prepend_prepend (word more : Word) (words : List Word) :
    prepend word (prepend more words) = prepend (word ++ more) words := by
  cases words <;> simp [prepend]

theorem push_eq (letter : Letter) : push letter = prepend [letter] := rfl

theorem prepend_nil : prepend [] = id := by
  funext words
  cases words <;> rfl

variable {text : List Char} {word : Word} {char : Char}

theorem lex_bare_blank (rest : List Char) : lex .bare (' ' :: rest) = (lex .between rest).map ([] :: ·) := by
  simp [lex, blank]

theorem lex_bare_plain (plain : Plain char) (rest : List Char) :
    lex .bare (char :: rest) = (lex .bare rest).map (prepend [⟨char, false⟩]) := by
  obtain ⟨notBlank, notApostrophe, notDouble, notBackslash, notControl, _⟩ := plain
  rw [← push_eq]
  simp [lex, notBlank, notApostrophe, notDouble, notBackslash, notControl]

theorem lex_between_plain (plain : Plain char) (rest : List Char) :
    lex .between (char :: rest) = (lex .bare rest).map (prepend [⟨char, false⟩]) := by
  obtain ⟨notBlank, notApostrophe, notDouble, notBackslash, notControl, notHash⟩ := plain
  rw [← push_eq]
  simp [lex, notBlank, notApostrophe, notDouble, notBackslash, notControl, notHash]

theorem lex_single_letter (other : char ≠ apostrophe) (rest : List Char) :
    lex .single (char :: rest) = (lex .single rest).map (prepend [⟨char, true⟩]) := by
  rw [← push_eq]
  simp [lex, other]

theorem lex_single_apostrophe (rest : List Char) :
    lex .single (apostrophe :: backslash :: apostrophe :: apostrophe :: rest) =
      (lex .single rest).map (prepend [⟨apostrophe, true⟩]) := by
  rw [← push_eq]
  rfl

/-- The text stands for the word, wherever the word is begun. -/
structure Spells (text : List Char) (word : Word) : Prop where
  bare : ∀ rest, lex .bare (text ++ rest) = (lex .bare rest).map (prepend word)
  between : ∀ rest, lex .between (text ++ rest) = (lex .bare rest).map (prepend word)

theorem lex_bare_text (plain : ∀ char ∈ text, Plain char) (begun : text ≠ []) (rest : List Char) :
    lex .bare (text ++ rest) = (lex .bare rest).map (prepend (spelled false text)) := by
  induction text with
  | nil => exact absurd rfl begun
  | cons char text ih =>
      rw [List.cons_append, lex_bare_plain (plain char List.mem_cons_self)]
      cases text with
      | nil => rfl
      | cons next text =>
          rw [ih (List.forall_mem_cons.mp plain).2 (List.cons_ne_nil _ _),
            Option.map_map]
          congr 1
          funext words
          exact prepend_prepend ..

theorem spells_plain (plain : ∀ char ∈ text, Plain char) (begun : text ≠ []) :
    Spells text (spelled false text) where
  bare := lex_bare_text plain begun
  between rest := by
    rw [← lex_bare_text plain begun rest]
    cases text with
    | nil => exact absurd rfl begun
    | cons char text =>
        have first := plain char List.mem_cons_self
        rw [List.cons_append, lex_between_plain first, lex_bare_plain first]

theorem Spells.followed (spells : Spells text word) (rest : List Char) :
    lex .between (text ++ ' ' :: rest) = (lex .between rest).map (word :: ·) := by
  rw [spells.between, lex_bare_blank, Option.map_map]
  congr 1
  funext words
  simp [prepend]

theorem Spells.words (spells : Spells text word) : words text = some [word] := by
  have whole := spells.between []
  rw [List.append_nil] at whole
  rw [ShellWords.words, whole]
  simp [lex, prepend]

theorem words_intercalate {texts : List (List Char)} {line : List Word} (spells : List.Forall₂ Spells texts line) :
    words ([' '].intercalate texts) = some line := by
  induction spells with
  | nil => rfl
  | @cons text word texts line first rest ih =>
      cases rest with
      | nil => simpa using first.words
      | cons second rest =>
          rw [List.intercalate_cons_cons, List.append_assoc, List.singleton_append, words, first.followed, ← words, ih]
          rfl

/-- The pieces of a line between its blanks. -/
def pieces (line : List Char) : List (List Char) :=
  (line.splitOnP blank).filter fun piece => !piece.isEmpty

theorem lex_splitOnP {line : List Char} (plain : ∀ char ∈ line, blank char = true ∨ Plain char) :
    lex .between line = some ((pieces line).map (spelled false)) ∧
      ∃ first rest, line.splitOnP blank = first :: rest ∧
        lex .bare line =
          some (spelled false first :: (rest.filter fun piece => !piece.isEmpty).map (spelled false)) := by
  induction line with
  | nil => exact ⟨rfl, [], [], rfl, rfl⟩
  | cons char line ih =>
      obtain ⟨between, first, rest, split, bare⟩ := ih (List.forall_mem_cons.mp plain).2
      rw [pieces, List.splitOnP_cons_eq_if_modifyHead, split]
      rw [pieces, split] at between
      rcases plain char List.mem_cons_self with isBlank | isPlain
      · rw [if_pos isBlank]
        refine ⟨?_, [], first :: rest, rfl, ?_⟩
        · rw [lex, if_pos isBlank, between]
          rfl
        · rw [lex, if_pos isBlank, between]
          rfl
      · rw [if_neg (by simp [isPlain.1])]
        refine ⟨?_, char :: first, rest, rfl, ?_⟩
        · rw [lex_between_plain isPlain, bare]
          rfl
        · rw [lex_bare_plain isPlain, bare]
          rfl

theorem mem_splitOnP {line : List Char} (member : char ∈ line) (notBlank : blank char = false) :
    ∃ piece ∈ line.splitOnP blank, char ∈ piece := by
  induction line with
  | nil => cases member
  | cons other line ih =>
      rw [List.splitOnP_cons_eq_if_modifyHead]
      rcases List.mem_cons.mp member with rfl | member
      · rw [if_neg (by simp [notBlank])]
        cases split : line.splitOnP blank with
        | nil => exact absurd split (List.splitOnP_ne_nil _ _)
        | cons first rest => exact ⟨char :: first, by simp, List.mem_cons_self⟩
      · obtain ⟨piece, inPieces, inPiece⟩ := ih member
        split
        · exact ⟨piece, List.mem_cons_of_mem _ inPieces, inPiece⟩
        · cases split : line.splitOnP blank with
          | nil => exact absurd split (List.splitOnP_ne_nil _ _)
          | cons first rest =>
              rw [split] at inPieces
              rcases List.mem_cons.mp inPieces with rfl | later
              · exact ⟨other :: piece, by simp, List.mem_cons_of_mem _ inPiece⟩
              · exact ⟨piece, List.mem_cons_of_mem _ later, inPiece⟩

theorem words_plain {line : List Char} (plain : ∀ piece ∈ pieces line, ∀ char ∈ piece, Plain char) :
    words line = some ((pieces line).map (spelled false)) := by
  refine (lex_splitOnP fun char member => ?_).1
  cases isBlank : blank char with
  | true => exact .inl rfl
  | false =>
      obtain ⟨piece, inPieces, inPiece⟩ := mem_splitOnP member isBlank
      refine .inr (plain piece (List.mem_filter.mpr ⟨inPieces, ?_⟩) char inPiece)
      cases piece with
      | nil => cases inPiece
      | cons => rfl

theorem expands_quoted (text : List Char) : Word.expands (spelled true text) = false := by
  cases text with
  | nil => rfl
  | cons char text => simp [Word.expands, spelled]

theorem head_of_expands (noPattern : ∀ char ∈ text, "*?[".toList.contains char = false)
    (expands : Word.expands (spelled false text) = true) : text.head? = some '~' := by
  have patterns : ((spelled false text).any fun letter => !letter.quoted && "*?[".toList.contains letter.char) =
      false := by
    rw [spelled, List.any_map, List.any_eq_false]
    intro char member
    simp only [Function.comp_apply, Bool.not_false, Bool.true_and, noPattern char member, Bool.false_eq_true,
      not_false_eq_true]
  rw [Word.expands, patterns, Bool.or_false, decide_eq_true_eq] at expands
  cases text with
  | nil => cases expands
  | cons char text =>
      have same : Letter.mk char false = ⟨'~', false⟩ := Option.some.inj expands
      rw [List.head?_cons, (Letter.mk.inj same).1]

end Seyal.Program.ShellWords
