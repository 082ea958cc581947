import Mathlib.Data.List.Sort
import Seyal.Terminal.Types

namespace Seyal.Client.Composer

open Terminal (isWhitespace)

/-! The commands a pane's composer remembers, and their recall. -/

abbrev Text := List Char

def trimEnd (text : Text) : Text := (text.reverse.dropWhile isWhitespace).reverse

def historyCapacity : Nat := 200
def historyVisibleRows : Nat := 8

structure HistoryEntry where
  command : Text
  seq : Nat
  deriving Repr, DecidableEq

structure PaneHistory where
  entries : List HistoryEntry := []
  nextSeq : Nat := 0
  deriving Repr, DecidableEq

namespace PaneHistory

variable (history : PaneHistory)

/-- The entries after a command that is not blank. -/
def recordIn (entries : List HistoryEntry) (command : Text) (seq : Nat) : List HistoryEntry :=
  match entries.getLast? with
  | some back =>
      if back.command = command then entries.dropLast ++ [⟨command, seq⟩]
      else (if entries.length = historyCapacity then entries.drop 1 else entries) ++ [⟨command, seq⟩]
  | none => (if entries.length = historyCapacity then entries.drop 1 else entries) ++ [⟨command, seq⟩]

def record (command : Text) : PaneHistory :=
  if trimEnd command = [] then history
  else
    let seq := min (history.nextSeq + 1) (2 ^ 64 - 1)
    ⟨recordIn history.entries (trimEnd command) seq, seq⟩

end PaneHistory

/-! Ranking. `lower` is the lowercasing of Unicode text. -/

inductive MatchClass where
  | empty
  | beginning
  | tokenBeginning
  | subsequence
  deriving Repr, DecidableEq

def MatchClass.strength : MatchClass → Nat
  | .empty => 0
  | .beginning => 1
  | .tokenBeginning => 2
  | .subsequence => 3

def isSubsequence : Text → Text → Bool
  | [], _ => true
  | _ :: _, [] => false
  | wanted :: rest, candidate :: haystack =>
      if wanted = candidate then isSubsequence rest haystack else isSubsequence (wanted :: rest) haystack

def classify (lower : Text → Text) (query command : Text) : Option MatchClass :=
  if query = [] then some .empty
  else if (lower query).isPrefixOf (lower command) then some .beginning
  else if ((lower command).splitOnP isWhitespace).any fun token => token ≠ [] && (lower query).isPrefixOf token then
    some .tokenBeginning
  else if isSubsequence ((lower query).filter fun char => !isWhitespace char) (lower command) then some .subsequence
  else none

def before (first second : MatchClass × HistoryEntry) : Prop :=
  first.1.strength < second.1.strength ∨ first.1.strength = second.1.strength ∧ second.2.seq ≤ first.2.seq

instance : DecidableRel before := fun _ _ => inferInstanceAs (Decidable (_ ∨ _))

def PaneHistory.rank (history : PaneHistory) (lower : Text → Text) (query : Text) : List HistoryEntry :=
  (((history.entries.filterMap fun entry => (classify lower query entry.command).map fun found => (found, entry))
    |>.insertionSort before).take historyVisibleRows).map Prod.snd

structure HistoryOverlay where
  query : Text := []
  selected : Nat := 0
  deriving Repr, DecidableEq

namespace HistoryOverlay

def clamp (overlay : HistoryOverlay) (rowCount : Nat) : HistoryOverlay :=
  if rowCount = 0 then { overlay with selected := 0 }
  else if rowCount ≤ overlay.selected then { overlay with selected := rowCount - 1 }
  else overlay

def step (overlay : HistoryOverlay) (delta : Int) (rowCount : Nat) : HistoryOverlay :=
  if rowCount = 0 then { overlay with selected := 0 }
  else { overlay with selected := (max 0 (min ((rowCount : Int) - 1) (overlay.selected + delta))).toNat }

end HistoryOverlay

/-! What is remembered of a list of commands. -/

def mergeNeighbours (commands : List Text) : List Text :=
  commands.foldl (fun merged command => if merged.getLast? = some command then merged else merged ++ [command]) []

theorem mergeNeighbours_append (commands : List Text) (command : Text) :
    mergeNeighbours (commands ++ [command]) =
      if (mergeNeighbours commands).getLast? = some command then mergeNeighbours commands
      else mergeNeighbours commands ++ [command] := by
  rw [mergeNeighbours, List.foldl_append]
  rfl

def lastOf {α : Type} (count : Nat) (items : List α) : List α := items.drop (items.length - count)

/-- The commands without trailing whitespace and without blank ones, equal neighbours merged, and of these the last
    `historyCapacity`. -/
def remembered (commands : List Text) : List Text :=
  lastOf historyCapacity (mergeNeighbours ((commands.map trimEnd).filter fun command => command ≠ []))

theorem getLast?_lastOf {α : Type} {count : Nat} (positive : 0 < count) (items : List α) :
    (lastOf count items).getLast? = items.getLast? := by
  rw [lastOf, List.getLast?_drop]
  cases items with
  | nil => rfl
  | cons item items =>
      rw [if_neg]
      rw [List.length_cons]
      omega

theorem lastOf_append {α : Type} {count : Nat} (positive : 0 < count) (items : List α) (item : α) :
    lastOf count (items ++ [item]) =
      (if (lastOf count items).length = count then (lastOf count items).drop 1 else lastOf count items) ++ [item] := by
  have long : (lastOf count items).length = min items.length count := by
    rw [lastOf, List.length_drop]
    omega
  rw [long]
  by_cases full : count ≤ items.length
  · have next : items.length + 1 - count = items.length - count + 1 := by omega
    rw [if_pos (by omega), lastOf, lastOf, List.drop_drop, List.length_append, List.length_singleton,
      List.drop_append_of_le_length (by omega), next]
  · rw [if_neg (by omega), lastOf, lastOf, List.length_append, List.length_singleton,
      show items.length + 1 - count = 0 by omega, show items.length - count = 0 by omega]
    rfl

theorem record_remembered {history : PaneHistory} {commands : List Text}
    (kept : history.entries.map HistoryEntry.command = remembered commands) (command : Text) :
    (history.record command).entries.map HistoryEntry.command = remembered (commands ++ [command]) := by
  rw [remembered, List.map_append, List.filter_append, List.map_singleton, PaneHistory.record]
  by_cases blank : trimEnd command = []
  · have none : [trimEnd command].filter (fun command => command ≠ []) = [] := by simp [blank]
    rw [if_pos blank, none, List.append_nil]
    exact kept
  · have one : [trimEnd command].filter (fun command => command ≠ []) = [trimEnd command] := by simp [blank]
    have positive : 0 < historyCapacity := by decide
    have last : (history.entries.getLast?).map HistoryEntry.command =
        (mergeNeighbours ((commands.map trimEnd).filter fun command => command ≠ [])).getLast? := by
      rw [← List.getLast?_map, kept, remembered, getLast?_lastOf positive]
    have length : history.entries.length = (remembered commands).length := by rw [← kept, List.length_map]
    have pushed : ∀ seq, ((if history.entries.length = historyCapacity then history.entries.drop 1 else history.entries) ++
        [HistoryEntry.mk (trimEnd command) seq]).map HistoryEntry.command = lastOf historyCapacity
          (mergeNeighbours ((commands.map trimEnd).filter fun command => command ≠ []) ++ [trimEnd command]) := by
      intro seq
      rw [lastOf_append positive, length, List.map_append, ← remembered, ← kept]
      split
      · rw [List.map_drop]
        rfl
      · rfl
    rw [if_neg blank, one, mergeNeighbours_append, ← last]
    simp only [PaneHistory.recordIn]
    cases back : history.entries.getLast? with
    | none =>
        simp only [Option.map_none, reduceCtorEq, if_false]
        exact pushed _
    | some entry =>
        by_cases same : entry.command = trimEnd command
        · have split : history.entries = history.entries.dropLast ++ [entry] :=
            (List.dropLast_append_getLast? entry back).symm
          simp only [same, if_true, Option.map_some]
          rw [List.map_append, ← remembered, ← kept]
          conv_rhs => rw [split]
          simp [same]
        · simp only [same, if_false, Option.map_some, Option.some.injEq]
          exact pushed _

end Seyal.Client.Composer
