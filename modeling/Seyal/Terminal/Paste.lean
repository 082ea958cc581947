import Seyal.Program.Strip

namespace Seyal.Terminal

open Program

/-! Pasted bytes: the filter in front of the child, and the brackets around it. -/

inductive PasteError
  | empty
  | tooLarge
  deriving Repr, DecidableEq

def maxPasteBytes : Nat := 65520

def bracketPasteStart : List UInt8 := [0x1b, 0x5b, 0x32, 0x30, 0x30, 0x7e]

def bracketPasteEnd : List UInt8 := [0x1b, 0x5b, 0x32, 0x30, 0x31, 0x7e]

def bracketPasteMarkers : List (List UInt8) := [bracketPasteStart, bracketPasteEnd]

def bracketPasteMarkerLen (bytes : List UInt8) : Option Nat :=
  bracketPasteMarkers.findSome? fun marker => if marker.isPrefixOf bytes then some marker.length else none

def stripPaste : Nat → List UInt8 → List UInt8
  | _, [] => []
  | skip + 1, _ :: rest => stripPaste skip rest
  | 0, byte :: rest =>
      if byte = 0 then stripPaste 0 rest
      else
        match bracketPasteMarkerLen (byte :: rest) with
        | some skip => stripPaste (skip - 1) rest
        | none => byte :: stripPaste 0 rest

def sanitizePaste (bytes : List UInt8) : Except PasteError (List UInt8) :=
  if bytes.isEmpty then .error .empty
  else if bytes.length > maxPasteBytes then .error .tooLarge
  else
    let out := stripPaste 0 bytes
    if out.isEmpty then .error .empty
    else if out.length > maxPasteBytes then .error .tooLarge
    else .ok out

def encodePaste (bytes : List UInt8) (bracketed : Bool) : Except PasteError (List UInt8) := do
  let sanitized ← sanitizePaste bytes
  if !bracketed then return sanitized
  else
    let wrappedLen := bracketPasteStart.length + sanitized.length + bracketPasteEnd.length
    if wrappedLen > maxPasteBytes + (bracketPasteStart.length + bracketPasteEnd.length) then throw .tooLarge
    else return bracketPasteStart ++ sanitized ++ bracketPasteEnd

def pasteTokens : List (List UInt8) := [0] :: bracketPasteMarkers

variable {bytes marker out : List UInt8}

theorem bracketPasteMarkerLen_some {len : Nat} (found : bracketPasteMarkerLen bytes = some len) :
    ∃ marker ∈ bracketPasteMarkers, marker.length = len ∧ marker <+: bytes := by
  obtain ⟨marker, member, tested⟩ := List.exists_of_findSome?_eq_some found
  split at tested
  next starts =>
      exact ⟨marker, member, Option.some.inj tested, List.isPrefixOf_iff_prefix.mp starts⟩
  next => cases tested

theorem bracketPasteMarkerLen_none (found : bracketPasteMarkerLen bytes = none) :
    ∀ marker ∈ bracketPasteMarkers, ¬ marker <+: bytes := by
  intro marker member starts
  have tested := List.findSome?_eq_none_iff.mp found marker member
  rw [if_pos (List.isPrefixOf_iff_prefix.mpr starts)] at tested
  cases tested

theorem mem_bracketPasteMarkers :
    marker ∈ bracketPasteMarkers ↔ marker = bracketPasteStart ∨ marker = bracketPasteEnd := by
  simp [bracketPasteMarkers]

theorem bracketPasteMarkers_headed (member : marker ∈ bracketPasteMarkers) :
    Headed 0x1b marker := by
  rcases mem_bracketPasteMarkers.mp member with rfl | rfl
  · exact ⟨_, rfl, by decide⟩
  · exact ⟨_, rfl, by decide⟩

theorem stripPaste_stripped (skip : Nat) (bytes : List UInt8) :
    Stripped pasteTokens (bytes.drop skip) (stripPaste skip bytes) := by
  induction bytes generalizing skip with
  | nil =>
      rw [List.drop_nil]
      exact .nil
  | cons byte rest ih =>
      cases skip with
      | succ skip => exact ih skip
      | zero =>
          rw [List.drop_zero, stripPaste]
          split
          next nul =>
              rw [nul]
              exact Stripped.token List.mem_cons_self (ih 0)
          next kept =>
              split
              next skip found =>
                  obtain ⟨marker, member, rfl, behind, whole⟩ := bracketPasteMarkerLen_some found
                  obtain ⟨tail, rfl, _⟩ := bracketPasteMarkers_headed member
                  obtain ⟨rfl, rfl⟩ := List.cons.inj whole
                  have remaining := ih tail.length
                  rw [show List.drop tail.length (tail.append behind) = behind from List.drop_left] at remaining
                  exact Stripped.token (List.mem_cons_of_mem _ member) remaining
              next none =>
                  refine Stripped.keep byte ?_ (ih 0)
                  intro token member starts
                  obtain rfl | marker := List.mem_cons.mp member
                  · exact kept (List.cons_prefix_cons.mp starts).1.symm
                  · exact bracketPasteMarkerLen_none none token marker starts

theorem sanitizePaste_ok (sanitized : sanitizePaste bytes = .ok out) :
    out = stripPaste 0 bytes ∧ out.length ≤ maxPasteBytes := by
  unfold sanitizePaste at sanitized
  grind

theorem encodePaste_bracketed (sanitized : sanitizePaste bytes = .ok out) :
    encodePaste bytes true = .ok (bracketPasteStart ++ out ++ bracketPasteEnd) := by
  have bounded := (sanitizePaste_ok sanitized).2
  unfold encodePaste
  rw [sanitized]
  dsimp only [bind, Except.bind]
  rw [if_neg (by decide), if_neg (by omega)]
  rfl

variable {bytes out marker gap piece word front rest : List UInt8}

/-- Somewhere in the input a marker is spelled with something that the filter
deletes between its bytes. -/
def SplitMarker (bytes : List UInt8) : Prop :=
  ∃ marker ∈ bracketPasteMarkers, ∃ piece, piece <:+: bytes ∧ Spread pasteTokens marker piece ∧ piece ≠ marker

theorem markers_not_infix (unsplit : ¬ SplitMarker bytes) (stripped : Stripped pasteTokens bytes out)
    (member : marker ∈ bracketPasteMarkers) : ¬ marker <:+: out := by
  intro found
  obtain ⟨tail, rfl, _⟩ := bracketPasteMarkers_headed member
  obtain ⟨piece, inside, spread, broken⟩ := stripped.infix_output (List.cons_ne_nil _ _) found
  exact unsplit ⟨_, member, piece, inside, spread, broken (List.mem_cons_of_mem _ member)⟩

theorem stripPaste_token (member : word ∈ pasteTokens) (rest : List UInt8) :
    stripPaste 0 (word ++ rest) = stripPaste 0 rest := by
  rw [pasteTokens, List.mem_cons, mem_bracketPasteMarkers] at member
  rcases member with rfl | rfl | rfl
  · rfl
  · simp [stripPaste, bracketPasteMarkerLen, bracketPasteMarkers, bracketPasteStart, bracketPasteEnd]
  · simp [stripPaste, bracketPasteMarkerLen, bracketPasteMarkers, bracketPasteStart, bracketPasteEnd]

theorem stripPaste_gap (gapped : Gap pasteTokens gap) (rest : List UInt8) :
    stripPaste 0 (gap ++ rest) = stripPaste 0 rest := by
  induction gapped with
  | nil => rfl
  | token member _ ih => rw [List.append_assoc, stripPaste_token member, ih]

/-- A byte that no token begins with. -/
def plainByte (byte : UInt8) : Prop := byte ≠ 0 ∧ byte ≠ 0x1b

theorem plainByte_of_marker (member : 0x1b :: word ∈ bracketPasteMarkers) : ∀ byte ∈ word, plainByte byte := by
  rcases mem_bracketPasteMarkers.mp member with same | same <;> cases same <;> simp [plainByte]

theorem gap_eq_nil {byte : UInt8} (gapped : Gap pasteTokens gap) (plain : plainByte byte)
    (starts : byte :: word <+: gap ++ rest) : gap = [] := by
  cases gapped with
  | nil => rfl
  | token member _ =>
      rw [pasteTokens, List.mem_cons, mem_bracketPasteMarkers] at member
      rcases member with rfl | rfl | rfl
      · exact absurd (List.cons_prefix_cons.mp starts).1 plain.1
      · exact absurd (List.cons_prefix_cons.mp starts).1 plain.2
      · exact absurd (List.cons_prefix_cons.mp starts).1 plain.2

theorem stripPaste_spread (spread : Spread pasteTokens word piece) (plain : ∀ byte ∈ word, plainByte byte)
    (rest : List UInt8) : stripPaste 0 (piece ++ rest) = word ++ stripPaste 0 rest := by
  have kept (byte : UInt8) (plain : plainByte byte) (rest) : stripPaste 0 (byte :: rest) = byte :: stripPaste 0 rest := by
    simp [stripPaste, plain.1, bracketPasteMarkerLen, bracketPasteMarkers, bracketPasteStart, bracketPasteEnd,
      Ne.symm plain.2]
  induction spread with
  | letter letter => exact kept letter (plain letter (by simp)) rest
  | cons letter gapped _ ih =>
      rw [List.cons_append, kept letter (plain letter (by simp)), List.append_assoc, stripPaste_gap gapped,
        ih fun byte member => plain byte (.tail _ member)]
      rfl

/-- A spread word that other bytes begin with, of which none begins a token, has nothing between its letters. -/
theorem eq_of_spread {other : List UInt8} (gapped : Gap pasteTokens gap) (spread : Spread pasteTokens word piece)
    (plain : ∀ byte ∈ other, plainByte byte) (same : other.length = word.length)
    (starts : other <+: gap ++ (piece ++ rest)) : gap ++ piece = word := by
  induction spread generalizing gap other with
  | letter letter =>
      obtain ⟨first, rfl⟩ := List.length_eq_one_iff.mp same
      rw [gap_eq_nil gapped (plain first (by simp)) starts]
      rfl
  | cons letter between _ ih =>
      obtain ⟨first, other, rfl⟩ := List.exists_cons_of_length_eq_add_one same
      obtain rfl := gap_eq_nil gapped (plain first (by simp)) starts
      rw [List.nil_append, List.cons_append, List.cons_prefix_cons, List.append_assoc] at starts
      rw [List.nil_append, ih between (fun byte member => plain byte (.tail _ member)) (Nat.succ.inj same) starts.2]

/-- The filter looks afresh at every escape. -/
theorem stripPaste_escape (front rest : List UInt8) :
    ∃ before, stripPaste 0 (front ++ 0x1b :: rest) = before ++ stripPaste 0 (0x1b :: rest) := by
  induction size : front.length using Nat.strong_induction_on generalizing front with
  | _ size ih =>
      cases front with
      | nil => exact ⟨[], rfl⟩
      | cons byte front =>
          cases found : bracketPasteMarkerLen (byte :: front ++ 0x1b :: rest) with
          | none =>
              obtain ⟨before, later⟩ := ih _ (size ▸ Nat.lt_succ_self _) front rfl
              by_cases nul : byte = 0
              · exact ⟨before, by simp [stripPaste, nul, later]⟩
              · rw [List.cons_append] at found
                exact ⟨byte :: before, by simp [stripPaste, nul, found, later]⟩
          | some len =>
              obtain ⟨marker, member, -, behind, whole⟩ := bracketPasteMarkerLen_some found
              obtain ⟨between, left⟩ | ⟨_, none, _⟩ :=
                (bracketPasteMarkers_headed member).found_beside rfl (whole.symm.trans (List.nil_append _).symm)
              · rw [left, List.nil_append, List.append_assoc, stripPaste_token (.tail _ member)]
                refine ih _ ?_ between rfl
                have sizes := congrArg List.length left
                simp only [List.length_append, List.length_nil] at sizes
                have width : ∀ marker ∈ bracketPasteMarkers, 0 < marker.length := by decide
                have := width marker member
                omega
              · cases none

/-- The filter puts together each marker that it finds broken up. -/
theorem SplitMarker.found (split : SplitMarker bytes) :
    ∃ marker ∈ bracketPasteMarkers, marker <:+: stripPaste 0 bytes := by
  obtain ⟨marker, member, piece, ⟨front, rest, rfl⟩, spread, broken⟩ := split
  obtain ⟨word, rfl, -⟩ := bracketPasteMarkers_headed member
  refine ⟨_, member, ?_⟩
  cases spread with
  | letter => exact absurd rfl broken
  | cons _ gapped spread =>
      rename_i gap piece
      have plain := plainByte_of_marker member
      obtain ⟨before, later⟩ := stripPaste_escape front (gap ++ (piece ++ rest))
      have kept : bracketPasteMarkerLen (0x1b :: (gap ++ (piece ++ rest))) = none := by
        cases found : bracketPasteMarkerLen (0x1b :: (gap ++ (piece ++ rest))) with
        | none => rfl
        | some len =>
            obtain ⟨other, known, -, starts⟩ := bracketPasteMarkerLen_some found
            obtain ⟨other, rfl, -⟩ := bracketPasteMarkers_headed known
            have same : other.length = word.length := by
              have width : ∀ marker ∈ bracketPasteMarkers, marker.length = 6 := by decide
              exact Nat.succ.inj ((width _ known).trans (width _ member).symm)
            have starts := (List.cons_prefix_cons.mp starts).2
            exact absurd (congrArg _ (eq_of_spread gapped spread (plainByte_of_marker known) same starts)) broken
      refine ⟨before, stripPaste 0 rest, ?_⟩
      rw [List.append_assoc front, List.cons_append, List.append_assoc gap, later]
      simp [stripPaste, kept, stripPaste_gap gapped, stripPaste_spread spread plain]

theorem found_in_brackets {front rest : List UInt8} (clean : ∀ marker ∈ bracketPasteMarkers, ¬ marker <:+: out)
    (member : marker ∈ bracketPasteMarkers)
    (found : bracketPasteStart ++ out ++ bracketPasteEnd = front ++ (marker ++ rest)) :
    (front = [] ∧ marker = bracketPasteStart) ∨ (rest = [] ∧ marker = bracketPasteEnd) := by
  have headed := bracketPasteMarkers_headed member
  have width : ∀ marker ∈ bracketPasteMarkers, marker.length = 6 := by decide
  have startHeaded : Headed 0x1b bracketPasteStart := bracketPasteMarkers_headed List.mem_cons_self
  obtain ⟨between, inside⟩ | ⟨between, rfl, inside⟩ := headed.found_beside rfl found
  · obtain rfl | ⟨before, outside⟩ := startHeaded.found_behind headed inside
    · have same := List.append_inj (inside.trans (List.nil_append _)) (width marker member).symm
      exact .inl ⟨rfl, same.1.symm⟩
    · exact absurd ⟨before, between, by rw [outside, List.append_assoc]⟩ (clean marker member)
  · have sizes : 6 = between.length + (6 + rest.length) := by
      have lengths := congrArg List.length inside
      rw [List.length_append, List.length_append, width marker member] at lengths
      exact lengths
    obtain rfl := List.eq_nil_of_length_eq_zero (show between.length = 0 by omega)
    obtain rfl := List.eq_nil_of_length_eq_zero (show rest.length = 0 by omega)
    exact .inr ⟨rfl, by simpa using inside.symm⟩

/-- No NUL is left, and what is written stays inside its brackets exactly if no marker was broken up. -/
theorem sanitizePaste_marker_free (bytes out : List UInt8) (sanitized : sanitizePaste bytes = .ok out) :
    0 ∉ out ∧
      ((¬ bracketPasteStart <:+: out ∧ ¬ bracketPasteEnd <:+: out ∧
          ∃ encoded, encodePaste bytes true = .ok encoded ∧
            bracketPasteStart <+: encoded ∧ bracketPasteEnd <:+ encoded ∧
            (∀ front rest, encoded = front ++ (bracketPasteStart ++ rest) → front = []) ∧
            ∀ front rest, encoded = front ++ (bracketPasteEnd ++ rest) → rest = []) ↔
        ¬ SplitMarker bytes) := by
  obtain ⟨rfl, _⟩ := sanitizePaste_ok sanitized
  have stripped := stripPaste_stripped 0 bytes
  refine ⟨stripped.letter_not_mem List.mem_cons_self, ?_, ?_⟩
  · rintro ⟨noStart, noEnd, _⟩ split
    obtain ⟨marker, member, found⟩ := split.found
    rcases mem_bracketPasteMarkers.mp member with rfl | rfl
    · exact noStart found
    · exact noEnd found
  intro unsplit
  have clean : ∀ marker ∈ bracketPasteMarkers, ¬ marker <:+: stripPaste 0 bytes :=
    fun marker member => markers_not_infix unsplit stripped member
  have start : bracketPasteStart ∈ bracketPasteMarkers := List.mem_cons_self
  have last : bracketPasteEnd ∈ bracketPasteMarkers := List.mem_cons_of_mem _ List.mem_cons_self
  refine ⟨clean _ start, clean _ last, _, encodePaste_bracketed sanitized, ?_, ⟨_, rfl⟩, ?_, ?_⟩
  · exact ⟨_, (List.append_assoc ..).symm⟩
  · intro front rest found
    obtain ⟨rfl, _⟩ | ⟨_, same⟩ := found_in_brackets clean start found
    · rfl
    · exact absurd same (by decide)
  · intro front rest found
    obtain ⟨_, same⟩ | ⟨rfl, _⟩ := found_in_brackets clean last found
    · exact absurd same (by decide)
    · rfl

/-- Escape, a bracket, a NUL and a letter. -/
theorem sanitizePaste_marker_free_nul :
    sanitizePaste [0x1b, 0x5b, 0, 0x41] = .ok [0x1b, 0x5b, 0x41] ∧ ¬ SplitMarker [0x1b, 0x5b, 0, 0x41] ∧
      ¬ bracketPasteEnd <:+: [0x1b, 0x5b, 0x41] := by
  have unsplit : ¬ SplitMarker [0x1b, 0x5b, 0, 0x41] := by
    rintro ⟨marker, member, piece, inside, spread, _⟩
    have apart : ∀ marker ∈ bracketPasteMarkers, ¬ marker.Sublist [0x1b, 0x5b, 0, 0x41] := by decide
    exact apart marker member (spread.sublist.trans inside.sublist)
  have sanitized : sanitizePaste [0x1b, 0x5b, 0, 0x41] = .ok [0x1b, 0x5b, 0x41] := rfl
  exact ⟨sanitized, unsplit, ((sanitizePaste_marker_free _ _ sanitized).2.mpr unsplit).2.1⟩

/-- A NUL inside an end marker goes, and the marker is whole. The pasted bytes
end the bracket themselves. -/
theorem sanitizePaste_joins_marker :
    sanitizePaste [0x1b, 0x5b, 0x32, 0x30, 0, 0x31, 0x7e] = .ok bracketPasteEnd ∧
      encodePaste [0x1b, 0x5b, 0x32, 0x30, 0, 0x31, 0x7e] true =
        .ok (bracketPasteStart ++ bracketPasteEnd ++ bracketPasteEnd) := by
  exact ⟨rfl, rfl⟩

end Seyal.Terminal
