import Seyal.Protocol.Display.Types
import Seyal.Protocol.Execution

namespace Seyal.Runtime

open Program Slice Protocol Terminal

/-! How the cells of a display batch are cut into chunks that fit into a frame. -/

structure ProjectionCell where
  role : DisplayCellRole
  width : Nat
  /-- The grapheme of a lead in UTF-8. -/
  text : List UInt8
  scalar : Char
  foreground : DisplayColor
  background : DisplayColor
  attributes : DisplayAttributes
  deriving Repr, DecidableEq

structure SpanPlan where
  rowOffset : Nat
  firstCol : Nat
  rowCount : Nat
  cellStart : Nat
  cellCount : Nat
  deriving Repr, DecidableEq

def needsSidecar (cell : ProjectionCell) : Except DisplayError Bool :=
  if cell.role ≠ .lead then .ok false
  else if cell.text = [] ∨ maxGraphemeUtf8Bytes < cell.text.length then .error .invalidSidecar
  else
    match fromUtf8 cell.text with
    | none => .error .invalidUnicode
    | some chars => .ok (chars.length ≠ 1)

def sidecarBytesForCells : List ProjectionCell → Except DisplayError Nat
  | [] => return 0
  | cell :: rest => do
      let needs ← needsSidecar cell
      let others ← sidecarBytesForCells rest
      return (if needs then cell.text.length else 0) + others

/-- Room for the envelope that a later step puts in front. -/
def maxChunkPayload : Nat := maxFramePayload - PresentationEnvelope.prefixLen

def chunkPayload (cells sidecar : Nat) : Nat := displayChunkHeaderV2Len + cells * displayCellLen + sidecar

abbrev TooLarge (cells sidecar : Nat) : Prop :=
  maxGraphemeSidecarBytes < sidecar ∨ maxChunkPayload < chunkPayload cells sidecar

def rowCells (columns : Nat) (cells : List ProjectionCell) (row : Nat) : List ProjectionCell :=
  subrange cells (row * columns) ((row + 1) * columns)

def takeRows (columns : Nat) (cells : List ProjectionCell) (row : Nat) : Nat → Nat → Nat → Except DisplayError Nat
  | 0, taken, _ => .ok taken
  | left + 1, taken, sidecar => do
      let rowSidecar ← sidecarBytesForCells (rowCells columns cells (row + taken))
      let nextSidecar := sidecar + rowSidecar
      if TooLarge ((taken + 1) * columns) nextSidecar then .ok taken
      else takeRows columns cells row left (taken + 1) nextSidecar

def isRole (row : List ProjectionCell) (col : Nat) (role : DisplayCellRole) : Bool :=
  (row[col]?).any fun cell => cell.role = role

def isWide (row : List ProjectionCell) (col : Nat) : Bool :=
  (row[col]?).any fun cell => cell.role = .lead ∧ cell.width = 2

/-- A lead of width two goes with the cell after it. -/
def unitEnd (columns : Nat) (row : List ProjectionCell) (col : Nat) : Except DisplayError Nat :=
  if isWide row col then
    if columns ≤ col + 1 ∨ isRole row (col + 1) .continuation = false then .error .invalidCell else .ok (col + 2)
  else .ok (col + 1)

def takeUnits (columns : Nat) (row : List ProjectionCell) (col : Nat) : Nat → Nat → Nat → Except DisplayError Nat
  | 0, stop, _ => .ok stop
  | fuel + 1, stop, sidecar =>
      if columns ≤ stop then .ok stop
      -- Never ends between lead and continuation.
      else if col < stop ∧ isRole row stop .continuation = true then .ok stop
      else do
        let next ← unitEnd columns row stop
        let unitSidecar ← sidecarBytesForCells (subrange row stop next)
        let nextSidecar := sidecar + unitSidecar
        if TooLarge (next - col) nextSidecar then .ok stop
        else takeUnits columns row col fuel next nextSidecar

def planRow (columns : Nat) (cells : List ProjectionCell) (row : Nat) : Nat → Nat → Except DisplayError (List SpanPlan)
  | 0, _ => return []
  | fuel + 1, col =>
      if columns ≤ col then return []
      else do
        let stop ← takeUnits columns (rowCells columns cells row) col (columns - col) col 0
        refuse (stop = col) .invalidLength
        let rest ← planRow columns cells row fuel stop
        return { rowOffset := row, firstCol := col, rowCount := 1, cellStart := row * columns + col,
                 cellCount := stop - col } :: rest

def planRows (columns : Nat) (cells : List ProjectionCell) (rowCount : Nat) :
    Nat → Nat → Except DisplayError (List SpanPlan)
  | 0, _ => return []
  | fuel + 1, row =>
      if rowCount ≤ row then return []
      else do
        let taken ← takeRows columns cells row (rowCount - row) 0 0
        if 0 < taken then
          let rest ← planRows columns cells rowCount fuel (row + taken)
          return { rowOffset := row, firstCol := 0, rowCount := taken, cellStart := row * columns,
                   cellCount := taken * columns } :: rest
        else
          let spans ← planRow columns cells row columns 0
          let rest ← planRows columns cells rowCount fuel (row + 1)
          return spans ++ rest

def planV2Spans (columns : Nat) (cells : List ProjectionCell) : Except DisplayError (List SpanPlan) := do
  refuse (cells.length % columns ≠ 0) .invalidDamage
  let rowCount := cells.length / columns
  let spans ← planRows columns cells rowCount rowCount 0
  refuse (spans = []) .invalidDamage
  return spans

structure ProjectionCell.WellFormed (cell : ProjectionCell) : Prop where
  lead : cell.role = .lead → cell.text ≠ [] ∧ cell.text.length ≤ maxGraphemeUtf8Bytes ∧
    (fromUtf8 cell.text).isSome = true ∧ (cell.width = 1 ∨ cell.width = 2)
  other : cell.role ≠ .lead → cell.text = [] ∧ cell.width = 0

/-- Whole rows of well-formed cells, in which wide leads and continuations are paired. -/
structure WellFormedCells (columns : Nat) (cells : List ProjectionCell) : Prop where
  columns_pos : 0 < columns
  columns_le : columns ≤ maxDisplayColumns
  rows : ∃ rows, 0 < rows ∧ rows ≤ maxDisplayRows ∧ cells.length = rows * columns
  each : ∀ cell ∈ cells, cell.WellFormed
  wide : ∀ index, isWide cells index = true →
    (index + 1) % columns ≠ 0 ∧ isRole cells (index + 1) .continuation = true
  continuation : ∀ index, isRole cells index .continuation = true → index % columns ≠ 0 ∧ isWide cells (index - 1) = true

def ProjectionCell.sidecarLen (cell : ProjectionCell) : Nat :=
  if needsSidecar cell = .ok true then cell.text.length else 0

def sidecarLen (cells : List ProjectionCell) : Nat := (cells.map ProjectionCell.sidecarLen).sum

section Sidecar

variable {cell : ProjectionCell} {cells : List ProjectionCell}

theorem ProjectionCell.WellFormed.needsSidecar (formed : cell.WellFormed) : ∃ needs, needsSidecar cell = .ok needs := by
  unfold Runtime.needsSidecar
  by_cases lead : cell.role = .lead
  · obtain ⟨text, short, decodes, _⟩ := formed.lead lead
    obtain ⟨chars, decoded⟩ := Option.isSome_iff_exists.mp decodes
    rw [if_neg (not_not_intro lead), if_neg (not_or.mpr ⟨text, Nat.not_lt.mpr short⟩), decoded]
    exact ⟨_, rfl⟩
  · rw [if_pos lead]
    exact ⟨false, rfl⟩

theorem ProjectionCell.WellFormed.sidecarLen_le (formed : cell.WellFormed) :
    cell.sidecarLen ≤ maxGraphemeUtf8Bytes := by
  unfold ProjectionCell.sidecarLen
  split
  next needs =>
    by_cases lead : cell.role = .lead
    · exact (formed.lead lead).2.1
    · rw [(formed.other lead).1]
      exact Nat.zero_le _
  next => exact Nat.zero_le _

theorem ProjectionCell.sidecarLen_other (other : cell.role ≠ .lead) : cell.sidecarLen = 0 := by
  have none : Runtime.needsSidecar cell = .ok false := if_pos other
  rw [ProjectionCell.sidecarLen, none]
  rfl

theorem sidecarBytesForCells_eq (each : ∀ cell ∈ cells, cell.WellFormed) :
    sidecarBytesForCells cells = .ok (sidecarLen cells) := by
  induction cells with
  | nil => rfl
  | cons cell rest ih =>
      obtain ⟨needs, asked⟩ := (each cell List.mem_cons_self).needsSidecar
      rw [sidecarBytesForCells, asked, ih (List.forall_mem_cons.mp each).2]
      have here : cell.sidecarLen = if needs then cell.text.length else 0 := by
        rw [ProjectionCell.sidecarLen, asked]
        simp
      have total : sidecarLen (cell :: rest) = cell.sidecarLen + sidecarLen rest := by simp [sidecarLen]
      rw [total, here]
      rfl

theorem sidecarLen_of_eq {sidecar : Nat} (computed : sidecarBytesForCells cells = .ok sidecar) :
    sidecar = sidecarLen cells := by
  induction cells generalizing sidecar with
  | nil =>
      cases computed
      rfl
  | cons cell rest ih =>
      simp only [sidecarBytesForCells, bind_eq_ok, pure_eq_ok] at computed
      obtain ⟨needs, asked, others, computed, rfl⟩ := computed
      have total : sidecarLen (cell :: rest) = cell.sidecarLen + sidecarLen rest := by simp [sidecarLen]
      rw [total, ProjectionCell.sidecarLen, asked, ih computed]
      simp

theorem sidecarLen_append (first second : List ProjectionCell) :
    sidecarLen (first ++ second) = sidecarLen first + sidecarLen second := by
  simp [sidecarLen]

theorem sidecarLen_split {first middle past : Nat} (lower : first ≤ middle) (upper : middle ≤ past) :
    sidecarLen (subrange cells first past) =
      sidecarLen (subrange cells first middle) + sidecarLen (subrange cells middle past) := by
  rw [← sidecarLen_append, subrange_append_subrange lower upper]

end Sidecar

section Rows

variable {columns row col stop : Nat} {cells : List ProjectionCell}

variable {index past fuel last start stop : Nat} {spans : List SpanPlan} {span : SpanPlan}

theorem isRole_iff {role : DisplayCellRole} :
    isRole cells index role = true ↔ ∃ cell, cells[index]? = some cell ∧ cell.role = role := by
  simp [isRole, Option.any_eq_true]

theorem not_wide_of_continuation (continues : isRole cells index .continuation = true) :
    isWide cells index = false := by
  obtain ⟨cell, found, role⟩ := isRole_iff.mp continues
  simp [isWide, found, role]

theorem getElem?_rowCells (inside : col < columns) : (rowCells columns cells row)[col]? = cells[row * columns + col]? := by
  rw [rowCells, getElem?_subrange, if_pos]
  rw [Nat.succ_mul]
  omega

theorem isRole_rowCells (inside : col < columns) (role : DisplayCellRole) :
    isRole (rowCells columns cells row) col role = isRole cells (row * columns + col) role := by
  rw [isRole, getElem?_rowCells inside, isRole]

theorem isWide_rowCells (inside : col < columns) :
    isWide (rowCells columns cells row) col = isWide cells (row * columns + col) := by
  rw [isWide, getElem?_rowCells inside, isWide]

theorem subrange_rowCells (inside : past ≤ columns) :
    subrange (rowCells columns cells row) col past = subrange cells (row * columns + col) (row * columns + past) := by
  refine List.ext_getElem? fun index => ?_
  rw [rowCells, getElem?_subrange, getElem?_subrange, getElem?_subrange, Nat.succ_mul, Nat.add_assoc]
  by_cases short : col + index < past
  · rw [if_pos short, if_pos (by omega), if_pos (by omega)]
  · rw [if_neg short, if_neg (by omega)]

theorem sidecarLen_single {cell : ProjectionCell} (found : cells[index]? = some cell) :
    sidecarLen (subrange cells index (index + 1)) = cell.sidecarLen := by
  have inside := (List.getElem?_eq_some_iff.mp found).1
  have only : subrange cells index (index + 1) = [cell] := by
    rw [subrange, Nat.add_sub_cancel_left, List.drop_eq_getElem_cons inside, (List.getElem?_eq_some_iff.mp found).2]
    rfl
  simp [sidecarLen, only]

/-- The cells from here to there fit into one chunk. -/
structure Fits (cells : List ProjectionCell) (first past : Nat) : Prop where
  sidecar : sidecarLen (subrange cells first past) ≤ maxGraphemeSidecarBytes
  payload : chunkPayload (past - first) (sidecarLen (subrange cells first past)) ≤ maxChunkPayload

theorem fits_iff {first count : Nat} (length : past - first = count) :
    Fits cells first past ↔ ¬ TooLarge count (sidecarLen (subrange cells first past)) := by
  subst length
  rw [not_or, Nat.not_lt, Nat.not_lt]
  exact ⟨fun fits => ⟨fits.sidecar, fits.payload⟩, fun fits => ⟨fits.1, fits.2⟩⟩

theorem sidecarLen_empty (index : Nat) : sidecarLen (subrange cells index index) = 0 := by
  simp [subrange, sidecarLen]

theorem unitEnd_le {next : Nat} (inside : stop < columns)
    (ends : unitEnd columns (rowCells columns cells row) stop = .ok next) :
    stop < next ∧ next ≤ columns := by
  unfold unitEnd at ends
  split at ends
  · split at ends
    · cases ends
    next room =>
      cases ends
      omega
  · cases ends
    omega

theorem takeUnits_fits (lower : col ≤ stop) (upper : stop ≤ columns)
    (fits : stop = col ∨ Fits cells (row * columns + col) (row * columns + stop))
    (took : takeUnits columns (rowCells columns cells row) col fuel stop
      (sidecarLen (subrange cells (row * columns + col) (row * columns + stop))) = .ok last) :
    stop ≤ last ∧ last ≤ columns ∧ (last = col ∨ Fits cells (row * columns + col) (row * columns + last)) := by
  induction fuel generalizing stop with
  | zero =>
      cases took
      exact ⟨Nat.le_refl _, upper, fits⟩
  | succ fuel ih =>
      rw [takeUnits] at took
      split at took
      · cases took
        exact ⟨Nat.le_refl _, upper, fits⟩
      next more =>
      split at took
      · cases took
        exact ⟨Nat.le_refl _, upper, fits⟩
      next =>
      simp only [bind_eq_ok] at took
      obtain ⟨next, ends, unitSidecar, computed, took⟩ := took
      obtain ⟨further, inside⟩ := unitEnd_le (Nat.lt_of_not_le more) ends
      rw [subrange_rowCells inside] at computed
      rw [sidecarLen_of_eq computed, ← sidecarLen_split (by omega) (by omega)] at took
      split at took
      · cases took
        exact ⟨Nat.le_refl _, upper, fits⟩
      next room =>
        have nextFits := (fits_iff (show row * columns + next - (row * columns + col) = next - col by omega)).mpr room
        obtain ⟨later, rest⟩ := ih (by omega) inside (.inr nextFits) took
        exact ⟨by omega, rest⟩

theorem takeRows_fits {taken left : Nat} (fits : 0 < taken → Fits cells (row * columns) ((row + taken) * columns))
    (took : takeRows columns cells row left taken
      (sidecarLen (subrange cells (row * columns) ((row + taken) * columns))) = .ok last) :
    taken ≤ last ∧ last ≤ taken + left ∧ (0 < last → Fits cells (row * columns) ((row + last) * columns)) := by
  induction left generalizing taken with
  | zero =>
      cases took
      exact ⟨Nat.le_refl _, Nat.le_refl _, fits⟩
  | succ left ih =>
      have size : (row + taken + 1) * columns - row * columns = (taken + 1) * columns := by
        rw [← Nat.sub_mul]
        congr 1
        omega
      simp only [takeRows, bind_eq_ok] at took
      obtain ⟨rowSidecar, computed, took⟩ := took
      rw [sidecarLen_of_eq computed, rowCells,
        ← sidecarLen_split (Nat.mul_le_mul_right _ (by omega)) (Nat.mul_le_mul_right _ (by omega))] at took
      split at took
      · cases took
        exact ⟨Nat.le_refl _, by omega, fits⟩
      next room =>
        obtain ⟨lower, upper, rest⟩ := ih (fun _ => (fits_iff size).mpr room) took
        exact ⟨by omega, by omega, rest⟩

theorem takeRows_start {left : Nat} (took : takeRows columns cells row left 0 0 = .ok last) :
    last ≤ left ∧ (0 < last → Fits cells (row * columns) ((row + last) * columns)) := by
  have nothing : sidecarLen (subrange cells (row * columns) ((row + 0) * columns)) = 0 := sidecarLen_empty _
  have start : takeRows columns cells row left 0
      (sidecarLen (subrange cells (row * columns) ((row + 0) * columns))) = .ok last := by rw [nothing, took]
  obtain ⟨_, upper, fits⟩ := takeRows_fits (fun some => absurd some (Nat.lt_irrefl 0)) start
  exact ⟨by omega, fits⟩

/-- A span holds no more than fits into one chunk. -/
abbrev SpanPlan.Fits (span : SpanPlan) (cells : List ProjectionCell) : Prop :=
  Runtime.Fits cells span.cellStart (span.cellStart + span.cellCount)

theorem planRow_fits (planned : planRow columns cells row fuel col = .ok spans) (member : span ∈ spans) :
    span.Fits cells := by
  induction fuel generalizing col spans with
  | zero =>
      cases planned
      cases member
  | succ fuel ih =>
      rw [planRow] at planned
      split at planned
      · cases planned
        cases member
      next more =>
      simp only [bind_eq_ok, refuse_eq_ok, pure_eq_ok] at planned
      obtain ⟨stop, took, _, moved, rest, others, rfl⟩ := planned
      rw [← sidecarLen_empty (row * columns + col)] at took
      obtain ⟨lower, _, fits⟩ := takeUnits_fits (Nat.le_refl col) (Nat.le_of_not_le more) (.inl rfl) took
      cases List.mem_cons.mp member with
      | inl here =>
          subst here
          have past : row * columns + col + (stop - col) = row * columns + stop := by omega
          rw [SpanPlan.Fits, past]
          exact fits.resolve_left moved
      | inr later => exact ih others later

theorem planRows_fits {rowCount : Nat} (planned : planRows columns cells rowCount fuel row = .ok spans)
    (member : span ∈ spans) :
    span.Fits cells := by
  induction fuel generalizing row spans with
  | zero =>
      cases planned
      cases member
  | succ fuel ih =>
      rw [planRows] at planned
      split at planned
      · cases planned
        cases member
      next more =>
      simp only [bind_eq_ok] at planned
      obtain ⟨taken, took, planned⟩ := planned
      obtain ⟨_, fits⟩ := takeRows_start took
      split at planned
      next some =>
        simp only [bind_eq_ok, pure_eq_ok] at planned
        obtain ⟨rest, others, rfl⟩ := planned
        cases List.mem_cons.mp member with
        | inl here =>
            subst here
            have past : row * columns + taken * columns = (row + taken) * columns := (Nat.add_mul ..).symm
            rw [SpanPlan.Fits, past]
            exact fits some
        | inr later => exact ih others later
      next =>
        simp only [bind_eq_ok, pure_eq_ok] at planned
        obtain ⟨rowSpans, plannedRow, rest, others, rfl⟩ := planned
        cases List.mem_append.mp member with
        | inl here => exact planRow_fits plannedRow here
        | inr later => exact ih others later

theorem planV2Spans_fits (planned : planV2Spans columns cells = .ok spans) (member : span ∈ spans) :
    span.Fits cells := by
  simp only [planV2Spans, bind_eq_ok, refuse_eq_ok, pure_eq_ok] at planned
  obtain ⟨_, _, found, planned, _, _, rfl⟩ := planned
  exact planRows_fits planned member

/-- Neither a row nor a pair is cut here. -/
abbrev Boundary (cells : List ProjectionCell) (index : Nat) : Prop := isRole cells index .continuation = false

theorem WellFormedCells.boundary_row (formed : WellFormedCells columns cells) (row : Nat) :
    Boundary cells (row * columns) := by
  refine Bool.eq_false_iff.mpr fun continues => ?_
  exact (formed.continuation _ continues).1 (Nat.mul_mod_left row columns)

theorem WellFormedCells.member (formed : WellFormedCells columns cells) {first : Nat} {cell : ProjectionCell}
    (found : cell ∈ subrange cells first past) : cell.WellFormed := by
  obtain ⟨index, _, _, there⟩ := mem_subrange.mp found
  exact formed.each cell (List.mem_of_getElem? there)

theorem WellFormedCells.sidecar (formed : WellFormedCells columns cells) (first past : Nat) :
    sidecarBytesForCells (subrange cells first past) = .ok (sidecarLen (subrange cells first past)) :=
  sidecarBytesForCells_eq fun _ => formed.member

theorem WellFormedCells.unit (formed : WellFormedCells columns cells) (inside : stop < columns)
    (present : row * columns + stop < cells.length) :
    ∃ next, unitEnd columns (rowCells columns cells row) stop = .ok next ∧ stop < next ∧ next ≤ columns ∧
      next ≤ stop + 2 ∧ Boundary cells (row * columns + next) ∧
      sidecarLen (subrange cells (row * columns + stop) (row * columns + next)) ≤ maxGraphemeUtf8Bytes := by
  have there : cells[row * columns + stop]? = some cells[row * columns + stop] := List.getElem?_eq_getElem present
  have small := (formed.each _ (List.mem_of_getElem? there)).sidecarLen_le
  rw [← sidecarLen_single there] at small
  unfold unitEnd
  rw [isWide_rowCells inside]
  cases wide : isWide cells (row * columns + stop) with
  | true =>
      obtain ⟨sameRow, continues⟩ := formed.wide _ wide
      have room : stop + 1 < columns := by
        refine Nat.lt_of_le_of_ne inside fun last => sameRow ?_
        rw [Nat.add_assoc, last, ← Nat.succ_mul]
        exact Nat.mul_mod_left _ _
      rw [if_pos rfl, isRole_rowCells room, ← Nat.add_assoc, continues, if_neg (by simpa using room)]
      refine ⟨stop + 2, rfl, by omega, by omega, by omega, ?_, ?_⟩
      · refine Bool.eq_false_iff.mpr fun again => ?_
        have wideBefore := (formed.continuation _ again).2
        rw [show row * columns + (stop + 2) - 1 = row * columns + stop + 1 by omega,
          not_wide_of_continuation continues] at wideBefore
        cases wideBefore
      · obtain ⟨cell, found, role⟩ := isRole_iff.mp continues
        have none : cell.sidecarLen = 0 := ProjectionCell.sidecarLen_other (by simp [role])
        have last := sidecarLen_single found
        have parts := @sidecarLen_split cells (row * columns + stop) (row * columns + stop + 1)
          (row * columns + stop + 1 + 1) (by omega) (by omega)
        change sidecarLen (subrange cells (row * columns + stop) (row * columns + stop + 1 + 1)) ≤ _
        omega
  | false =>
      rw [if_neg Bool.false_ne_true]
      refine ⟨stop + 1, rfl, by omega, inside, by omega, ?_, small⟩
      refine Bool.eq_false_iff.mpr fun continues => ?_
      have wideBefore := (formed.continuation _ continues).2
      rw [show row * columns + (stop + 1) - 1 = row * columns + stop by omega, wide] at wideBefore
      cases wideBefore

theorem takeUnits_spec (formed : WellFormedCells columns cells) (present : (row + 1) * columns ≤ cells.length)
    (first : col < columns) (lower : col ≤ stop) (upper : stop ≤ columns) (enough : columns - stop ≤ fuel)
    (boundary : Boundary cells (row * columns + stop)) :
    ∃ last, takeUnits columns (rowCells columns cells row) col fuel stop
        (sidecarLen (subrange cells (row * columns + col) (row * columns + stop))) = .ok last ∧
      col < last ∧ last ≤ columns ∧ Boundary cells (row * columns + last) := by
  induction fuel generalizing stop with
  | zero =>
      have done : stop = columns := by omega
      exact ⟨stop, rfl, by omega, upper, boundary⟩
  | succ fuel ih =>
      rw [takeUnits]
      by_cases done : columns ≤ stop
      · rw [if_pos done]
        exact ⟨stop, rfl, by omega, upper, boundary⟩
      have inside : stop < columns := Nat.lt_of_not_le done
      have bound : row * columns + stop < cells.length := by
        rw [Nat.succ_mul] at present
        omega
      obtain ⟨next, ends, further, nextInside, near, nextBoundary, small⟩ := formed.unit inside bound
      have parts := @sidecarLen_split cells (row * columns + col) (row * columns + stop) (row * columns + next)
        (by omega) (by omega)
      rw [if_neg done, isRole_rowCells inside, boundary, if_neg (by simp), ends, ok_bind, subrange_rowCells nextInside,
        formed.sidecar, ok_bind]
      dsimp only
      rw [← parts]
      split
      next large =>
        -- The first unit always fits.
        have moved : stop ≠ col := by
          rintro rfl
          have nothing := @sidecarLen_empty cells (row * columns + stop)
          simp only [TooLarge, chunkPayload, maxChunkPayload, maxGraphemeSidecarBytes, displayChunkHeaderV2Len,
            displayCellLen, maxFramePayload, PresentationEnvelope.prefixLen] at large
          simp only [maxGraphemeUtf8Bytes] at small
          omega
        exact ⟨stop, rfl, by omega, upper, boundary⟩
      next => exact ih (by omega) nextInside (by omega) nextBoundary

/-- A span of the plan: where it stands, that the client accepts it, and that it keeps pairs together. -/
structure SpanFormed (columns : Nat) (cells : List ProjectionCell) (span : SpanPlan) : Prop where
  place : span.cellStart = span.rowOffset * columns + span.firstCol
  valid : validateV2Span span.firstCol span.rowCount span.cellCount columns = .ok ()
  starts : Boundary cells span.cellStart
  ends : Boundary cells (span.cellStart + span.cellCount)

/-- The spans follow each other without a gap, and none is empty. -/
inductive Tiles : Nat → List SpanPlan → Nat → Prop
  | done (stop : Nat) : Tiles stop [] stop
  | span {stop : Nat} {span : SpanPlan} {rest : List SpanPlan} (some : 0 < span.cellCount)
      (tiles : Tiles (span.cellStart + span.cellCount) rest stop) : Tiles span.cellStart (span :: rest) stop

theorem Tiles.cons {span : SpanPlan} {rest : List SpanPlan} {start middle stop : Nat} (first : span.cellStart = start)
    (some : 0 < span.cellCount) (past : start + span.cellCount = middle) (tiles : Tiles middle rest stop) :
    Tiles start (span :: rest) stop := by
  subst first past
  exact .span some tiles

theorem Tiles.nil (tiles : Tiles start [] stop) : start = stop := by
  cases tiles
  rfl

theorem Tiles.le (tiles : Tiles start spans stop) : start ≤ stop := by
  induction tiles with
  | done => exact Nat.le_refl _
  | span _ _ ih => omega

theorem Tiles.inside (tiles : Tiles start spans stop) (member : span ∈ spans) :
    span.cellStart + span.cellCount ≤ stop := by
  induction tiles with
  | done => cases member
  | span _ rest ih =>
      cases List.mem_cons.mp member with
      | inl here => exact here ▸ rest.le
      | inr later => exact ih later

theorem Tiles.append {first second : List SpanPlan} {middle : Nat} (early : Tiles start first middle)
    (late : Tiles middle second stop) : Tiles start (first ++ second) stop := by
  induction early with
  | done => exact late
  | span some _ ih => exact .span some (ih late)

theorem validateV2Span_row (taken : Nat) (some : 0 < taken) (columns_pos : 0 < columns) :
    validateV2Span 0 taken (taken * columns) columns = .ok () := by
  have cells := Nat.mul_pos some columns_pos
  simp only [validateV2Span, refuse_bind_eq_ok, refuse_eq_ok]
  exact ⟨by omega, by simp⟩

theorem validateV2Span_part {count : Nat} (some : 0 < count) (inside : col + count ≤ columns) :
    validateV2Span col 1 count columns = .ok () := by
  simp only [validateV2Span, refuse_bind_eq_ok, refuse_eq_ok]
  exact ⟨by omega, by simp [inside]⟩

theorem planRow_spec (formed : WellFormedCells columns cells) (present : (row + 1) * columns ≤ cells.length)
    {fuel : Nat} (inside : col ≤ columns) (enough : columns - col ≤ fuel)
    (boundary : Boundary cells (row * columns + col)) :
    ∃ spans, planRow columns cells row fuel col = .ok spans ∧
      Tiles (row * columns + col) spans ((row + 1) * columns) ∧ ∀ span ∈ spans, SpanFormed columns cells span := by
  have atEnd {past : Nat} (done : past = columns) : Tiles (row * columns + past) [] ((row + 1) * columns) := by
    rw [done, Nat.succ_mul]
    exact .done _
  induction fuel generalizing col with
  | zero => exact ⟨[], rfl, atEnd (by omega), nofun⟩
  | succ fuel ih =>
      rw [planRow]
      by_cases done : columns ≤ col
      · rw [if_pos done]
        exact ⟨[], rfl, atEnd (by omega), nofun⟩
      have first : col < columns := Nat.lt_of_not_le done
      obtain ⟨last, took, moved, lastInside, lastBoundary⟩ :=
        takeUnits_spec formed present first (Nat.le_refl col) first.le (Nat.le_refl _) boundary
      have progress : refuse (last = col) DisplayError.invalidLength = .ok () := refuse_eq_ok.mpr (by omega)
      obtain ⟨rest, planned, tiles, each⟩ := ih lastInside (by omega) lastBoundary
      have past : row * columns + col + (last - col) = row * columns + last := by omega
      rw [sidecarLen_empty] at took
      rw [if_neg done, took, ok_bind, progress, ok_bind, planned, ok_bind]
      refine ⟨_, rfl, .cons rfl (Nat.sub_pos_of_lt moved) past tiles, ?_⟩
      intro span member
      cases List.mem_cons.mp member with
      | inl here =>
          subst here
          refine ⟨rfl, validateV2Span_part (Nat.sub_pos_of_lt moved) (show col + (last - col) ≤ columns by omega),
            boundary, ?_⟩
          exact past ▸ lastBoundary
      | inr later => exact each span later

theorem takeRows_spec (formed : WellFormedCells columns cells) (taken sidecar left : Nat) :
    ∃ last, takeRows columns cells row left taken sidecar = .ok last := by
  induction left generalizing taken sidecar with
  | zero => exact ⟨taken, rfl⟩
  | succ left ih =>
      rw [takeRows, rowCells, formed.sidecar, ok_bind]
      dsimp only
      split
      · exact ⟨taken, rfl⟩
      · exact ih _ _

theorem planRows_spec (formed : WellFormedCells columns cells) {rowCount : Nat}
    (length : cells.length = rowCount * columns) {fuel : Nat} (inside : row ≤ rowCount) (enough : rowCount - row ≤ fuel) :
    ∃ spans, planRows columns cells rowCount fuel row = .ok spans ∧ Tiles (row * columns) spans cells.length ∧
      ∀ span ∈ spans, SpanFormed columns cells span := by
  have atEnd {past : Nat} (done : past = rowCount) : Tiles (past * columns) [] cells.length := by
    rw [done, ← length]
    exact .done _
  induction fuel generalizing row with
  | zero => exact ⟨[], rfl, atEnd (by omega), nofun⟩
  | succ fuel ih =>
      rw [planRows]
      by_cases done : rowCount ≤ row
      · rw [if_pos done]
        exact ⟨[], rfl, atEnd (by omega), nofun⟩
      have present {past : Nat} (inside : past ≤ rowCount) : past * columns ≤ cells.length := by
        rw [length]
        exact Nat.mul_le_mul_right columns inside
      obtain ⟨taken, took⟩ := @takeRows_spec columns row cells formed 0 0 (rowCount - row)
      have upper := (takeRows_start took).1
      rw [if_neg done, took, ok_bind]
      split
      next some =>
        obtain ⟨rest, planned, tiles, each⟩ := ih (show row + taken ≤ rowCount by omega) (by omega)
        have past : row * columns + taken * columns = (row + taken) * columns := (Nat.add_mul ..).symm
        rw [planned, ok_bind]
        refine ⟨_, rfl, .cons rfl (Nat.mul_pos some formed.columns_pos) past tiles, ?_⟩
        intro span member
        cases List.mem_cons.mp member with
        | inl here =>
            subst here
            refine ⟨rfl, validateV2Span_row taken some formed.columns_pos, formed.boundary_row row, ?_⟩
            exact past ▸ formed.boundary_row (row + taken)
        | inr later => exact each span later
      next =>
        obtain ⟨spans, plannedRow, tilesRow, eachRow⟩ := @planRow_spec columns row 0 cells formed
          (present (by omega)) columns (Nat.zero_le _) (Nat.sub_le _ _) (formed.boundary_row row)
        obtain ⟨rest, planned, tiles, each⟩ := ih (show row + 1 ≤ rowCount by omega) (by omega)
        rw [plannedRow, ok_bind, planned, ok_bind]
        refine ⟨_, rfl, tilesRow.append tiles, fun span member => ?_⟩
        cases List.mem_append.mp member with
        | inl here => exact eachRow span here
        | inr later => exact each span later

theorem planV2Spans_spec (formed : WellFormedCells columns cells) :
    ∃ spans, planV2Spans columns cells = .ok spans ∧ Tiles 0 spans cells.length ∧
      ∀ span ∈ spans, SpanFormed columns cells span := by
  obtain ⟨rows, some, _, length⟩ := formed.rows
  have rowCount : cells.length / columns = rows := by rw [length, Nat.mul_div_cancel _ formed.columns_pos]
  obtain ⟨spans, planned, tiles, each⟩ := @planRows_spec columns 0 cells formed rows length rows (Nat.zero_le _)
    (Nat.sub_le _ _)
  rw [Nat.zero_mul] at tiles
  refine ⟨spans, ?_, tiles, each⟩
  rw [planV2Spans, refuse_bind_eq_ok, bind_eq_ok]
  refine ⟨not_not_intro (by rw [length, Nat.mul_mod_left]), spans, by rw [rowCount]; exact planned, ?_⟩
  rw [refuse_bind_eq_ok]
  refine ⟨?_, rfl⟩
  rintro rfl
  have empty := tiles.nil
  have size := Nat.mul_pos some formed.columns_pos
  omega

end Rows

end Seyal.Runtime
