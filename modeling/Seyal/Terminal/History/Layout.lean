import Mathlib.Data.List.ModifyLast
import Seyal.Program.Fill
import Seyal.Terminal.History.Reflow

namespace Seyal.Terminal

open Program

/-! What a reflow is for: each paragraph fills rows of its own, and a hard break
ends the last of them. The loop of `reflowUncachedFrom` computes that layout. -/

abbrev PlacedUnit := HistoryAnchor × HistoryUnit

def PlacedUnit.columns (unit : PlacedUnit) : Nat := max unit.2.width 1

section Layout

variable [Unicode] (cols : Nat)

def rowOf (breakAfter : Option HistoryBreakAfter) (units : List PlacedUnit) : ReflowRow where
  sourceLineId := units.head?.map (·.1.lineId)
  anchors := units.map (·.1)
  cells := if units.any (cols < ·.columns) then [] else units.flatMap (·.2.reflowWireCells)
  breakAfter
  unavailable := units.any (cols < ·.columns)

/-- Rows of one paragraph: soft breaks between them, the given one at the end. -/
def paragraphRows (breakAfter : HistoryBreakAfter) (rows : List (List PlacedUnit)) : List ReflowRow :=
  rows.dropLast.map (rowOf cols (some .softWrap)) ++ rows.getLast?.toList.map (rowOf cols (some breakAfter))

/-- The rows up to a hard break. A paragraph without units is a blank row, but
not behind a row that is unavailable. -/
def closeRows (before : List ReflowRow) (rows : List (List PlacedUnit)) (lineId : LineId) : List ReflowRow :=
  if rows.isEmpty then
    if before.getLast?.any (·.unavailable) then before
    else before ++ [{ sourceLineId := some lineId, breakAfter := some .hardBreak }]
  else before ++ paragraphRows cols .hardBreak rows

abbrev fillUnits (fill : Fill PlacedUnit) (units : List PlacedUnit) : Fill PlacedUnit :=
  fill.places PlacedUnit.columns cols units

def layRows (before : List ReflowRow) (fill : Fill PlacedUnit) : List HistoryLine → List ReflowRow
  | [] => before ++ paragraphRows cols .softWrap fill.rows
  | line :: rest =>
      let fill := fillUnits cols fill line.anchoredUnits
      if line.breakAfter = .hardBreak then layRows (closeRows cols before fill.rows line.lineId) {} rest
      else layRows before fill rest

end Layout

section Rows

variable {cols : Nat} {units : List PlacedUnit} {breakAfter : Option HistoryBreakAfter}

theorem any_wide_of_narrow (narrow : ∀ unit ∈ units, unit.columns ≤ cols) : units.any (cols < ·.columns) = false := by
  simpa using narrow

variable [Unicode]

theorem rowOf_narrow (narrow : ∀ unit ∈ units, unit.columns ≤ cols) :
    rowOf cols breakAfter units =
      { sourceLineId := units.head?.map (·.1.lineId)
        anchors := units.map (·.1)
        cells := units.flatMap (·.2.reflowWireCells)
        breakAfter } := by
  rw [rowOf, any_wide_of_narrow narrow]
  rfl

theorem rowOf_wide {unit : PlacedUnit} (wide : cols < unit.columns) :
    rowOf cols breakAfter [unit] =
      { sourceLineId := some unit.1.lineId, anchors := [unit.1], breakAfter, unavailable := true } := by
  simp [rowOf, wide]

theorem cells_rowOf_eq_nil (narrow : ∀ unit ∈ units, unit.columns ≤ cols) :
    (rowOf cols breakAfter units).cells = [] ↔ units = [] := by
  rw [rowOf_narrow narrow]
  cases units with
  | nil => simp
  | cons unit rest => simp [HistoryUnit.reflowWireCells]

theorem paragraphRows_soft (rows : List (List PlacedUnit)) :
    paragraphRows cols .softWrap rows = rows.map (rowOf cols (some .softWrap)) := by
  rw [paragraphRows, ← List.map_append]
  congr 1
  rcases rows.eq_nil_or_concat' with rfl | ⟨front, last, rfl⟩
  · rfl
  · simp

theorem paragraphRows_concat (breakAfter : HistoryBreakAfter) (front : List (List PlacedUnit))
    (last : List PlacedUnit) :
    paragraphRows cols breakAfter (front ++ [last]) =
      front.map (rowOf cols (some .softWrap)) ++ [rowOf cols (some breakAfter) last] := by
  simp [paragraphRows]

theorem closeRows_nil_unavailable {before : List ReflowRow} (last : before.getLast?.any (·.unavailable) = true)
    (lineId : LineId) : closeRows cols before [] lineId = before := by
  rw [closeRows, if_pos List.isEmpty_nil, if_pos last]

theorem closeRows_nil {before : List ReflowRow} (last : before.getLast?.any (·.unavailable) = false)
    (lineId : LineId) :
    closeRows cols before [] lineId =
      before ++ [{ sourceLineId := some lineId, breakAfter := some .hardBreak }] := by
  rw [closeRows, if_pos List.isEmpty_nil, if_neg (by simp [last])]

theorem closeRows_concat (before : List ReflowRow) (front : List (List PlacedUnit)) (last : List PlacedUnit)
    (lineId : LineId) :
    closeRows cols before (front ++ [last]) lineId =
      before ++ front.map (rowOf cols (some .softWrap)) ++ [rowOf cols (some .hardBreak) last] := by
  rw [closeRows, if_neg (by simp), paragraphRows_concat, List.append_assoc]

end Rows

namespace Reflow

/-- The state of the loop shows the rows before this paragraph and what the
paragraph has filled. -/
structure Shows [Unicode] (cols : Nat) (before : List ReflowRow) (fill : Fill PlacedUnit) (state : Reflow) :
    Prop where
  rows : state.rows = before ++ fill.done.map (rowOf cols (some .softWrap))
  current : state.current = rowOf cols none fill.current
  used : state.used = fill.used

/-- The loop returned early with rows of the paragraph that is being filled. -/
structure Stopped [Unicode] (cols : Nat) (maxRows : Option Nat) (before : List ReflowRow)
    (done : List (List PlacedUnit)) (rows : List ReflowRow) : Prop where
  limit : maxRows = some rows.length
  begins : ∃ first more, done = first ++ more ∧ first ≠ [] ∧ rows = before ++ first.map (rowOf cols (some .softWrap))

def Below (maxRows : Option Nat) (rows : List ReflowRow) : Prop := limitReached maxRows rows = false

/-- How a step of the loop ends. -/
def Ends (continues : Reflow → Prop) (stops : List ReflowRow → Prop) : Except (List ReflowRow) Reflow → Prop
  | .ok state => continues state
  | .error rows => stops rows

section Ends

variable {continues next : Reflow → Prop} {stops stopped : List ReflowRow → Prop}
  {first : Except (List ReflowRow) Reflow} {then_ : Reflow → Except (List ReflowRow) Reflow}

theorem Ends.bind (ends : Ends continues stops first) (later : ∀ state, continues state → Ends next stopped (then_ state))
    (early : ∀ rows, stops rows → stopped rows) : Ends next stopped (first >>= then_) := by
  cases first with
  | ok state => exact later state ends
  | error rows => exact early rows ends

theorem Ends.imp (ends : Ends continues stops first) (later : ∀ state, continues state → next state)
    (early : ∀ rows, stops rows → stopped rows) : Ends next stopped first := by
  cases first with
  | ok state => exact later state ends
  | error rows => exact early rows ends

theorem Ends.map {change : Reflow → Reflow} (ends : Ends continues stops first)
    (later : ∀ state, continues state → next (change state)) (early : ∀ rows, stops rows → stopped rows) :
    Ends next stopped (first.map change) := by
  cases first with
  | ok state => exact later state ends
  | error rows => exact early rows ends

end Ends

/-- A row more at most: the limit is exactly reached or not at all. -/
theorem limit_of_grown {maxRows : Option Nat} {rows grown : List ReflowRow} (below : Below maxRows rows)
    (one : grown.length ≤ rows.length + 1) (reached : limitReached maxRows grown = true) :
    maxRows = some grown.length := by
  cases maxRows with
  | none => cases reached
  | some limit =>
      simp only [Below, limitReached, Option.any_some, decide_eq_false_iff_not, decide_eq_true_eq] at below reached
      rw [Option.some.injEq]
      omega

theorem checked_ends {maxRows : Option Nat} {rows : List ReflowRow} {state : Reflow} (below : Below maxRows rows)
    (one : state.rows.length ≤ rows.length + 1) :
    Ends (fun after => after = state ∧ Below maxRows state.rows)
      (fun after => after = state.rows ∧ maxRows = some state.rows.length) (state.checked maxRows) := by
  unfold checked
  split
  next reached => exact ⟨rfl, limit_of_grown below one reached⟩
  next clear => exact ⟨rfl, by simpa [Below] using clear⟩

theorem markLastUnavailable_concat (rows : List ReflowRow) (row : ReflowRow) :
    markLastUnavailable (rows ++ [row]) = rows ++ [{ row with breakAfter := some .hardBreak }] := by
  exact List.modifyLast_concat _ _ _

/-- Rows in front of a paragraph never change: an unavailable row at their end
has its hard break already. -/
def Settled (before : List ReflowRow) : Prop :=
  ∀ row ∈ before.getLast?, row.unavailable = true → row.breakAfter = some .hardBreak

theorem markLastUnavailable_settled {before : List ReflowRow} (settled : Settled before)
    (last : before.getLast?.any (·.unavailable) = true) :
    markLastUnavailable before = before := by
  rcases before.eq_nil_or_concat' with rfl | ⟨front, row, rfl⟩
  · cases last
  · rw [List.getLast?_concat] at last
    rw [markLastUnavailable_concat, ← settled row List.getLast?_concat last]

theorem closeLine_of_current {state : Reflow} (nonempty : state.current.cells ≠ []) (lineId : LineId) :
    state.closeLine lineId = { state.push (some .hardBreak) with used := 0, previousBreak := none } := by
  rw [closeLine, if_neg (fun empty => nonempty empty.1)]

theorem closeLine_of_unavailable {state : Reflow} (bare : state.current = {})
    (last : state.rows.getLast?.any (·.unavailable) = true)
    (lineId : LineId) :
    state.closeLine lineId =
      { state with rows := markLastUnavailable state.rows, used := 0, previousBreak := none } := by
  rw [closeLine, if_pos (by simp [bare]), if_pos last]

theorem closeLine_of_blank {state : Reflow} (bare : state.current = {})
    (last : state.rows.getLast?.any (·.unavailable) = false)
    (lineId : LineId) :
    state.closeLine lineId =
      { rows := state.rows ++ [{ sourceLineId := some lineId, breakAfter := some .hardBreak }] } := by
  rw [closeLine, if_pos (by simp [bare]), if_neg (by simp [last]), push, bare]

theorem closeLine_grows (state : Reflow) (lineId : LineId) :
    (state.closeLine lineId).rows.length ≤ state.rows.length + 1 := by
  unfold closeLine
  dsimp only
  split
  next =>
      split
      next =>
          rcases state.rows.eq_nil_or_concat' with empty | ⟨front, last, whole⟩
          · rw [empty]
            exact Nat.zero_le _
          · rw [whole, markLastUnavailable_concat]
            simp
      next => simp [push]
  next => simp [push]

/-- The units of the current row fit. -/
def Narrow (cols : Nat) (units : List PlacedUnit) : Prop := ∀ unit ∈ units, unit.columns ≤ cols

theorem narrow_nil {cols : Nat} : Narrow cols [] := by
  simp [Narrow]

section Steps

variable [Unicode] {cols : Nat} {maxRows : Option Nat} {before : List ReflowRow} {fill : Fill PlacedUnit}
  {state : Reflow} {unit : PlacedUnit}

theorem rowOf_nil : rowOf cols none [] = {} := rfl

theorem Stopped.mono {done more : List (List PlacedUnit)} {rows : List ReflowRow}
    (stopped : Stopped cols maxRows before done rows) : Stopped cols maxRows before (done ++ more) rows := by
  obtain ⟨limit, first, rest, rfl, nonempty, shown⟩ := stopped
  exact ⟨limit, first, rest ++ more, List.append_assoc _ _ _, nonempty, shown⟩

theorem Shows.rows_push (shows : Shows cols before fill state) (nonempty : fill.current ≠ []) :
    (state.push (some .softWrap)).rows = before ++ fill.rows.map (rowOf cols (some .softWrap)) := by
  rw [Fill.rows_of_current nonempty, List.map_append, ← List.append_assoc, ← shows.rows, push, shows.current]
  rfl

theorem Shows.push_ends (shows : Shows cols before fill state) (below : Below maxRows state.rows)
    (nonempty : fill.current ≠ []) :
    Ends (fun after => Shows cols before { done := fill.rows, used := fill.used } after ∧ Below maxRows after.rows)
      (Stopped cols maxRows before fill.rows) ((state.push (some .softWrap)).checked maxRows) := by
  have pushed := shows.rows_push nonempty
  refine (checked_ends below (by simp [push])).imp ?_ ?_
  · rintro _ ⟨rfl, still⟩
    exact ⟨⟨pushed, rowOf_nil.symm, shows.used⟩, still⟩
  · rintro _ ⟨rfl, limit⟩
    exact ⟨limit, fill.rows, [], (List.append_nil _).symm, by simp [Fill.rows_of_current nonempty], pushed⟩

theorem Shows.cells_eq_nil (shows : Shows cols before fill state) (fit : Narrow cols fill.current) :
    state.current.cells = [] ↔ fill.current = [] := by
  rw [shows.current]
  exact cells_rowOf_eq_nil fit

theorem makeRoomWithin_ends (shows : Shows cols before fill state) (fit : Narrow cols fill.current)
    (below : Below maxRows state.rows) (started : 0 < fill.used) (full : cols < fill.used + unit.columns) :
    Ends (fun after => Shows cols before { done := fill.rows } after ∧ Below maxRows after.rows)
      (Stopped cols maxRows before fill.rows) (state.makeRoomWithin maxRows cols unit.columns) := by
  have condition : state.used > 0 ∧ state.used + unit.columns > cols := by
    rw [shows.used]
    exact ⟨started, full⟩
  rw [makeRoomWithin, if_pos condition]
  by_cases bare : fill.current = []
  · rw [if_neg (not_not_intro ((shows.cells_eq_nil fit).mpr bare))]
    refine ⟨⟨?_, ?_, rfl⟩, below⟩
    · rw [Fill.rows_of_bare bare]
      exact shows.rows
    · rw [← bare]
      exact shows.current
  · rw [if_pos (mt (shows.cells_eq_nil fit).mp bare)]
    refine (shows.push_ends below bare).map ?_ (fun _ stopped => stopped)
    rintro after ⟨shown, still⟩
    exact ⟨⟨shown.rows, shown.current, rfl⟩, still⟩

theorem makeRoomWithin_stays (shows : Shows cols before fill state)
    (room : fill.used = 0 ∨ fill.used + unit.columns ≤ cols) :
    state.makeRoomWithin maxRows cols unit.columns = .ok state := by
  rw [makeRoomWithin, if_neg]
  rw [shows.used]
  omega

theorem flushWithin_ends (shows : Shows cols before fill state) (fit : Narrow cols fill.current)
    (below : Below maxRows state.rows) :
    Ends (fun after => Shows cols before { done := fill.rows, used := fill.used } after ∧ Below maxRows after.rows)
      (Stopped cols maxRows before fill.rows) (state.flushWithin maxRows) := by
  rw [flushWithin]
  by_cases bare : fill.current = []
  · rw [if_neg]
    · refine ⟨⟨?_, ?_, shows.used⟩, below⟩
      · rw [Fill.rows_of_bare bare]
        exact shows.rows
      · rw [← bare]
        exact shows.current
    · rw [shows.current, bare, rowOf_nil]
      simp
  · rw [if_pos (.inl (mt (shows.cells_eq_nil fit).mp bare))]
    exact shows.push_ends below bare

theorem placeUnavailableWithin_ends (shows : Shows cols before fill state)
    (fit : Narrow cols fill.current) (below : Below maxRows state.rows) (wide : cols < unit.columns) :
    Ends (fun after => Shows cols before { done := fill.rows ++ [[unit]] } after ∧ Below maxRows after.rows)
      (Stopped cols maxRows before (fill.rows ++ [[unit]])) (state.placeUnavailableWithin maxRows unit.1) := by
  refine (flushWithin_ends shows fit below).bind ?_ (fun _ stopped => stopped.mono)
  rintro flushed ⟨shown, still⟩
  have placed : flushed.rows ++ [rowOf cols (some .softWrap) [unit]] =
      before ++ (fill.rows ++ [[unit]]).map (rowOf cols (some .softWrap)) := by
    rw [List.map_append, ← List.append_assoc, shown.rows]
    rfl
  rw [← rowOf_wide wide]
  refine (checked_ends still (by simp)).imp ?_ ?_
  · rintro _ ⟨rfl, under⟩
    exact ⟨⟨placed, shown.current, rfl⟩, under⟩
  · rintro _ ⟨rfl, limit⟩
    exact ⟨limit, _, [], (List.append_nil _).symm, by simp, placed⟩

theorem placeAvailable_shows (shows : Shows cols before fill state) (fit : Narrow cols fill.current)
    (narrow : unit.columns ≤ cols) :
    Shows cols before { fill with current := fill.current ++ [unit], used := fill.used + unit.columns }
      (state.placeAvailable unit) := by
  refine ⟨shows.rows, ?_, congrArg (· + unit.columns) shows.used⟩
  have all : Narrow cols (fill.current ++ [unit]) := by
    intro other member
    obtain older | rfl : other ∈ fill.current ∨ other = unit := by simpa using member
    · exact fit other older
    · exact narrow
  rw [rowOf_narrow all, placeAvailable, shows.current, rowOf_narrow fit]
  cases fill.current with
  | nil | cons first rest => simp

theorem placeUnitWithin_ends (shows : Shows cols before fill state) (fit : Narrow cols fill.current)
    (below : Below maxRows state.rows) (unit : PlacedUnit) :
    Ends (fun after => Shows cols before (fill.place PlacedUnit.columns cols unit) after ∧ Below maxRows after.rows)
      (Stopped cols maxRows before (fill.place PlacedUnit.columns cols unit).done)
      (placeUnitWithin cols maxRows state unit) := by
  unfold placeUnitWithin
  obtain wide | ⟨narrow, started, full⟩ | ⟨narrow, room⟩ := Fill.place_cases PlacedUnit.columns cols fill unit
  · rw [Fill.place_wide wide]
    simp only [show max unit.2.width 1 > cols from wide, if_true]
    by_cases started : 0 < fill.used
    · refine (makeRoomWithin_ends shows fit below started (Nat.lt_add_left _ wide)).bind ?_
        (fun _ stopped => stopped.mono)
      rintro after ⟨shown, still⟩
      have placed := placeUnavailableWithin_ends shown narrow_nil still wide
      exact placed
    · rw [show (max unit.2.width 1) = unit.columns from rfl, makeRoomWithin_stays shows (.inl (by omega))]
      exact placeUnavailableWithin_ends shows fit below wide
  · rw [Fill.place_next narrow started full]
    simp only [show ¬ max unit.2.width 1 > cols from Nat.not_lt.mpr narrow, if_false]
    refine (makeRoomWithin_ends shows fit below started full).bind ?_ (fun _ stopped => stopped)
    rintro after ⟨shown, still⟩
    exact ⟨by simpa using placeAvailable_shows shown narrow_nil narrow, still⟩
  · rw [Fill.place_here narrow room]
    simp only [show ¬ max unit.2.width 1 > cols from Nat.not_lt.mpr narrow, if_false]
    rw [show (max unit.2.width 1) = unit.columns from rfl, makeRoomWithin_stays shows room]
    exact ⟨placeAvailable_shows shows fit narrow, below⟩

theorem placeUnitsWithin_ends (shows : Shows cols before fill state) (shaped : fill.Shaped PlacedUnit.columns cols)
    (below : Below maxRows state.rows) (units : List PlacedUnit) :
    Ends (fun after => Shows cols before (fillUnits cols fill units) after ∧ Below maxRows after.rows)
      (Stopped cols maxRows before (fillUnits cols fill units).done)
      (units.foldlM (placeUnitWithin cols maxRows) state) := by
  induction units generalizing fill state with
  | nil => exact ⟨shows, below⟩
  | cons unit units ih =>
      rw [List.foldlM_cons]
      refine (placeUnitWithin_ends shows shaped.narrow below unit).bind ?_ ?_
      · rintro after ⟨shown, still⟩
        exact ih shown (shaped.place unit) still
      · intro rows stopped
        obtain ⟨more, grown⟩ := Fill.done_places (fill.place PlacedUnit.columns cols unit) units
        rw [show (fillUnits cols fill (unit :: units)).done = _ from grown]
        exact stopped.mono

theorem closeLine_shows (shows : Shows cols before fill state) (shaped : fill.Shaped PlacedUnit.columns cols)
    (settled : Settled before) (lineId : LineId) :
    Shows cols (closeRows cols before fill.rows lineId) {} (state.closeLine lineId) := by
  by_cases bare : fill.current = []
  · have blank : state.current = {} := by rw [shows.current, bare, rowOf_nil]
    rw [Fill.rows_of_bare bare]
    rcases fill.done.eq_nil_or_concat' with empty | ⟨front, last, whole⟩
    · have rows : state.rows = before := by rw [shows.rows, empty]; exact List.append_nil _
      rw [empty]
      by_cases unavailable : before.getLast?.any (·.unavailable) = true
      · rw [closeLine_of_unavailable blank (rows ▸ unavailable), rows, markLastUnavailable_settled settled unavailable,
          closeRows_nil_unavailable unavailable]
        exact ⟨(List.append_nil _).symm, blank, rfl⟩
      · rw [Bool.not_eq_true] at unavailable
        rw [closeLine_of_blank blank (rows ▸ unavailable), rows, closeRows_nil unavailable]
        exact ⟨(List.append_nil _).symm, rfl, rfl⟩
    -- The paragraph ends with a unit that is wider than a row.
    · obtain ⟨unit, rfl, wide⟩ := shaped.alone bare last (by rw [whole, List.getLast?_concat]; rfl)
      have rows : state.rows =
          before ++ front.map (rowOf cols (some .softWrap)) ++ [rowOf cols (some .softWrap) [unit]] := by
        rw [shows.rows, whole, List.map_append, List.append_assoc]
        rfl
      have unavailable : state.rows.getLast?.any (·.unavailable) = true := by
        rw [rows, List.getLast?_concat, rowOf_wide wide]
        rfl
      rw [closeLine_of_unavailable blank unavailable, rows, markLastUnavailable_concat, whole, closeRows_concat]
      exact ⟨(List.append_nil _).symm, blank, rfl⟩
  · rw [closeLine_of_current (mt (shows.cells_eq_nil shaped.narrow).mp bare), Fill.rows_of_current bare,
      closeRows_concat, ← shows.rows, push, shows.current]
    exact ⟨(List.append_nil _).symm, rfl, rfl⟩

theorem settled_closeRows (settled : Settled before) (rows : List (List PlacedUnit)) (lineId : LineId) :
    Settled (closeRows cols before rows lineId) := by
  rcases rows.eq_nil_or_concat' with rfl | ⟨front, last, rfl⟩
  · by_cases unavailable : before.getLast?.any (·.unavailable) = true
    · rw [closeRows_nil_unavailable unavailable]
      exact settled
    · rw [Bool.not_eq_true] at unavailable
      rw [closeRows_nil unavailable]
      intro row last _
      rw [List.getLast?_concat] at last
      rw [← Option.some.inj last]
  · rw [closeRows_concat]
    intro row last _
    rw [List.getLast?_concat] at last
    rw [← Option.some.inj last]
    rfl

/-- Between two lines. A row is kept open only across a soft wrap. -/
structure AtLine (cols : Nat) (before : List ReflowRow) (fill : Fill PlacedUnit) (state : Reflow) : Prop
    extends Shows cols before fill state where
  shaped : fill.Shaped PlacedUnit.columns cols
  settled : Settled before
  joins : state.previousBreak = some .softWrap ∨ fill.current = []

theorem startLineWithin_stays (at_line : AtLine cols before fill state) : state.startLineWithin maxRows = .ok state := by
  rw [startLineWithin, if_neg]
  rintro ⟨fresh, nonempty⟩
  rw [Ne, at_line.cells_eq_nil at_line.shaped.narrow] at nonempty
  exact at_line.joins.elim fresh nonempty

theorem lineUnitsWithin_ends (at_line : AtLine cols before fill state) (below : Below maxRows state.rows)
    (units : List PlacedUnit) (breakAfter : HistoryBreakAfter) :
    Ends
      (fun after =>
        Shows cols before (fillUnits cols fill units) { after with previousBreak := some breakAfter } ∧
          Below maxRows after.rows)
      (Stopped cols maxRows before (fillUnits cols fill units).done)
      (units.foldlM (placeUnitWithin cols maxRows) state) := by
  refine (placeUnitsWithin_ends at_line.toShows at_line.shaped below units).imp ?_ (fun _ stopped => stopped)
  rintro after ⟨shown, still⟩
  exact ⟨⟨shown.rows, shown.current, shown.used⟩, still⟩

theorem placeLineWithin_soft (at_line : AtLine cols before fill state) (below : Below maxRows state.rows)
    {line : HistoryLine} (soft : line.breakAfter ≠ .hardBreak) :
    Ends (fun after => AtLine cols before (fillUnits cols fill line.anchoredUnits) after ∧ Below maxRows after.rows)
      (Stopped cols maxRows before (fillUnits cols fill line.anchoredUnits).done)
      (placeLineWithin cols maxRows state line) := by
  rw [placeLineWithin, startLineWithin_stays at_line]
  refine (lineUnitsWithin_ends at_line below _ line.breakAfter).bind ?_ (fun _ stopped => stopped)
  rintro after ⟨shown, still⟩
  rw [if_neg soft]
  have wraps : line.breakAfter = .softWrap := by
    cases kind : line.breakAfter with
    | hardBreak => exact absurd kind soft
    | softWrap => rfl
  exact ⟨⟨shown, at_line.shaped.places _, at_line.settled, .inl (congrArg some wraps)⟩, still⟩

theorem placeLineWithin_hard (at_line : AtLine cols before fill state) (below : Below maxRows state.rows)
    {line : HistoryLine} (hard : line.breakAfter = .hardBreak) :
    Ends
      (fun after =>
        AtLine cols (closeRows cols before (fillUnits cols fill line.anchoredUnits).rows line.lineId) {} after ∧
          Below maxRows after.rows)
      (fun rows =>
        Stopped cols maxRows before (fillUnits cols fill line.anchoredUnits).done rows ∨
          rows = closeRows cols before (fillUnits cols fill line.anchoredUnits).rows line.lineId ∧
            maxRows = some rows.length ∧
            before.length + (fillUnits cols fill line.anchoredUnits).done.length < rows.length)
      (placeLineWithin cols maxRows state line) := by
  rw [placeLineWithin, startLineWithin_stays at_line]
  refine (lineUnitsWithin_ends at_line below _ line.breakAfter).bind ?_ (fun _ stopped => .inl stopped)
  rintro after ⟨shown, still⟩
  rw [if_pos hard]
  have closed := closeLine_shows shown (at_line.shaped.places _) at_line.settled line.lineId
  have rows := closed.rows
  rw [List.map_nil, List.append_nil] at rows
  have grown : _ ≤ after.rows.length + 1 :=
    closeLine_grows { after with previousBreak := some line.breakAfter } line.lineId
  refine (checked_ends still grown).imp ?_ ?_
  · rintro _ ⟨rfl, under⟩
    exact ⟨⟨closed, .start 0, settled_closeRows at_line.settled _ _, .inr rfl⟩, under⟩
  · rintro _ ⟨rfl, limit⟩
    refine .inr ⟨rows, limit, ?_⟩
    have counted : after.rows.length = _ := congrArg List.length shown.rows
    rw [List.length_append, List.length_map] at counted
    rw [limit] at still
    rw [← counted]
    simpa [Below, limitReached] using still

theorem finishWithin_eq (at_line : AtLine cols before fill state) (below : Below maxRows state.rows) :
    state.finishWithin maxRows = before ++ paragraphRows cols .softWrap fill.rows := by
  rw [paragraphRows_soft, finishWithin]
  by_cases bare : fill.current = []
  · rw [if_neg (fun open_ => open_.1 ((at_line.cells_eq_nil at_line.shaped.narrow).mpr bare)), Fill.rows_of_bare bare]
    exact at_line.rows
  · have wraps : state.previousBreak = some .softWrap := at_line.joins.resolve_right bare
    rw [if_pos ⟨mt (at_line.cells_eq_nil at_line.shaped.narrow).mp bare, by rw [below]; exact Bool.false_ne_true⟩,
      wraps, at_line.rows_push bare]

/-- Where the loop can return early: inside a paragraph, or right behind it. -/
inductive Halted (cols : Nat) (maxRows : Option Nat) :
    List ReflowRow → Fill PlacedUnit → List HistoryLine → List ReflowRow → Prop
  | inside {before fill line rest rows} :
      Stopped cols maxRows before (fillUnits cols fill line.anchoredUnits).done rows →
      Halted cols maxRows before fill (line :: rest) rows
  | behind {before fill line rest rows} :
      line.breakAfter = .hardBreak →
      rows = closeRows cols before (fillUnits cols fill line.anchoredUnits).rows line.lineId →
      maxRows = some rows.length →
      before.length + (fillUnits cols fill line.anchoredUnits).done.length < rows.length →
      Halted cols maxRows before fill (line :: rest) rows
  | soft {before fill line rest rows} :
      line.breakAfter ≠ .hardBreak →
      Halted cols maxRows before (fillUnits cols fill line.anchoredUnits) rest rows →
      Halted cols maxRows before fill (line :: rest) rows
  | hard {before fill line rest rows} :
      line.breakAfter = .hardBreak →
      Halted cols maxRows (closeRows cols before (fillUnits cols fill line.anchoredUnits).rows line.lineId) {} rest
        rows →
      Halted cols maxRows before fill (line :: rest) rows

theorem Halted.limit {lines : List HistoryLine} {rows : List ReflowRow}
    (halted : Halted cols maxRows before fill lines rows) : maxRows = some rows.length := by
  induction halted with
  | inside stopped => exact stopped.limit
  | behind _ _ limit _ => exact limit
  | soft _ _ ih | hard _ _ ih => exact ih

theorem layRows_soft {line : HistoryLine} (soft : line.breakAfter ≠ .hardBreak) (rest : List HistoryLine) :
    layRows cols before fill (line :: rest) =
      layRows cols before (fillUnits cols fill line.anchoredUnits) rest := by
  rw [layRows, if_neg soft]

theorem layRows_hard {line : HistoryLine} (hard : line.breakAfter = .hardBreak) (rest : List HistoryLine) :
    layRows cols before fill (line :: rest) =
      layRows cols (closeRows cols before (fillUnits cols fill line.anchoredUnits).rows line.lineId) {} rest := by
  rw [layRows, if_pos hard]

theorem placeLinesWithin_ends (at_line : AtLine cols before fill state) (below : Below maxRows state.rows)
    (lines : List HistoryLine) :
    Ends
      (fun after =>
        Below maxRows after.rows ∧ ∃ shown filled, AtLine cols shown filled after ∧
          layRows cols before fill lines = shown ++ paragraphRows cols .softWrap filled.rows)
      (Halted cols maxRows before fill lines) (lines.foldlM (placeLineWithin cols maxRows) state) := by
  induction lines generalizing before fill state with
  | nil => exact ⟨below, before, fill, at_line, rfl⟩
  | cons line lines ih =>
      rw [List.foldlM_cons]
      by_cases hard : line.breakAfter = .hardBreak
      · rw [layRows_hard hard]
        refine (placeLineWithin_hard at_line below hard).bind ?_ ?_
        · rintro after ⟨next, still⟩
          exact (ih next still).imp (fun _ done => done) (fun _ halted => .hard hard halted)
        · rintro rows (stopped | ⟨closed, limit⟩)
          · exact .inside stopped
          · exact .behind hard closed limit.1 limit.2
      · rw [layRows_soft hard]
        refine (placeLineWithin_soft at_line below hard).bind ?_ (fun _ stopped => .inside stopped)
        rintro after ⟨next, still⟩
        exact (ih next still).imp (fun _ done => done) (fun _ halted => .soft hard halted)

theorem atLine_start (cols used : Nat) : AtLine cols [] { used } { used } where
  rows := rfl
  current := rfl
  used := rfl
  shaped := .start used
  settled := by simp [Settled]
  joins := .inr rfl

end Steps

end Reflow

variable [Unicode]

theorem reflowUncachedFrom_eq (lines : List HistoryLine) {cols : Nat} (nonzero : cols ≠ 0) (startCol : Nat) :
    reflowUncachedFrom lines cols none startCol = layRows cols [] { used := min startCol cols } lines := by
  rw [reflowUncachedFrom, if_neg (by simp [nonzero])]
  have ends := Reflow.placeLinesWithin_ends (Reflow.atLine_start cols (min startCol cols))
    (show Reflow.Below none [] from rfl) lines
  split
  next rows stopped =>
      rw [stopped] at ends
      cases Reflow.Halted.limit ends
  next state done =>
      rw [done] at ends
      obtain ⟨below, _, _, at_line, whole⟩ := ends
      rw [whole]
      exact Reflow.finishWithin_eq at_line below

end Seyal.Terminal
