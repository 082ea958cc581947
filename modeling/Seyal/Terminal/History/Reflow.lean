import Seyal.Terminal.History.Types

namespace Seyal.Terminal

/-! Reflow of history lines into rows of a given width. -/

structure HistoryWireCell where
  text : List Char
  width : Nat
  style : Style
  continuation : Bool
  deriving Repr, DecidableEq

structure ReflowRow where
  sourceLineId : Option LineId := none
  anchors : List HistoryAnchor := []
  cells : List HistoryWireCell := []
  breakAfter : Option HistoryBreakAfter := none
  unavailable : Bool := false
  deriving Repr, DecidableEq

def HistoryUnit.reflowWireCells [Unicode] (unit : HistoryUnit) : List HistoryWireCell :=
  { text := fromUtf8Lossy unit.utf8, width := unit.width, style := unit.style, continuation := false } ::
    (if max unit.width 1 = 2 then
      [{ text := [], width := 0, style := unit.style, continuation := true }]
    else [])

def HistoryLine.anchoredUnits (line : HistoryLine) : List (HistoryAnchor × HistoryUnit) :=
  line.units.zipIdx.map fun (unit, index) =>
    (⟨line.lineId, saturatingAdd 32 line.startOffset (index % 2 ^ 32)⟩, unit)

structure Reflow where
  rows : List ReflowRow := []
  current : ReflowRow := {}
  used : Nat := 0
  previousBreak : Option HistoryBreakAfter := none
  deriving Repr, DecidableEq

namespace Reflow

def push (state : Reflow) (breakAfter : Option HistoryBreakAfter) : Reflow :=
  { state with rows := state.rows ++ [{ state.current with breakAfter }], current := {} }

def markLastUnavailable (rows : List ReflowRow) : List ReflowRow :=
  rows.modifyLast fun row => { row with breakAfter := some .hardBreak }

/-- The end of a line that is followed by a hard break. -/
def closeLine (state : Reflow) (lineId : LineId) : Reflow :=
  let state :=
    if state.current.cells = [] ∧ state.current.anchors = [] then
      if state.rows.getLast?.any (·.unavailable) then { state with rows := markLastUnavailable state.rows }
      else { state with current := { state.current with sourceLineId := some lineId } }.push (some .hardBreak)
    else state.push (some .hardBreak)
  { state with used := 0, previousBreak := none }

end Reflow

/-! The same with a limit on the rows. Where the limit is reached the rows are
returned at once; where the source leaves its loop instead, the row limit keeps
the trailing row out, so that the rows are returned there too. -/

namespace Reflow

/-- No limit stands for `usize::MAX`, which no number of rows reaches. -/
def limitReached (maxRows : Option Nat) (rows : List ReflowRow) : Bool := maxRows.any (· ≤ rows.length)

def checked (maxRows : Option Nat) (state : Reflow) : Except (List ReflowRow) Reflow :=
  if limitReached maxRows state.rows then .error state.rows else .ok state

def makeRoomWithin (maxRows : Option Nat) (state : Reflow) (cols unitWidth : Nat) :
    Except (List ReflowRow) Reflow :=
  if state.used > 0 ∧ state.used + unitWidth > cols then
    if state.current.cells ≠ [] then
      ((state.push (some .softWrap)).checked maxRows).map fun state => { state with used := 0 }
    else .ok { state with used := 0 }
  else .ok state

/-- The row in front of an over-wide unit. -/
def flushWithin (maxRows : Option Nat) (state : Reflow) : Except (List ReflowRow) Reflow :=
  if state.current.cells ≠ [] ∨ state.current.anchors ≠ [] then
    (state.push (some .softWrap)).checked maxRows
  else .ok state

def placeUnavailableWithin (maxRows : Option Nat) (state : Reflow) (anchor : HistoryAnchor) :
    Except (List ReflowRow) Reflow := do
  let state ← state.flushWithin maxRows
  checked maxRows
    { state with
      rows := state.rows ++
        [{ sourceLineId := some anchor.lineId
           anchors := [anchor]
           breakAfter := some .softWrap
           unavailable := true }]
      used := 0 }

def startLineWithin (maxRows : Option Nat) (state : Reflow) : Except (List ReflowRow) Reflow :=
  if state.previousBreak ≠ some .softWrap ∧ state.current.cells ≠ [] then
    checked maxRows { state.push state.current.breakAfter with used := 0 }
  else .ok state

variable [Unicode]

def placeAvailable (state : Reflow) (unit : HistoryAnchor × HistoryUnit) : Reflow :=
  { state with
    current :=
      { state.current with
        sourceLineId := some (state.current.sourceLineId.getD unit.1.lineId)
        anchors := state.current.anchors ++ [unit.1]
        cells := state.current.cells ++ unit.2.reflowWireCells }
    used := state.used + max unit.2.width 1 }

def placeUnitWithin (cols : Nat) (maxRows : Option Nat) (state : Reflow) (unit : HistoryAnchor × HistoryUnit) :
    Except (List ReflowRow) Reflow := do
  let state ← state.makeRoomWithin maxRows cols (max unit.2.width 1)
  if max unit.2.width 1 > cols then state.placeUnavailableWithin maxRows unit.1
  else return state.placeAvailable unit

def placeLineWithin (cols : Nat) (maxRows : Option Nat) (state : Reflow) (line : HistoryLine) :
    Except (List ReflowRow) Reflow := do
  let state ← state.startLineWithin maxRows
  let state ← line.anchoredUnits.foldlM (placeUnitWithin cols maxRows) state
  let state := { state with previousBreak := some line.breakAfter }
  if line.breakAfter = .hardBreak then (state.closeLine line.lineId).checked maxRows else return state

def finishWithin (maxRows : Option Nat) (state : Reflow) : List ReflowRow :=
  if state.current.cells ≠ [] ∧ ¬ limitReached maxRows state.rows then (state.push state.previousBreak).rows
  else state.rows

end Reflow

def reflowUncachedFrom [Unicode] (lines : List HistoryLine) (cols : Nat) (maxRows : Option Nat) (startCol : Nat) :
    List ReflowRow :=
  if cols = 0 ∨ maxRows = some 0 then []
  else
    match lines.foldlM (Reflow.placeLineWithin cols maxRows) { used := min startCol cols } with
    | .error rows => rows
    | .ok state => state.finishWithin maxRows

def HistoryStore.reflowUncachedFrom [Unicode] (store : HistoryStore) (cols : Nat) (maxRows : Option Nat)
    (startCol : Nat) : List ReflowRow :=
  Terminal.reflowUncachedFrom store.entries cols maxRows startCol

def HistoryStore.reflowUncached [Unicode] (store : HistoryStore) (cols : Nat) (maxRows : Option Nat) :
    List ReflowRow :=
  store.reflowUncachedFrom cols maxRows 0

end Seyal.Terminal
