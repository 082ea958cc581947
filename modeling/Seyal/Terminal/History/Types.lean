import Mathlib.Data.List.DropRight
import Seyal.Program.Slice
import Seyal.Terminal.Types

namespace Seyal.Terminal

open Program

/-! Retained history: units, lines, packed segments and the views over both. -/

def u32Max : Nat := 2 ^ 32 - 1

structure HistoryUnit where
  utf8 : List UInt8
  width : Nat
  style : Style
  deriving Repr, DecidableEq

structure HistoryLine where
  lineId : LineId
  units : List HistoryUnit
  breakAfter : HistoryBreakAfter
  startOffset : Nat
  deriving Repr, DecidableEq

structure SegmentLine where
  lineId : LineId
  unitStart : Nat
  unitLen : Nat
  startOffset : Nat
  breakAfter : HistoryBreakAfter
  deriving Repr, DecidableEq

structure SegmentUnit where
  payloadStart : Nat
  payloadLen : Nat
  width : Nat
  style : Style
  deriving Repr, DecidableEq

/-- A packed run of lines. Every line's units lie inside the unit table. -/
structure Segment where
  lines : List SegmentLine
  units : List SegmentUnit
  payload : List UInt8
  residentBytes : Nat
  lines_inside : ∀ line ∈ lines, line.unitStart + line.unitLen ≤ units.length

namespace Segment

def unit (segment : Segment) (entry : SegmentUnit) : HistoryUnit where
  utf8 := if entry.payloadStart + entry.payloadLen ≤ segment.payload.length then
      Slice.subrange segment.payload entry.payloadStart (entry.payloadStart + entry.payloadLen)
    else []
  width := entry.width
  style := entry.style

def line (segment : Segment) (entry : SegmentLine) : HistoryLine where
  lineId := entry.lineId
  units := (Slice.subrange segment.units entry.unitStart (entry.unitStart + entry.unitLen)).map
    segment.unit
  breakAfter := entry.breakAfter
  startOffset := entry.startOffset

def unpack (segment : Segment) : List HistoryLine := segment.lines.map segment.line

end Segment

/-- The retained lines: packed segments behind a mutable tail. -/
structure HistoryStore where
  segments : List Segment := []
  tail : List HistoryLine := []

/-- Retained lines, oldest first. -/
def HistoryStore.entries (store : HistoryStore) : List HistoryLine :=
  store.segments.flatMap Segment.unpack ++ store.tail

end Seyal.Terminal
