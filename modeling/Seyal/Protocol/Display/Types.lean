import Seyal.Protocol.Envelope
import Seyal.Terminal.Types

namespace Seyal.Protocol

open Program

/-! Display cells, the client's cache of them, the decoded chunks that update it and the frames that carry them. -/

inductive DisplayKind where
  | snapshot
  | delta
  deriving Repr, DecidableEq

def displayChunkHeaderLen : Nat := 40

def displayCellLen : Nat := 16

def maxDisplayRows : Nat := 256

def maxDisplayColumns : Nat := 512

def maxDisplayCells : Nat := 131072

def displayChunkHeaderV2Len : Nat := 48

def displaySchemaV2 : Nat := 2

def maxGraphemeSidecarBytes : Nat := 65536

def maxGraphemeUtf8Bytes : Nat := 8192

inductive DisplayError where
  | invalidGeometry
  | invalidCursor
  | invalidDamage
  | invalidChunk
  | invalidLength
  | invalidCell
  | invalidColor
  | invalidAttributes
  | invalidUnicode
  | invalidRole
  | invalidWidth
  | invalidSidecar
  | wrongMessageType
  | generationMismatch
  | dimensionMismatch
  | incompleteBatch
  | batchTooLarge
  | overflow
  deriving Repr, DecidableEq

inductive DisplayColor where
  | default
  | indexed (index : UInt8)
  | rgb (r g b : UInt8)
  deriving Repr, DecidableEq

structure DisplayAttributes where
  bold : Bool := false
  underline : Bool := false
  inverse : Bool := false
  deriving Repr, DecidableEq

inductive DisplayCellRole where
  | empty
  | lead
  | continuation
  deriving Repr, DecidableEq

structure DisplayCell where
  /-- The first scalar of a lead, a space otherwise. -/
  scalar : Char
  role : DisplayCellRole
  width : Nat
  /-- The grapheme of a lead in UTF-8. -/
  text : List UInt8
  sidecar : Bool
  foreground : DisplayColor
  background : DisplayColor
  attributes : DisplayAttributes
  deriving Repr, DecidableEq

def DisplayCell.blank : DisplayCell :=
  { scalar := ' ', role := .empty, width := 0, text := [], sidecar := false,
    foreground := .default, background := .default, attributes := {} }

def DisplayCell.leadScalar (scalar : Char) (width : Nat) (foreground background : DisplayColor)
    (attributes : DisplayAttributes) : DisplayCell :=
  { scalar, role := .lead, width, text := String.utf8EncodeChar scalar, sidecar := false,
    foreground, background, attributes }

structure DisplayCache where
  generation : Nat
  rows : Nat
  columns : Nat
  cursorRow : Nat
  cursorCol : Nat
  cursorVisible : Bool
  alternateScreen : Bool
  cells : List DisplayCell
  deriving Repr, DecidableEq

def emptyCache : DisplayCache :=
  { generation := 0, rows := 0, columns := 0, cursorRow := 0, cursorCol := 0, cursorVisible := false,
    alternateScreen := false, cells := [] }

structure DecodedDisplayChunk where
  kind : DisplayKind
  schema : Nat
  generation : Nat
  baseGeneration : Nat
  rows : Nat
  columns : Nat
  cursorRow : Nat
  cursorCol : Nat
  cursorVisible : Bool
  alternateScreen : Bool
  firstRow : Nat
  rowCount : Nat
  firstCol : Nat
  chunkIndex : Nat
  chunkCount : Nat
  cells : List DisplayCell
  deriving Repr, DecidableEq

def decodeBool (value : UInt8) : Except DisplayError Bool :=
  if value = 0 then .ok false else if value = 1 then .ok true else .error .invalidChunk

/-- The kind is the top two bits of the word, the payload the other thirty. -/
def decodeColor (value : Nat) : Except DisplayError DisplayColor :=
  let kind := value / 2 ^ 30
  let payload := value % 2 ^ 30
  if kind = 0 ∧ payload = 0 then .ok .default
  else if kind = 1 ∧ payload ≤ 0xff then .ok (.indexed (UInt8.ofNat payload))
  else if kind = 2 ∧ payload ≤ 0x00ffffff then
    .ok (.rgb (UInt8.ofNat (payload / 2 ^ 16 % 256)) (UInt8.ofNat (payload / 2 ^ 8 % 256))
      (UInt8.ofNat (payload % 256)))
  else .error .invalidColor

def charFromU32 (value : Nat) : Option Char := if value.isValidChar then some (Char.ofNat value) else none

def validateGeometry (rows columns cursorRow cursorCol : Nat) : Except DisplayError Unit := do
  refuse (rows = 0 ∨ columns = 0 ∨ maxDisplayRows < rows ∨ maxDisplayColumns < columns ∨ rows ≤ cursorRow ∨
    columns ≤ cursorCol) .invalidGeometry
  refuse (maxDisplayCells < rows * columns) .invalidGeometry

def validateV2Span (firstCol rowCount cellCount columns : Nat) : Except DisplayError Unit := do
  refuse (cellCount = 0 ∨ rowCount = 0) .invalidChunk
  let wholeRow := firstCol = 0 ∧ cellCount = rowCount * columns
  let partialRow := rowCount = 1 ∧ firstCol + cellCount ≤ columns
  refuse (¬ (wholeRow ∨ partialRow)) .invalidChunk

structure Frame where
  bytes : List UInt8
  header : headerLen ≤ bytes.length

def encodeFrame (kind : MessageType) (payload : List UInt8) : Frame where
  bytes := (FrameHeader.new kind.toU16 (UInt32.ofNat payload.length)).encode ++ payload
  header := by simp

def DisplayKind.messageTypeV1 : DisplayKind → MessageType
  | .snapshot => .displaySnapshot
  | .delta => .displayDelta

def DisplayKind.messageTypeV2 : DisplayKind → MessageType
  | .snapshot => .displaySnapshotV2
  | .delta => .displayDeltaV2

def maxDisplayBatchBytes : Nat := 4 * 1024 * 1024

end Seyal.Protocol
