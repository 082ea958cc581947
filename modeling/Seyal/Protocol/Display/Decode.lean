import Seyal.Protocol.Display.Types

namespace Seyal.Protocol

open Program Slice Terminal

/-! The two chunk decoders. -/

/-- The first forty bytes, which both schemas lay out alike. -/
structure ChunkHeader where
  generation : Nat
  baseGeneration : Nat
  rows : Nat
  columns : Nat
  cursorRow : Nat
  cursorCol : Nat
  cursorVisible : Bool
  alternateScreen : Bool
  firstRow : Nat
  rowCount : Nat
  chunkIndex : Nat
  chunkCount : Nat
  cellCount : Nat
  deriving Repr, DecidableEq

def decodeChunkHeader (payload : List UInt8) : Except DisplayError ChunkHeader := do
  let cursorVisible ← decodeBool (byteAt payload 24)
  let alternateScreen ← decodeBool (byteAt payload 25)
  refuse (byteAt payload 26 ≠ 0 ∨ byteAt payload 27 ≠ 0) .invalidChunk
  return {
    generation := natAt payload 0 8
    baseGeneration := natAt payload 8 8
    rows := natAt payload 16 2
    columns := natAt payload 18 2
    cursorRow := natAt payload 20 2
    cursorCol := natAt payload 22 2
    cursorVisible
    alternateScreen
    firstRow := natAt payload 28 2
    rowCount := natAt payload 30 2
    chunkIndex := natAt payload 32 2
    chunkCount := natAt payload 34 2
    cellCount := natAt payload 36 4 }

def ChunkHeader.chunk (header : ChunkHeader) (kind : DisplayKind) (schema firstCol : Nat)
    (cells : List DisplayCell) : DecodedDisplayChunk :=
  { header with kind, schema, firstCol, cells }

section SchemaOne

def decodeCellV1 (bytes : List UInt8) : Except DisplayError DisplayCell := do
  refuse (bytes.length ≠ displayCellLen) .invalidCell
  let scalar ← orRefuse (charFromU32 (natAt bytes 0 4)) .invalidUnicode
  let foreground ← decodeColor (natAt bytes 4 4)
  let background ← decodeColor (natAt bytes 8 4)
  let attr := natAt bytes 12 2
  refuse (8 ≤ attr ∨ subrange bytes 14 16 ≠ [0, 0]) .invalidAttributes
  let attributes := { bold := attr.testBit 0, underline := attr.testBit 1, inverse := attr.testBit 2 }
  return DisplayCell.leadScalar scalar 1 foreground background attributes

def decodeCellsV1 (payload : List UInt8) : Nat → Nat → Except DisplayError (List DisplayCell)
  | _, 0 => .ok []
  | offset, count + 1 => do
      let cell ← decodeCellV1 (subrange payload offset (offset + displayCellLen))
      let cells ← decodeCellsV1 payload (offset + displayCellLen) count
      return cell :: cells

def decodePayloadV1 (kind : DisplayKind) (payload : List UInt8) : Except DisplayError DecodedDisplayChunk := do
  refuse (payload.length < displayChunkHeaderLen) .invalidLength
  let header ← decodeChunkHeader payload
  validateGeometry header.rows header.columns header.cursorRow header.cursorCol
  refuse (kind = .snapshot ∧ header.baseGeneration ≠ 0) .invalidChunk
  refuse (header.rowCount = 0 ∨ header.chunkCount = 0 ∨ header.chunkCount ≤ header.chunkIndex ∨
    header.rows < header.firstRow + header.rowCount) .invalidChunk
  refuse (header.cellCount ≠ header.rowCount * header.columns) .invalidChunk
  refuse (payload.length ≠ displayChunkHeaderLen + header.cellCount * displayCellLen) .invalidLength
  let cells ← decodeCellsV1 payload displayChunkHeaderLen header.cellCount
  return header.chunk kind 1 0 cells

end SchemaOne

section SchemaTwo

structure PendingContinuation where
  row : Nat
  foreground : DisplayColor
  background : DisplayColor
  attributes : DisplayAttributes
  deriving Repr, DecidableEq

def DisplayCellRole.fromBits (bits : Nat) : Except DisplayError DisplayCellRole :=
  match bits with
  | 0 => .ok .empty
  | 1 => .ok .lead
  | 2 => .ok .continuation
  | _ => .error .invalidRole

/-- What the cell loop carries: the next free byte of the sidecar, and the wide
lead whose continuation has to come next. -/
structure CellProgress where
  expectedSidecarOff : Nat
  pendingContinuation : Option PendingContinuation
  deriving Repr, DecidableEq

structure CellMeta where
  attributes : DisplayAttributes
  role : DisplayCellRole
  width : Nat
  sidecarFlag : Bool
  lenMinus1 : Nat
  deriving Repr, DecidableEq

def decodeCellMeta (word : Nat) : Except DisplayError CellMeta := do
  let attributes := { bold := word.testBit 0, underline := word.testBit 1, inverse := word.testBit 2 }
  let role ← DisplayCellRole.fromBits (word / 2 ^ 3 % 4)
  let width := word / 2 ^ 5 % 4
  refuse (width = 3) .invalidWidth
  let sidecarFlag := word.testBit 7
  let lenMinus1 := word / 2 ^ 8 % 2 ^ 13
  refuse (word / 2 ^ 21 ≠ 0) .invalidAttributes
  return { attributes, role, width, sidecarFlag, lenMinus1 }

/-- The scalar and the bytes of a lead, and the sidecar offset after it. -/
def decodeLeadText (sidecar : List UInt8) (fields : CellMeta) (textRef expectedSidecarOff : Nat) :
    Except DisplayError (Char × List UInt8 × Nat) :=
  if fields.sidecarFlag then do
    let len := fields.lenMinus1 + 1
    refuse (len = 0 ∨ maxGraphemeUtf8Bytes < len) .invalidSidecar
    refuse (textRef ≠ expectedSidecarOff) .invalidSidecar
    refuse (sidecar.length < textRef + len) .invalidSidecar
    let bytes := subrange sidecar textRef (textRef + len)
    let text ← orRefuse (fromUtf8 bytes) .invalidUnicode
    let scalar ← orRefuse text.head? .invalidUnicode
    return (scalar, bytes, textRef + len)
  else do
    refuse (fields.lenMinus1 ≠ 0) .invalidCell
    let scalar ← orRefuse (charFromU32 textRef) .invalidUnicode
    return (scalar, String.utf8EncodeChar scalar, expectedSidecarOff)

def decodeCellV2 (bytes sidecar : List UInt8) (progress : CellProgress) (cellRow cellCol columns : Nat) :
    Except DisplayError (DisplayCell × CellProgress) := do
  refuse (bytes.length ≠ displayCellLen) .invalidCell
  let textRef := natAt bytes 0 4
  let foreground ← decodeColor (natAt bytes 4 4)
  let background ← decodeColor (natAt bytes 8 4)
  let fields ← decodeCellMeta (natAt bytes 12 4)
  match progress.pendingContinuation with
  | some expected =>
      refuse (expected.row ≠ cellRow) .invalidCell
      refuse (fields.role ≠ .continuation ∨ fields.width ≠ 0 ∨ fields.sidecarFlag ∨ fields.lenMinus1 ≠ 0 ∨
        textRef ≠ 0) .invalidCell
      -- A continuation takes the style of its lead, whatever its own word says.
      return ({ DisplayCell.blank with
        role := .continuation
        foreground := expected.foreground
        background := expected.background
        attributes := expected.attributes }, { progress with pendingContinuation := none })
  | none =>
      match fields.role with
      | .empty =>
          refuse (textRef ≠ 0 ∨ fields.width ≠ 0 ∨ fields.sidecarFlag ∨ fields.lenMinus1 ≠ 0) .invalidCell
          return ({ DisplayCell.blank with foreground, background, attributes := fields.attributes }, progress)
      | .continuation => .error .invalidCell
      | .lead =>
          refuse (fields.width ≠ 1 ∧ fields.width ≠ 2) .invalidWidth
          refuse (fields.width = 2 ∧ columns ≤ cellCol + 1) .invalidCell
          let (scalar, text, sidecarOff) ← decodeLeadText sidecar fields textRef progress.expectedSidecarOff
          let pending :=
            if fields.width = 2 then some ⟨cellRow, foreground, background, fields.attributes⟩ else none
          return ({ scalar, role := .lead, width := fields.width, text, sidecar := fields.sidecarFlag,
                    foreground, background, attributes := fields.attributes }, ⟨sidecarOff, pending⟩)

/-- Row and column of the cell at an index of a chunk. -/
def cellPlace (header : ChunkHeader) (firstCol index : Nat) : Except DisplayError (Nat × Nat) :=
  if header.rowCount = 1 then do
    let col ← orRefuse (checkedAdd 16 firstCol (index % 2 ^ 16)) .overflow
    return (header.firstRow, col)
  else do
    let row ← orRefuse (checkedAdd 16 header.firstRow (index / header.columns % 2 ^ 16)) .overflow
    return (row, index % header.columns % 2 ^ 16)

def decodeCellsV2 (payload sidecar : List UInt8) (header : ChunkHeader) (firstCol : Nat) :
    Nat → Nat → CellProgress → Except DisplayError (List DisplayCell × CellProgress)
  | _, 0, progress => .ok ([], progress)
  | index, count + 1, progress => do
      let offset := displayChunkHeaderV2Len + index * displayCellLen
      let (cellRow, cellCol) ← cellPlace header firstCol index
      let (cell, progress) ← decodeCellV2 (subrange payload offset (offset + displayCellLen)) sidecar progress
        cellRow cellCol header.columns
      let (cells, progress) ← decodeCellsV2 payload sidecar header firstCol (index + 1) count progress
      return (cell :: cells, progress)

def decodePayloadV2 (kind : DisplayKind) (payload : List UInt8) : Except DisplayError DecodedDisplayChunk := do
  refuse (payload.length < displayChunkHeaderV2Len) .invalidLength
  refuse (maxFramePayload < payload.length) .invalidLength
  let header ← decodeChunkHeader payload
  let sidecarLen := natAt payload 40 4
  let schema := natAt payload 44 2
  let firstCol := natAt payload 46 2
  refuse (schema ≠ displaySchemaV2) .invalidChunk
  validateGeometry header.rows header.columns header.cursorRow header.cursorCol
  refuse (kind = .snapshot ∧ header.baseGeneration ≠ 0) .invalidChunk
  refuse (header.rowCount = 0 ∨ header.chunkCount = 0 ∨ header.chunkCount ≤ header.chunkIndex ∨
    header.rows < header.firstRow + header.rowCount ∨ header.columns ≤ firstCol ∨ header.cellCount = 0)
    .invalidChunk
  refuse (maxGraphemeSidecarBytes < sidecarLen) .invalidSidecar
  validateV2Span firstCol header.rowCount header.cellCount header.columns
  let sidecarStart := displayChunkHeaderV2Len + header.cellCount * displayCellLen
  refuse (payload.length ≠ sidecarStart + sidecarLen) .invalidLength
  let sidecar := subrange payload sidecarStart (sidecarStart + sidecarLen)
  let (cells, progress) ← decodeCellsV2 payload sidecar header firstCol 0 header.cellCount ⟨0, none⟩
  refuse (progress.pendingContinuation.isSome ∨ progress.expectedSidecarOff ≠ sidecarLen) .invalidSidecar
  return header.chunk kind displaySchemaV2 firstCol cells

end SchemaTwo

/-- What both decoders establish about the place of a chunk. -/
structure DecodedDisplayChunk.Placed (chunk : DecodedDisplayChunk) : Prop where
  rows : chunk.rows ≤ maxDisplayRows
  columns : chunk.columns ≤ maxDisplayColumns
  cursorRow : chunk.cursorRow < chunk.rows
  cursorCol : chunk.cursorCol < chunk.columns
  inside : chunk.firstRow + chunk.rowCount ≤ chunk.rows
  whole : chunk.schema ≠ displaySchemaV2 → chunk.firstCol = 0 ∧ chunk.cells.length = chunk.rowCount * chunk.columns

theorem validateGeometry_ok {rows columns cursorRow cursorCol : Nat}
    (valid : validateGeometry rows columns cursorRow cursorCol = .ok ()) :
    rows ≤ maxDisplayRows ∧ columns ≤ maxDisplayColumns ∧ cursorRow < rows ∧ cursorCol < columns := by
  simp only [validateGeometry, bind_eq_ok, refuse_eq_ok] at valid
  obtain ⟨_, limits, _⟩ := valid
  omega

theorem length_decodeCellsV1 {payload : List UInt8} {count offset : Nat} {cells : List DisplayCell}
    (decoded : decodeCellsV1 payload offset count = .ok cells) : cells.length = count := by
  induction count generalizing offset cells with
  | zero =>
      cases decoded
      rfl
  | succ count ih =>
      simp only [decodeCellsV1, bind_eq_ok, pure_eq_ok] at decoded
      obtain ⟨cell, _, rest, remaining, rfl⟩ := decoded
      rw [List.length_cons, ih remaining]

theorem decodePayloadV1_placed {kind : DisplayKind} {payload : List UInt8} {chunk : DecodedDisplayChunk}
    (decoded : decodePayloadV1 kind payload = .ok chunk) : chunk.Placed := by
  simp only [decodePayloadV1, bind_eq_ok, pure_eq_ok, refuse_eq_ok] at decoded
  obtain ⟨_, _, header, _, _, geometry, _, _, _, counts, _, size, _, _, cells, remaining, rfl⟩ := decoded
  obtain ⟨rows, columns, cursorRow, cursorCol⟩ := validateGeometry_ok geometry
  have length : cells.length = header.rowCount * header.columns :=
    (length_decodeCellsV1 remaining).trans (by omega)
  have inside : header.firstRow + header.rowCount ≤ header.rows := by omega
  exact { rows, columns, cursorRow, cursorCol, inside, whole := fun _ => ⟨rfl, length⟩ }

theorem decodePayloadV2_placed {kind : DisplayKind} {payload : List UInt8} {chunk : DecodedDisplayChunk}
    (decoded : decodePayloadV2 kind payload = .ok chunk) : chunk.Placed := by
  simp only [decodePayloadV2, bind_eq_ok, pure_eq_ok, refuse_eq_ok] at decoded
  obtain ⟨_, _, _, _, header, _, _, _, _, geometry, _, _, _, counts, _, _, _, _, _, _, ⟨cells, progress⟩, _, _, _,
    rfl⟩ := decoded
  obtain ⟨rows, columns, cursorRow, cursorCol⟩ := validateGeometry_ok geometry
  have inside : header.firstRow + header.rowCount ≤ header.rows := by omega
  exact { rows, columns, cursorRow, cursorCol, inside, whole := fun other => absurd rfl other }

/-- The chunk is what one of the decoders made of some payload. -/
def DecodedDisplayChunk.Decoded (chunk : DecodedDisplayChunk) : Prop :=
  ∃ kind payload, decodePayloadV1 kind payload = .ok chunk ∨ decodePayloadV2 kind payload = .ok chunk

theorem DecodedDisplayChunk.Decoded.placed {chunk : DecodedDisplayChunk} (decoded : chunk.Decoded) :
    chunk.Placed := by
  obtain ⟨kind, payload, one | two⟩ := decoded
  · exact decodePayloadV1_placed one
  · exact decodePayloadV2_placed two

end Seyal.Protocol
