import Seyal.Protocol.Display.Decode

namespace Seyal.Protocol

open Program Run Slice Terminal

/-! A batch of chunks applied to the cache. -/

namespace DecodedDisplayChunk

/-- The batch check on the chunk at `index`. -/
def differs (first chunk : DecodedDisplayChunk) (index : Nat) : Bool :=
  chunk.kind ≠ first.kind || chunk.schema ≠ first.schema || chunk.generation ≠ first.generation ||
    chunk.baseGeneration ≠ first.baseGeneration || chunk.rows ≠ first.rows || chunk.columns ≠ first.columns ||
    chunk.cursorRow ≠ first.cursorRow || chunk.cursorCol ≠ first.cursorCol ||
    chunk.cursorVisible ≠ first.cursorVisible || chunk.alternateScreen ≠ first.alternateScreen ||
    chunk.chunkCount ≠ first.chunkCount || chunk.chunkIndex ≠ index

def checkBatch (first : DecodedDisplayChunk) : Nat → List DecodedDisplayChunk → Except DisplayError Unit
  | _, [] => .ok ()
  | index, chunk :: rest => do
      refuse (first.differs chunk index) .invalidChunk
      checkBatch first (index + 1) rest

/-- The row after the last chunk, when each chunk starts where the one before ends. -/
def checkRows : Nat → List DecodedDisplayChunk → Except DisplayError Nat
  | expectedRow, [] => .ok expectedRow
  | expectedRow, chunk :: rest => do
      refuse (chunk.firstCol ≠ 0 ∨ chunk.firstRow ≠ expectedRow) .invalidChunk
      let expectedRow ← orRefuse (checkedAdd 16 expectedRow chunk.rowCount) .overflow
      checkRows expectedRow rest

end DecodedDisplayChunk

section SchemaOne

def writeChunkV1 (chunk : DecodedDisplayChunk) : Run DisplayCache DisplayError Unit := do
  let cache ← get
  let firstCell := chunk.firstRow * cache.columns
  check (refuse (cache.cells.length < firstCell + chunk.cells.length) .invalidChunk)
  let cells ← overwrite? cache.cells firstCell chunk.cells
  set { cache with cells }

def applyChunksV1 (chunks : List DecodedDisplayChunk) (first : DecodedDisplayChunk) :
    Run DisplayCache DisplayError Unit := do
  let expectedRow ← check
    (DecodedDisplayChunk.checkRows (if first.kind = .snapshot then 0 else first.firstRow) chunks)
  check (refuse (first.kind = .snapshot ∧ expectedRow ≠ first.rows) .incompleteBatch)
  match first.kind with
  | .snapshot => do
      let cells := chunks.flatMap DecodedDisplayChunk.cells
      check (refuse (cells.length ≠ first.rows * first.columns) .incompleteBatch)
      modify fun cache => { cache with cells, rows := first.rows, columns := first.columns }
  | .delta => do
      let cache ← get
      check (refuse (cache.generation ≠ first.baseGeneration) .generationMismatch)
      check (refuse (cache.rows ≠ first.rows ∨ cache.columns ≠ first.columns) .dimensionMismatch)
      Run.forEach writeChunkV1 chunks

end SchemaOne

section SchemaTwo

/-- The grid being assembled and the position the next chunk has to start at. -/
structure GridProgress where
  cells : List DisplayCell
  cursorRow : Nat
  cursorCol : Nat
  started : Bool
  deriving Repr, DecidableEq

def placeSpan (chunk : DecodedDisplayChunk) (requireContiguousFromOrigin : Bool) :
    Run GridProgress DisplayError Unit := do
  let grid ← get
  if requireContiguousFromOrigin then
    if !grid.started then do
      check (refuse (chunk.firstRow ≠ 0 ∨ chunk.firstCol ≠ 0) .invalidChunk)
      set { grid with started := true }
    else check (refuse (chunk.firstRow ≠ grid.cursorRow ∨ chunk.firstCol ≠ grid.cursorCol) .invalidChunk)
  else if grid.started then
    check (refuse (chunk.firstRow ≠ grid.cursorRow ∨ chunk.firstCol ≠ grid.cursorCol) .invalidChunk)
  else set { grid with cursorRow := chunk.firstRow, cursorCol := chunk.firstCol, started := true }

def writePartialRow (columns : Nat) (chunk : DecodedDisplayChunk) : Run GridProgress DisplayError Unit := do
  let grid ← get
  let start := chunk.firstRow * columns + chunk.firstCol
  check (refuse (grid.cells.length < start + chunk.cells.length) .invalidChunk)
  let cells ← overwrite? grid.cells start chunk.cells
  let cursorCol ← check (orRefuse (checkedAdd 16 chunk.firstCol (chunk.cells.length % 2 ^ 16)) .overflow)
  if cursorCol = columns then do
    let cursorRow ← check (orRefuse (checkedAdd 16 chunk.firstRow 1) .overflow)
    set { grid with cells, cursorRow, cursorCol := 0 }
  else set { grid with cells, cursorRow := chunk.firstRow, cursorCol }

def writeWholeRow (columns : Nat) (chunk : DecodedDisplayChunk) (rowOffset : Nat) :
    Run GridProgress DisplayError Unit := do
  let row ← check (orRefuse (checkedAdd 16 chunk.firstRow rowOffset) .overflow)
  let grid ← get
  let start := row * columns
  let offset := rowOffset * columns
  check (refuse (grid.cells.length < start + columns ∨ chunk.cells.length < offset + columns) .invalidChunk)
  let source ← subrange? chunk.cells offset (offset + columns)
  let cells ← overwrite? grid.cells start source
  set { grid with cells }

def writeWholeRows (columns : Nat) (chunk : DecodedDisplayChunk) : Run GridProgress DisplayError Unit := do
  Run.forRange (writeWholeRow columns chunk) 0 chunk.rowCount
  let cursorRow ← check (orRefuse (checkedAdd 16 chunk.firstRow chunk.rowCount) .overflow)
  modify fun grid => { grid with cursorRow, cursorCol := 0 }

def applySpanToGrid (columns : Nat) (requireContiguousFromOrigin : Bool) (chunk : DecodedDisplayChunk) :
    Run GridProgress DisplayError Unit := do
  check (validateV2Span chunk.firstCol chunk.rowCount chunk.cells.length columns)
  placeSpan chunk requireContiguousFromOrigin
  if chunk.rowCount = 1 ∧ ¬ (chunk.firstCol = 0 ∧ chunk.cells.length = columns) then writePartialRow columns chunk
  else writeWholeRows columns chunk

/-- The first turn of the delta loop takes the start of its chunk for granted. -/
def startAt (chunk : DecodedDisplayChunk) (grid : GridProgress) : GridProgress :=
  if grid.started then grid
  else { grid with cursorRow := chunk.firstRow, cursorCol := chunk.firstCol, started := true }

def applyChunksV2 (chunks : List DecodedDisplayChunk) (first : DecodedDisplayChunk) :
    Run DisplayCache DisplayError Unit := do
  match first.kind with
  | .snapshot => do
      let blank := List.replicate (first.rows * first.columns) DisplayCell.blank
      let grid ← Run.within ⟨blank, 0, 0, false⟩ (Run.forEach (applySpanToGrid first.columns true) chunks)
      check (refuse (grid.cursorRow ≠ first.rows ∨ grid.cursorCol ≠ 0) .incompleteBatch)
      modify fun cache => { cache with cells := grid.cells, rows := first.rows, columns := first.columns }
  | .delta => do
      let cache ← get
      check (refuse (cache.generation ≠ first.baseGeneration) .generationMismatch)
      check (refuse (cache.rows ≠ first.rows ∨ cache.columns ≠ first.columns) .dimensionMismatch)
      let grid ← Run.within ⟨cache.cells, 0, 0, false⟩ (Run.forEach (fun chunk => do
        modify (startAt chunk)
        applySpanToGrid first.columns false chunk) chunks)
      modify fun cache => { cache with cells := grid.cells }

end SchemaTwo

namespace DisplayCache

def adopt (cache : DisplayCache) (first : DecodedDisplayChunk) : DisplayCache :=
  { cache with
    generation := first.generation
    cursorRow := first.cursorRow
    cursorCol := first.cursorCol
    cursorVisible := first.cursorVisible
    alternateScreen := first.alternateScreen }

def applyChunks (chunks : List DecodedDisplayChunk) : Run DisplayCache DisplayError Unit := do
  let first ← check (orRefuse chunks.head? .incompleteBatch)
  check (refuse (chunks.length ≠ first.chunkCount) .incompleteBatch)
  check (first.checkBatch 0 chunks)
  if first.schema = displaySchemaV2 then applyChunksV2 chunks first else applyChunksV1 chunks first
  modify fun cache => cache.adopt first

end DisplayCache

end Seyal.Protocol
