import Seyal.Runtime.Display.Plan

namespace Seyal.Runtime

open Program Slice Protocol Terminal PresentationEnvelope

/-! The encoders of display batches, and the size of their frames. -/

structure DisplayMeta where
  generation : Nat
  rows : Nat
  columns : Nat
  cursorRow : Nat
  cursorCol : Nat
  cursorVisible : Bool
  alternateScreen : Bool

def DisplayMeta.encode (display : DisplayMeta) (baseGeneration : Nat) : List UInt8 :=
  toLe 8 display.generation ++ toLe 8 baseGeneration ++ toLe 2 display.rows ++ toLe 2 display.columns ++
    toLe 2 display.cursorRow ++ toLe 2 display.cursorCol ++
    [display.cursorVisible.toUInt8, display.alternateScreen.toUInt8, 0, 0]

def encodeColor : DisplayColor → Nat
  | .default => 0
  | .indexed index => 2 ^ 30 + index.toNat
  | .rgb r g b => 2 ^ 31 + r.toNat * 2 ^ 16 + g.toNat * 2 ^ 8 + b.toNat

def DisplayAttributes.bits (attributes : DisplayAttributes) : Nat :=
  attributes.bold.toNat + attributes.underline.toNat * 2 + attributes.inverse.toNat * 4

def DisplayCellRole.bits : DisplayCellRole → Nat
  | .empty => 0
  | .lead => 1
  | .continuation => 2

def encodeV2CellMeta (role : DisplayCellRole) (width : Nat) (sidecar : Bool) (graphemeLen : Nat)
    (attributes : DisplayAttributes) : Nat :=
  DisplayAttributes.bits attributes + DisplayCellRole.bits role * 2 ^ 3 + width % 4 * 2 ^ 5 +
    if sidecar then 2 ^ 7 + (graphemeLen - 1) % 2 ^ 13 * 2 ^ 8 else 0

def cellBytes (textRef attributes : Nat) (cell : ProjectionCell) : List UInt8 :=
  toLe 4 textRef ++ toLe 4 (encodeColor cell.foreground) ++ toLe 4 (encodeColor cell.background) ++ toLe 4 attributes

/-- The bytes of the cell, and the sidecar with its text. -/
def encodeProjectionCellV2 (cell : ProjectionCell) (sidecar : List UInt8) :
    Except DisplayError (List UInt8 × List UInt8) := do
  if cell.role = .lead then
    refuse (cell.width ≠ 1 ∧ cell.width ≠ 2) .invalidWidth
    if ← needsSidecar cell then
      refuse (maxGraphemeUtf8Bytes < cell.text.length) .invalidSidecar
      let entry := encodeV2CellMeta cell.role cell.width true cell.text.length cell.attributes
      return (cellBytes sidecar.length entry cell, sidecar ++ cell.text)
    else
      let entry := encodeV2CellMeta cell.role cell.width false 0 cell.attributes
      return (cellBytes cell.scalar.toNat entry cell, sidecar)
  else
    refuse (cell.width ≠ 0 ∨ cell.text ≠ []) .invalidCell
    return (cellBytes 0 (encodeV2CellMeta cell.role 0 false 0 cell.attributes) cell, sidecar)

def encodeProjectionCells : List ProjectionCell → List UInt8 → Except DisplayError (List UInt8 × List UInt8)
  | [], sidecar => return ([], sidecar)
  | cell :: rest, sidecar => do
      let (bytes, sidecar) ← encodeProjectionCellV2 cell sidecar
      let (others, sidecar) ← encodeProjectionCells rest sidecar
      return (bytes ++ others, sidecar)

structure V2ChunkSpan where
  firstRow : Nat
  rowCount : Nat
  firstCol : Nat
  chunkIndex : Nat
  chunkCount : Nat

def V2ChunkSpan.header (span : V2ChunkSpan) (display : DisplayMeta) (baseGeneration cellCount sidecarBytes : Nat) :
    List UInt8 :=
  display.encode baseGeneration ++ toLe 2 span.firstRow ++ toLe 2 span.rowCount ++ toLe 2 span.chunkIndex ++
    toLe 2 span.chunkCount ++ toLe 4 cellCount ++ toLe 4 sidecarBytes ++ toLe 2 displaySchemaV2 ++ toLe 2 span.firstCol

def encodeV2ChunkPayload (display : DisplayMeta) (baseGeneration : Nat) (span : V2ChunkSpan)
    (cells : List ProjectionCell) : Except DisplayError (List UInt8 × Nat) := do
  let (bytes, sidecar) ← encodeProjectionCells cells []
  refuse (maxGraphemeSidecarBytes < sidecar.length) .invalidSidecar
  refuse (maxFramePayload < displayChunkHeaderV2Len + bytes.length + sidecar.length) .invalidLength
  return (span.header display baseGeneration cells.length sidecar.length ++ bytes ++ sidecar, sidecar.length)

def encodeSpans (display : DisplayMeta) (kind : DisplayKind) (baseGeneration firstRow : Nat)
    (cells : List ProjectionCell) (chunkCount : Nat) : List SpanPlan → Nat → Except DisplayError (List Frame)
  | [], _ => return []
  | span :: rest, chunkIndex => do
      refuse (2 ^ 16 ≤ firstRow + span.rowOffset) .overflow
      let slice := subrange cells span.cellStart (span.cellStart + span.cellCount)
      let (payload, _) ← encodeV2ChunkPayload display baseGeneration
        ⟨firstRow + span.rowOffset, span.rowCount, span.firstCol, chunkIndex, chunkCount⟩ slice
      let frames ← encodeSpans display kind baseGeneration firstRow cells chunkCount rest (chunkIndex + 1)
      return encodeFrame kind.messageTypeV2 payload :: frames

/-- The frames of the batch; its other fields repeat the arguments. -/
def encodeCellsV2 (display : DisplayMeta) (kind : DisplayKind) (baseGeneration firstRow firstCol rowCount : Nat)
    (cells : List ProjectionCell) : Except DisplayError (List Frame) := do
  validateGeometry display.rows display.columns display.cursorRow display.cursorCol
  refuse (rowCount = 0 ∨ display.rows ≤ firstRow ∨ display.rows < firstRow + rowCount ∨ display.columns ≤ firstCol)
    .invalidDamage
  refuse (cells.length ≠ rowCount * display.columns ∨ firstCol ≠ 0) .invalidDamage
  let spans ← planV2Spans display.columns cells
  refuse (2 ^ 16 ≤ spans.length) .overflow
  encodeSpans display kind baseGeneration firstRow cells spans.length spans 0

section SchemaTwo

variable {cell : ProjectionCell} {cells : List ProjectionCell} {bytes sidecar after : List UInt8}

theorem length_cellBytes (textRef attributes : Nat) (cell : ProjectionCell) :
    (cellBytes textRef attributes cell).length = displayCellLen := by
  simp [cellBytes, displayCellLen]

theorem encodeProjectionCellV2_sizes (encoded : encodeProjectionCellV2 cell sidecar = .ok (bytes, after)) :
    bytes.length = displayCellLen ∧ after.length = sidecar.length + cell.sidecarLen := by
  unfold encodeProjectionCellV2 at encoded
  split at encoded
  next lead =>
    simp only [bind_eq_ok, refuse_eq_ok] at encoded
    obtain ⟨_, _, needs, asked, encoded⟩ := encoded
    rw [ProjectionCell.sidecarLen, asked]
    cases needs with
    | true =>
        simp only [if_true, bind_eq_ok, refuse_eq_ok, pure_eq_ok, Prod.mk.injEq] at encoded
        obtain ⟨_, _, rfl, rfl⟩ := encoded
        exact ⟨length_cellBytes .., by simp⟩
    | false =>
        simp only [Bool.false_eq_true, if_false, pure_eq_ok, Prod.mk.injEq] at encoded
        obtain ⟨rfl, rfl⟩ := encoded
        exact ⟨length_cellBytes .., by simp⟩
  next other =>
    simp only [bind_eq_ok, refuse_eq_ok, pure_eq_ok, Prod.mk.injEq] at encoded
    obtain ⟨_, _, rfl, rfl⟩ := encoded
    exact ⟨length_cellBytes .., by rw [ProjectionCell.sidecarLen_other other]; rfl⟩

theorem encodeProjectionCells_sizes (encoded : encodeProjectionCells cells sidecar = .ok (bytes, after)) :
    bytes.length = cells.length * displayCellLen ∧ after.length = sidecar.length + sidecarLen cells := by
  induction cells generalizing sidecar bytes with
  | nil =>
      cases encoded
      simp [sidecarLen]
  | cons cell rest ih =>
      simp only [encodeProjectionCells, bind_eq_ok, Prod.exists, pure_eq_ok, Prod.mk.injEq] at encoded
      obtain ⟨first, middle, here, others, last, further, rfl, rfl⟩ := encoded
      obtain ⟨size, grown⟩ := encodeProjectionCellV2_sizes here
      obtain ⟨sizes, grownAfter⟩ := ih further
      refine ⟨?_, ?_⟩
      · rw [List.length_append, size, sizes, List.length_cons, Nat.succ_mul, Nat.add_comm]
      · rw [grownAfter, grown, sidecarLen, sidecarLen, List.map_cons, List.sum_cons, Nat.add_assoc]

theorem length_header (span : V2ChunkSpan) (display : DisplayMeta) (baseGeneration cellCount sidecarBytes : Nat) :
    (span.header display baseGeneration cellCount sidecarBytes).length = displayChunkHeaderV2Len := by
  simp [V2ChunkSpan.header, DisplayMeta.encode, displayChunkHeaderV2Len]

theorem encodeV2ChunkPayload_sizes {display : DisplayMeta} {baseGeneration size : Nat} {span : V2ChunkSpan}
    {payload : List UInt8} (encoded : encodeV2ChunkPayload display baseGeneration span cells = .ok (payload, size)) :
    size = sidecarLen cells ∧ payload.length = chunkPayload cells.length size := by
  simp only [encodeV2ChunkPayload, bind_eq_ok, Prod.exists, refuse_eq_ok, pure_eq_ok, Prod.mk.injEq] at encoded
  obtain ⟨bytes, sidecar, cellsEncoded, _, _, _, _, rfl, rfl⟩ := encoded
  obtain ⟨sizes, grown⟩ := encodeProjectionCells_sizes cellsEncoded
  refine ⟨by simpa using grown, ?_⟩
  rw [List.length_append, List.length_append, length_header, sizes, chunkPayload]

theorem encodeProjectionCells_ok (each : ∀ cell ∈ cells, cell.WellFormed) (sidecar : List UInt8) :
    ∃ bytes after, encodeProjectionCells cells sidecar = .ok (bytes, after) := by
  induction cells generalizing sidecar with
  | nil => exact ⟨_, _, rfl⟩
  | cons cell rest ih =>
      have formed := each cell List.mem_cons_self
      have here : ∃ bytes middle, encodeProjectionCellV2 cell sidecar = .ok (bytes, middle) := by
        unfold encodeProjectionCellV2
        by_cases lead : cell.role = .lead
        · obtain ⟨_, short, _, width⟩ := formed.lead lead
          obtain ⟨needs, asked⟩ := formed.needsSidecar
          rw [if_pos lead, show refuse (cell.width ≠ 1 ∧ cell.width ≠ 2) DisplayError.invalidWidth = .ok () from
            refuse_eq_ok.mpr (by omega), ok_bind, asked, ok_bind]
          cases needs with
          | true =>
              rw [if_pos rfl, show refuse (maxGraphemeUtf8Bytes < cell.text.length) DisplayError.invalidSidecar = .ok ()
                from refuse_eq_ok.mpr (Nat.not_lt.mpr short), ok_bind]
              exact ⟨_, _, rfl⟩
          | false => exact ⟨_, _, rfl⟩
        · obtain ⟨text, width⟩ := formed.other lead
          rw [if_neg lead, show refuse (cell.width ≠ 0 ∨ cell.text ≠ []) DisplayError.invalidCell = .ok () from
            refuse_eq_ok.mpr (by simp [text, width])]
          exact ⟨_, _, rfl⟩
      obtain ⟨bytes, middle, encoded⟩ := here
      obtain ⟨others, after, further⟩ := ih (List.forall_mem_cons.mp each).2 middle
      refine ⟨bytes ++ others, after, ?_⟩
      rw [encodeProjectionCells, encoded, ok_bind]
      dsimp only
      rw [further]
      rfl

theorem encodeV2ChunkPayload_ok (each : ∀ cell ∈ cells, cell.WellFormed)
    (small : sidecarLen cells ≤ maxGraphemeSidecarBytes)
    (room : chunkPayload cells.length (sidecarLen cells) ≤ maxChunkPayload) (display : DisplayMeta)
    (baseGeneration : Nat) (span : V2ChunkSpan) :
    ∃ payload, encodeV2ChunkPayload display baseGeneration span cells = .ok (payload, sidecarLen cells) := by
  obtain ⟨bytes, sidecar, encoded⟩ := encodeProjectionCells_ok each []
  obtain ⟨sizes, grown⟩ := encodeProjectionCells_sizes encoded
  rw [List.length_nil, Nat.zero_add] at grown
  have fits : displayChunkHeaderV2Len + bytes.length + sidecar.length ≤ maxFramePayload := by
    rw [sizes, grown]
    exact Nat.le_trans room (Nat.sub_le _ _)
  have smallSidecar : refuse (maxGraphemeSidecarBytes < sidecar.length) DisplayError.invalidSidecar = .ok () :=
    refuse_eq_ok.mpr (Nat.not_lt.mpr (grown ▸ small))
  have smallPayload : refuse (maxFramePayload < displayChunkHeaderV2Len + bytes.length + sidecar.length)
      DisplayError.invalidLength = .ok () := refuse_eq_ok.mpr (Nat.not_lt.mpr fits)
  rw [encodeV2ChunkPayload, encoded, ok_bind]
  dsimp only
  rw [smallSidecar, ok_bind, smallPayload, ok_bind, ← grown]
  exact ⟨_, rfl⟩

/-- The plan for well-formed cells: it is made, its spans tile the cells and keep wide leads with their
continuations, and each passes the client's check and becomes a chunk with room for the envelope. -/
theorem planV2Spans_tiles {columns : Nat} (formed : WellFormedCells columns cells) :
    ∃ spans, planV2Spans columns cells = .ok spans ∧ Tiles 0 spans cells.length ∧
      ∀ span ∈ spans,
        span.cellStart = span.rowOffset * columns + span.firstCol ∧
        validateV2Span span.firstCol span.rowCount span.cellCount columns = .ok () ∧
        (∀ index, span.cellStart ≤ index → index < span.cellStart + span.cellCount → isWide cells index = true →
          index + 1 < span.cellStart + span.cellCount) ∧
        (∀ index, span.cellStart ≤ index → index < span.cellStart + span.cellCount →
          isRole cells index .continuation = true → span.cellStart ≤ index - 1 ∧ isWide cells (index - 1) = true) ∧
        ∀ display baseGeneration chunk, ∃ payload sidecar,
          encodeV2ChunkPayload display baseGeneration chunk
            (subrange cells span.cellStart (span.cellStart + span.cellCount)) = .ok (payload, sidecar) ∧
          sidecar ≤ maxGraphemeSidecarBytes ∧
          payload.length ≤ maxFramePayload - prefixLen := by
  obtain ⟨spans, planned, tiles, each⟩ := planV2Spans_spec formed
  refine ⟨spans, planned, tiles, fun span member => ?_⟩
  obtain ⟨place, valid, starts, ends⟩ := each span member
  obtain ⟨small, room⟩ := planV2Spans_fits planned member
  have inside := tiles.inside member
  have size : (subrange cells span.cellStart (span.cellStart + span.cellCount)).length = span.cellCount := by
    rw [length_subrange inside, Nat.add_sub_cancel_left]
  refine ⟨place, valid, fun index _ upper wide => ?_, fun index lower _ continues => ?_,
    fun display baseGeneration chunk => ?_⟩
  · have continues := (formed.wide index wide).2
    refine Nat.lt_of_le_of_ne upper fun last => ?_
    rw [last, ends] at continues
    cases continues
  · refine ⟨?_, (formed.continuation index continues).2⟩
    have moved : span.cellStart ≠ index := by
      rintro rfl
      rw [starts] at continues
      cases continues
    omega
  · have roomForSlice : chunkPayload (subrange cells span.cellStart (span.cellStart + span.cellCount)).length
        (sidecarLen (subrange cells span.cellStart (span.cellStart + span.cellCount))) ≤ maxChunkPayload := by
      rw [size]
      rwa [Nat.add_sub_cancel_left] at room
    obtain ⟨payload, encoded⟩ :=
      encodeV2ChunkPayload_ok (fun _ => formed.member) small roomForSlice display baseGeneration chunk
    refine ⟨payload, _, encoded, small, ?_⟩
    rw [(encodeV2ChunkPayload_sizes encoded).2]
    exact roomForSlice

end SchemaTwo

def widePair : List ProjectionCell :=
  [{ role := .lead, width := 2, text := encodeUtf8 ['世'], scalar := '世', foreground := .default,
     background := .default, attributes := {} },
   { role := .continuation, width := 0, text := [], scalar := ' ', foreground := .default, background := .default,
     attributes := {} }]

theorem planV2Spans_tiles_pair :
    ∃ spans, planV2Spans 2 widePair = .ok spans ∧ Tiles 0 spans 2 := by
  have formed : WellFormedCells 2 widePair := by
    refine ⟨by decide, by decide, ⟨1, by decide, by decide, rfl⟩, ?_, ?_, ?_⟩
    · intro cell member
      simp only [widePair, List.mem_cons, List.not_mem_nil, or_false] at member
      rcases member with rfl | rfl
      · refine ⟨fun _ => ⟨by decide, by decide, ?_, .inr rfl⟩, fun other => absurd rfl other⟩
        rw [fromUtf8_encodeUtf8]
        rfl
      · refine ⟨fun lead => ?_, fun _ => ⟨rfl, rfl⟩⟩
        cases lead
    · intro index wide
      rcases index with _ | _ | index
      · exact ⟨by decide, by decide⟩
      · exact absurd wide (by decide)
      · simp [isWide, widePair] at wide
    · intro index continues
      rcases index with _ | _ | index
      · exact absurd continues (by decide)
      · exact ⟨by decide, by decide⟩
      · simp [isRole, widePair] at continues
  obtain ⟨spans, planned, tiles, _⟩ := planV2Spans_tiles formed
  exact ⟨spans, planned, tiles⟩

def ProjectionCell.isScalarLossless (cell : ProjectionCell) : Bool :=
  match cell.role with
  | .empty => cell.text = [] ∧ cell.width = 0
  | .continuation => false
  | .lead => cell.width = 1 ∧ cell.text ≠ [] ∧ (fromUtf8 cell.text).any (·.length = 1)

/-- The attributes take two bytes, and two more are reserved. -/
def encodeProjectionCellV1 (cell : ProjectionCell) : Except DisplayError (List UInt8) := do
  refuse (¬ cell.isScalarLossless) .invalidCell
  return cellBytes cell.scalar.toNat (DisplayAttributes.bits cell.attributes) cell

def encodeProjectionCellsV1 : List ProjectionCell → Except DisplayError (List UInt8)
  | [] => return []
  | cell :: rest => do
      let bytes ← encodeProjectionCellV1 cell
      let others ← encodeProjectionCellsV1 rest
      return bytes ++ others

def encodeChunks (display : DisplayMeta) (kind : DisplayKind) (baseGeneration firstRow rowCount : Nat)
    (cells : List ProjectionCell) (rowsPerChunk chunkCount : Nat) :
    Nat → Nat → Nat → Nat → Except DisplayError (List Frame)
  | 0, _, _, _ => return []
  | left + 1, chunkIndex, emittedRows, totalBytes => do
      let chunkRows := min rowsPerChunk (rowCount - emittedRows)
      let cellCount := chunkRows * display.columns
      refuse (maxFramePayload < displayChunkHeaderLen + cellCount * displayCellLen) .invalidLength
      let sourceFirst := emittedRows * display.columns
      let bytes ← encodeProjectionCellsV1 (subrange cells sourceFirst (sourceFirst + cellCount))
      let header := display.encode baseGeneration ++ toLe 2 (firstRow + emittedRows) ++ toLe 2 chunkRows ++
        toLe 2 chunkIndex ++ toLe 2 chunkCount ++ toLe 4 cellCount
      let frame := encodeFrame kind.messageTypeV1 (header ++ bytes)
      let totalBytes := totalBytes + frame.bytes.length
      refuse (maxDisplayBatchBytes < totalBytes) .batchTooLarge
      let frames ← encodeChunks display kind baseGeneration firstRow rowCount cells rowsPerChunk chunkCount left
        (chunkIndex + 1) (emittedRows + chunkRows) totalBytes
      return frame :: frames

def encodeRows (display : DisplayMeta) (kind : DisplayKind) (baseGeneration firstRow rowCount : Nat)
    (cells : List ProjectionCell) : Except DisplayError (List Frame) := do
  validateGeometry display.rows display.columns display.cursorRow display.cursorCol
  refuse (rowCount = 0 ∨ display.rows ≤ firstRow ∨ display.rows < firstRow + rowCount) .invalidDamage
  refuse (cells.length ≠ rowCount * display.columns) .invalidDamage
  let rowsPerChunk := (maxFramePayload - displayChunkHeaderLen) / (display.columns * displayCellLen)
  refuse (rowsPerChunk = 0) .invalidGeometry
  let chunkCount := (rowCount + rowsPerChunk - 1) / rowsPerChunk
  refuse (2 ^ 16 ≤ chunkCount) .overflow
  encodeChunks display kind baseGeneration firstRow rowCount cells rowsPerChunk chunkCount chunkCount 0 0 0

structure TerminalProjectionSnapshot where
  display : DisplayMeta
  cells : List ProjectionCell

structure ProjectionDamage where
  full : Bool
  firstRow : Nat
  lastRow : Nat

def ProjectionDamage.rowCount (damage : ProjectionDamage) : Nat :=
  if damage.lastRow < damage.firstRow then 0 else damage.lastRow - damage.firstRow + 1

structure TerminalProjectionUpdate where
  display : DisplayMeta
  damage : ProjectionDamage
  cells : List ProjectionCell

def validateSnapshot (snapshot : TerminalProjectionSnapshot) : Except DisplayError Unit := do
  let display := snapshot.display
  validateGeometry display.rows display.columns display.cursorRow display.cursorCol
  let expected := display.rows * display.columns
  refuse (maxDisplayCells < expected ∨ snapshot.cells.length ≠ expected) .invalidGeometry

def validateUpdate (update : TerminalProjectionUpdate) : Except DisplayError Unit := do
  let display := update.display
  validateGeometry display.rows display.columns display.cursorRow display.cursorCol
  let damage := update.damage
  refuse (damage.lastRow < damage.firstRow ∨ display.rows ≤ damage.lastRow) .invalidDamage
  refuse (damage.full = true ∧ (damage.firstRow ≠ 0 ∨ damage.lastRow ≠ display.rows - 1)) .invalidDamage
  let expected := damage.rowCount * display.columns
  refuse (maxDisplayCells < expected ∨ update.cells.length ≠ expected) .invalidDamage

def encodeSnapshot (snapshot : TerminalProjectionSnapshot) : Except DisplayError (List Frame) := do
  validateSnapshot snapshot
  refuse (¬ snapshot.cells.all ProjectionCell.isScalarLossless) .invalidCell
  encodeRows snapshot.display .snapshot 0 0 snapshot.display.rows snapshot.cells

def encodeDelta (update : TerminalProjectionUpdate) (baseGeneration : Nat) : Except DisplayError (List Frame) := do
  validateUpdate update
  refuse (¬ update.cells.all ProjectionCell.isScalarLossless) .invalidCell
  encodeRows update.display .delta baseGeneration update.damage.firstRow update.damage.rowCount update.cells

def encodeSnapshotV2 (snapshot : TerminalProjectionSnapshot) : Except DisplayError (List Frame) := do
  validateSnapshot snapshot
  encodeCellsV2 snapshot.display .snapshot 0 0 0 snapshot.display.rows snapshot.cells

def encodeDeltaV2 (update : TerminalProjectionUpdate) (baseGeneration : Nat) : Except DisplayError (List Frame) := do
  validateUpdate update
  encodeCellsV2 update.display .delta baseGeneration update.damage.firstRow 0 update.damage.rowCount update.cells

section Envelope

variable {kind : MessageType} {payload : List UInt8} {attachmentId : AttachmentId} {resumeSequence : UInt64}

theorem frameHeader_encodeFrame (presentation : isPresentationMessage kind.toU16 = true)
    (small : payload.length ≤ maxFramePayload) :
    frameHeader (encodeFrame kind payload).bytes =
        .ok (FrameHeader.new kind.toU16 (UInt32.ofNat payload.length)) ∧
      (FrameHeader.new kind.toU16 (UInt32.ofNat payload.length)).payloadLen.toNat = payload.length := by
  have length : (UInt32.ofNat payload.length).toNat = payload.length :=
    UInt32.toNat_ofNat_of_lt' (Nat.lt_of_le_of_lt small (by decide))
  have tail : (encodeFrame kind payload).bytes.drop headerLen = payload :=
    List.drop_left' (FrameHeader.length_encode _)
  refine ⟨frameHeader_eq_ok.mpr ⟨⟨rfl, length.trans_le small⟩, presentation, ?_, ?_⟩, length⟩
  · rw [tail]
    exact length
  · rw [tail]
    rfl

theorem wrap_encodeFrame (presentation : isPresentationMessage kind.toU16 = true)
    (small : payload.length ≤ maxFramePayload) :
    (∃ wrapped, wrap (encodeFrame kind payload).bytes attachmentId resumeSequence = .ok wrapped) ↔
      payload.length ≤ maxChunkPayload := by
  obtain ⟨header, length⟩ := frameHeader_encodeFrame presentation small
  have limit : payload.length + prefixLen ≤ maxFramePayload ↔
      payload.length ≤ maxChunkPayload := by
    simp only [maxChunkPayload, maxFramePayload, prefixLen]
    omega
  simp only [wrap, header, ok_bind, length, refuse_bind_eq_ok, pure_eq_ok, Nat.not_lt, limit,
    exists_and_left, exists_eq', and_true]

/-- A frame of a presentation type with room for the envelope. -/
def Wrappable (frame : Frame) : Prop :=
  ∃ kind payload, frame = encodeFrame kind payload ∧ isPresentationMessage kind.toU16 = true ∧
    payload.length ≤ maxChunkPayload

theorem Wrappable.wrap {frame : Frame} (wrappable : Wrappable frame) :
    ∃ wrapped, wrap frame.bytes attachmentId resumeSequence = .ok wrapped := by
  obtain ⟨kind, payload, rfl, presentation, room⟩ := wrappable
  exact (wrap_encodeFrame presentation (Nat.le_trans room (Nat.sub_le _ _))).mpr room

end Envelope

section Frames

variable {display : DisplayMeta} {kind : DisplayKind} {baseGeneration firstRow rowCount : Nat}
  {cells : List ProjectionCell} {frames : List Frame} {frame : Frame}

theorem encodeSpans_wrappable {chunkCount chunkIndex : Nat} {spans : List SpanPlan}
    (each : ∀ span ∈ spans, span.Fits cells)
    (encoded : encodeSpans display kind baseGeneration firstRow cells chunkCount spans chunkIndex = .ok frames)
    (member : frame ∈ frames) : Wrappable frame := by
  induction spans generalizing chunkIndex frames with
  | nil =>
      cases encoded
      cases member
  | cons span rest ih =>
      simp only [encodeSpans, bind_eq_ok, Prod.exists, pure_eq_ok] at encoded
      obtain ⟨_, _, payload, sidecar, chunk, others, further, rfl⟩ := encoded
      cases List.mem_cons.mp member with
      | inl here =>
          obtain ⟨_, room⟩ := each span List.mem_cons_self
          obtain ⟨rfl, size⟩ := encodeV2ChunkPayload_sizes chunk
          have few : (subrange cells span.cellStart (span.cellStart + span.cellCount)).length ≤
              span.cellStart + span.cellCount - span.cellStart := List.length_take_le _ _
          have less := Nat.mul_le_mul_right displayCellLen few
          refine ⟨_, payload, here, ?_, ?_⟩
          · cases kind <;> rfl
          · rw [size, chunkPayload]
            rw [chunkPayload] at room
            omega
      | inr later => exact ih (List.forall_mem_cons.mp each).2 further later

theorem encodeCellsV2_wrappable {firstCol : Nat}
    (encoded : encodeCellsV2 display kind baseGeneration firstRow firstCol rowCount cells = .ok frames)
    (member : frame ∈ frames) : Wrappable frame := by
  simp only [encodeCellsV2, bind_eq_ok] at encoded
  obtain ⟨_, _, _, _, _, _, spans, planned, _, _, encoded⟩ := encoded
  exact encodeSpans_wrappable (fun span => planV2Spans_fits planned) encoded member

theorem encodeProjectionCellsV1_size {bytes : List UInt8} (encoded : encodeProjectionCellsV1 cells = .ok bytes) :
    bytes.length = cells.length * displayCellLen := by
  induction cells generalizing bytes with
  | nil =>
      cases encoded
      rfl
  | cons cell rest ih =>
      simp only [encodeProjectionCellsV1, encodeProjectionCellV1, bind_eq_ok, pure_eq_ok] at encoded
      obtain ⟨_, ⟨_, _, rfl⟩, others, further, rfl⟩ := encoded
      rw [List.length_append, length_cellBytes, ih further, List.length_cons, Nat.succ_mul, Nat.add_comm]

/-- 16381 cells would leave too little room, but no chunk has so many: the number is prime. -/
theorem cells_of_chunk {rows columns : Nat} (rowsLe : rows ≤ maxDisplayRows) (columnsLe : columns ≤ maxDisplayColumns)
    (fits : displayChunkHeaderLen + rows * columns * displayCellLen ≤ maxFramePayload) :
    displayChunkHeaderLen + rows * columns * displayCellLen ≤ maxChunkPayload := by
  have most : rows * columns ≤ 16381 := by
    simp only [displayChunkHeaderLen, displayCellLen, maxFramePayload] at fits
    omega
  have other : rows * columns ≠ 16381 := by
    intro same
    have noDivisor : ∀ rows ≤ 256, 16381 % rows = 0 → rows = 1 := by decide +kernel
    have one := noDivisor rows rowsLe (by rw [← same, Nat.mul_mod_right])
    have large : columns ≤ 512 := columnsLe
    rw [one] at same
    omega
  simp only [displayChunkHeaderLen, displayCellLen, maxChunkPayload, maxFramePayload, prefixLen]
  omega

theorem encodeChunks_wrappable {rowsPerChunk chunkCount left chunkIndex emittedRows totalBytes : Nat}
    (rowsLe : rowCount ≤ maxDisplayRows) (columnsLe : display.columns ≤ maxDisplayColumns)
    (encoded : encodeChunks display kind baseGeneration firstRow rowCount cells rowsPerChunk chunkCount left chunkIndex
      emittedRows totalBytes = .ok frames)
    (member : frame ∈ frames) : Wrappable frame := by
  induction left generalizing chunkIndex emittedRows totalBytes frames with
  | zero =>
      cases encoded
      cases member
  | succ left ih =>
      simp only [encodeChunks, bind_eq_ok, refuse_eq_ok, pure_eq_ok, Nat.not_lt] at encoded
      obtain ⟨_, fits, bytes, cellsEncoded, _, _, others, further, rfl⟩ := encoded
      cases List.mem_cons.mp member with
      | inr later => exact ih further later
      | inl here =>
          have room := cells_of_chunk (by omega) columnsLe fits
          have size := encodeProjectionCellsV1_size cellsEncoded
          refine ⟨_, _, here, ?_, ?_⟩
          · cases kind <;> rfl
          · have fewer : (subrange cells (emittedRows * display.columns)
                (emittedRows * display.columns + min rowsPerChunk (rowCount - emittedRows) * display.columns)).length ≤
                emittedRows * display.columns + min rowsPerChunk (rowCount - emittedRows) * display.columns -
                  emittedRows * display.columns := List.length_take_le _ _
            rw [Nat.add_sub_cancel_left] at fewer
            have less := Nat.mul_le_mul_right displayCellLen fewer
            rw [List.length_append, size]
            exact Nat.le_trans (Nat.add_le_add (Nat.le_of_eq rfl) less) room

theorem encodeRows_wrappable (encoded : encodeRows display kind baseGeneration firstRow rowCount cells = .ok frames)
    (member : frame ∈ frames) : Wrappable frame := by
  simp only [encodeRows, bind_eq_ok, refuse_eq_ok] at encoded
  obtain ⟨_, valid, _, inside, _, _, _, _, _, _, encoded⟩ := encoded
  simp only [validateGeometry, bind_eq_ok, refuse_eq_ok] at valid
  obtain ⟨_, limits, _⟩ := valid
  exact encodeChunks_wrappable (by omega) (by omega) encoded member

end Frames

end Seyal.Runtime
