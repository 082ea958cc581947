import Seyal.Program.Shared
import Seyal.Runtime.Projection.Layout

namespace Seyal.Runtime.Projection

open Program

/-! One writer publishes snapshots into two slots of a shared region, and readers copy
the latest one out of it. Loads and stores are of single words, in one order for all. -/

structure SnapshotWrite where
  rows : UInt16
  columns : UInt16
  cursorRow : UInt16
  cursorCol : UInt16
  cursorVisible : Bool
  cursorStyle : UInt8
  modeFlags : ModeFlags
  cells : List CellRecord
  damages : List DamageRecord
  fullSnapshot : Bool
  sourceDamageGeneration : UInt64
  deriving DecidableEq

inductive WriterError where
  | outOfBounds
  | invalidInput (layout : LayoutError)
  | generationExhausted
  deriving Repr, DecidableEq

inductive ReaderError where
  | noReadableGeneration
  | tornReadExceededRetries
  | layout (error : LayoutError)
  | outOfBounds
  deriving Repr, DecidableEq

structure SnapshotRead where
  generation : Nat
  header : SlotHeader
  cells : List CellRecord
  damages : List DamageRecord
  deriving Repr, DecidableEq

structure Writer where
  nextGeneration : Nat
  committedSlot : Option Nat

def maxGeneration : Nat := 2 ^ 63 - 1

def maxReadRetries : Nat := 64

def validateRegionMemory (memoryLen : Nat) (region : RegionHeader) : Except ReaderError Unit := do
  let slot0 := region.slot0Offset.toNat
  let stride := region.slotStride.toNat
  refuse (region.regionBytes.toNat < regionHeaderLen ∨ memoryLen < region.regionBytes.toNat) .outOfBounds
  refuse (slot0 < regionHeaderLen) (.layout .invalidOffsets)
  refuse (slot0 % 64 ≠ 0 ∨ stride % 8 ≠ 0) (.layout .slotNotAligned)
  refuse (stride < slotHeaderLen) (.layout .slotOutOfBounds)
  refuse (2 ^ 64 ≤ slot0 + stride) (.layout .lengthOverflow)
  refuse (2 ^ 64 ≤ slot0 + stride + stride) (.layout .lengthOverflow)
  refuse (region.regionBytes.toNat < slot0 + stride + stride) (.layout .slotOutOfBounds)

def validateSnapshot (region : RegionHeader) (snapshot : SnapshotWrite) : Except WriterError Unit := do
  refuse (region.capacityRows < snapshot.rows ∨ region.capacityCols < snapshot.columns)
    (.invalidInput .invalidRowsColumns)
  refuse (snapshot.cells.length ≠ snapshot.rows.toNat * snapshot.columns.toNat) (.invalidInput .invalidCellCount)
  refuse (snapshot.rows.toNat < snapshot.damages.length) (.invalidInput .invalidDamageCount)
  refuse (snapshot.fullSnapshot = false) (.invalidInput .invalidSnapshotFlags)
  refuse (region.slotStride.toNat <
    slotHeaderLen + snapshot.cells.length * cellLen + snapshot.damages.length * damageLen)
    (.invalidInput .invalidOffsets)

def SnapshotWrite.header (snapshot : SnapshotWrite) (generation : Nat) : SlotHeader where
  generation := UInt64.ofNat generation
  payloadBytes := UInt32.ofNat (snapshot.cells.length * cellLen + snapshot.damages.length * damageLen)
  rows := snapshot.rows
  columns := snapshot.columns
  cursorRow := snapshot.cursorRow
  cursorCol := snapshot.cursorCol
  cursorVisible := snapshot.cursorVisible
  cursorStyle := snapshot.cursorStyle
  modeFlags := snapshot.modeFlags
  cellCount := UInt32.ofNat snapshot.cells.length
  damageCount := UInt16.ofNat snapshot.damages.length
  fullSnapshot := snapshot.fullSnapshot
  cellsOffset := UInt32.ofNat slotHeaderLen
  damagesOffset := UInt32.ofNat (slotHeaderLen + snapshot.cells.length * cellLen)
  sourceDamageGeneration := snapshot.sourceDamageGeneration

abbrev Store := Nat × Nat

def storesFrom (offset : Nat) : List Nat → List Store
  | [] => []
  | word :: words => (offset, word) :: storesFrom (offset + 8) words

def writeAtomicBytes (offset : Nat) (bytes : List UInt8) : List Store := storesFrom offset (wordsOf bytes)

def writeRecords {α : Type} (offset size : Nat) (encode : α → List UInt8) (records : List α) : List Store :=
  records.zipIdx.flatMap fun (record, index) => writeAtomicBytes (offset + index * size) (encode record)

def Writer.freeSlot (writer : Writer) : Nat :=
  match writer.committedSlot with
  | some 0 => 1
  | _ => 0

/-- The stores of `publish`, in order, and the writer after them. -/
def publish (region : RegionHeader) (writer : Writer) (snapshot : SnapshotWrite) :
    Except WriterError (List Store × Writer) := do
  validateSnapshot region snapshot
  refuse (maxGeneration < writer.nextGeneration) .generationExhausted
  let slot := writer.freeSlot
  let generation := writer.nextGeneration
  let slotOffset := region.slotOffset slot
  let damagesOffset := slotHeaderLen + snapshot.cells.length * cellLen
  return ([(slotOffset + slotSequenceOffset, 2 * generation + 1)] ++
      writeAtomicBytes (slotOffset + 8) (snapshot.header generation).encode ++
      writeRecords (slotOffset + slotHeaderLen) cellLen CellRecord.encode snapshot.cells ++
      writeRecords (slotOffset + damagesOffset) damageLen DamageRecord.encode snapshot.damages ++
      [(slotOffset + slotSequenceOffset, 2 * generation), (publicationWordOffset, 2 * generation + slot)],
    ⟨generation + 1, some slot⟩)

abbrev Reads := Reading Nat ReaderError

def layoutError {α : Type} (outcome : Except LayoutError α) : Reads α := .fromExcept (outcome.mapError .layout)

def atomicLoad (memoryLen offset : Nat) : Reads Nat :=
  if offset % 8 ≠ 0 ∨ memoryLen < offset + 8 then throw .outOfBounds else .word offset

def readAtomicBytes (memoryLen offset len : Nat) : Reads (List UInt8) :=
  if offset % 8 ≠ 0 ∨ len % 8 ≠ 0 ∨ memoryLen < offset + len then throw .outOfBounds
  else do
    let words ← .wordsFrom offset (len / 8)
    return bytesOf words

/-- One round of the loop of `read_latest`; none to go on to the next. -/
def attemptRead (memoryLen : Nat) (region : RegionHeader) : Reads (Option SnapshotRead) := do
  let publication ← atomicLoad memoryLen publicationWordOffset
  let generation := publication / 2
  let slot := publication % 2
  if generation = 0 then throw .noReadableGeneration
  else do
    let slotOffset := region.slotOffset slot
    let sequenceBefore ← atomicLoad memoryLen (slotOffset + slotSequenceOffset)
    if sequenceBefore % 2 ≠ 0 ∨ sequenceBefore ≠ 2 * generation then return none
    else do
      let headerBytes ← readAtomicBytes memoryLen (slotOffset + 8) (slotHeaderLen - 8)
      let header ← layoutError (SlotHeader.decode headerBytes region.capacityRows region.capacityCols)
      if header.generation.toNat ≠ generation then return none
      else do
        let (cellsRange, damagesRange) ← layoutError (header.cellAndDamageRanges region.slotStride.toNat)
        let cellBytes ← readAtomicBytes memoryLen (slotOffset + cellsRange.1) cellsRange.2
        let damageBytes ← readAtomicBytes memoryLen (slotOffset + damagesRange.1) damagesRange.2
        let cells ← layoutError ((chunks cellLen (cellBytes.length / cellLen) cellBytes).mapM CellRecord.decode)
        let damages ← layoutError ((chunks damageLen (damageBytes.length / damageLen) damageBytes).mapM
          fun bytes => DamageRecord.decode bytes header.rows)
        let sequenceAfter ← atomicLoad memoryLen (slotOffset + slotSequenceOffset)
        let publicationAfter ← atomicLoad memoryLen publicationWordOffset
        if sequenceAfter = sequenceBefore ∧ sequenceAfter = 2 * generation ∧ publicationAfter = publication then
          return some ⟨generation, header, cells, damages⟩
        else return none

def readRetries (memoryLen : Nat) (region : RegionHeader) : Nat → Reads SnapshotRead
  | 0 => throw .tornReadExceededRetries
  | retries + 1 => do
      match ← attemptRead memoryLen region with
      | some read => return read
      | none => readRetries memoryLen region retries

def readLatest (memoryLen : Nat) (region : RegionHeader) : Reads SnapshotRead := do
  .fromExcept (validateRegionMemory memoryLen region)
  readRetries memoryLen region maxReadRetries

/-- The shared memory and the writer, whose call in progress has these stores left.
Ghost: the snapshots of all calls that store, the first of which has generation 1. -/
structure World (region : RegionHeader) where
  memory : Nat → Nat
  writer : Writer
  pending : List Store
  published : List SnapshotWrite

namespace World

variable {region : RegionHeader}

def start (memory : Nat → Nat) : World region where
  memory := Function.update (Function.update (Function.update memory (region.slotOffset 0 + slotSequenceOffset) 0)
    (region.slotOffset 1 + slotSequenceOffset) 0) publicationWordOffset 0
  writer := ⟨1, none⟩
  pending := []
  published := []

/-- The writer calls `publish`, which stores nothing if it fails. -/
def call (world : World region) (snapshot : SnapshotWrite) : Option (World region) :=
  match world.pending with
  | [] =>
      match Projection.publish region world.writer snapshot with
      | .ok (stores, writer) =>
          some { world with writer := writer, pending := stores, published := world.published ++ [snapshot] }
      | .error _ => some world
  | _ :: _ => none

def store (world : World region) : Option (World region) :=
  match world.pending with
  | [] => none
  | (offset, word) :: rest =>
      some { world with memory := Function.update world.memory offset word, pending := rest }

inductive Step : World region → World region → Prop where
  | call {world next : World region} (snapshot : SnapshotWrite) (called : world.call snapshot = some next) :
      Step world next
  | store {world next : World region} (stored : world.store = some next) : Step world next

instance : Preorder (World region) where
  le := Relation.ReflTransGen Step
  le_refl _ := .refl
  le_trans _ _ _ := .trans

end World

/-- The generation that the publication word announces; zero for none. -/
def World.announced {region : RegionHeader} (world : World region) : Nat := world.memory publicationWordOffset / 2

/-- The outcome of a call. Ghost: the generations announced when the call began and when it ended. -/
structure ReadResult where
  since : Nat
  ended : Nat
  outcome : Except ReaderError SnapshotRead
  deriving DecidableEq

/-- A reader and the load that its call in progress waits for. Ghost: the generation announced
when that call began. -/
structure ReaderState where
  reading : Option (Nat × (Nat → Reads SnapshotRead)) := none
  since : Nat := 0
  results : List ReadResult := []

def ReaderState.proceed (reader : ReaderState) (announced : Nat) : Reads SnapshotRead → ReaderState
  | .done outcome =>
      { reader with reading := none, results := reader.results ++ [⟨reader.since, announced, outcome⟩] }
  | .load offset next => { reader with reading := some (offset, next) }

structure System (region : RegionHeader) where
  world : World region
  readers : Nat → ReaderState

inductive Event where
  | publish (snapshot : SnapshotWrite)
  | store
  | readLatest (reader : Nat)
  | load (reader : Nat)

namespace System

variable {region : RegionHeader}

def setReader (system : System region) (reader : Nat) (state : ReaderState) : System region :=
  { system with readers := Function.update system.readers reader state }

def step (memoryLen : Nat) (system : System region) : Event → Option (System region)
  | .publish snapshot => (system.world.call snapshot).map fun world => { system with world := world }
  | .store => system.world.store.map fun world => { system with world := world }
  | .readLatest reader =>
      match (system.readers reader).reading with
      | none =>
          let called := { system.readers reader with since := system.world.announced }
          some (system.setReader reader
            (called.proceed system.world.announced (Projection.readLatest memoryLen region)))
      | some _ => none
  | .load reader =>
      match (system.readers reader).reading with
      | none => none
      | some (offset, next) =>
          some (system.setReader reader
            ((system.readers reader).proceed system.world.announced (next (system.world.memory offset))))

def run (memoryLen : Nat) : System region → List Event → Option (System region)
  | system, [] => some system
  | system, event :: events => do run memoryLen (← system.step memoryLen event) events

def start (memory : Nat → Nat) : System region := ⟨World.start memory, fun _ => {}⟩

end System

end Seyal.Runtime.Projection
