import Seyal.Program.Layout
import Seyal.Program.Reader

namespace Seyal.Runtime.Projection

open Program Reader

/-! The fixed-width records of the shared projection. Every record is a whole number of
words of eight bytes, and is loaded and stored word by word. -/

def regionHeaderLen : Nat := 128

def slotHeaderLen : Nat := 64

def cellLen : Nat := 16

def damageLen : Nat := 8

def maxCapacityCells : Nat := 131072

def publicationWordOffset : Nat := 96

def slotSequenceOffset : Nat := 0

inductive LayoutError where
  | tooShort
  | slotNotAligned
  | slotOutOfBounds
  | nonzeroReserved
  | invalidRowsColumns
  | invalidCellCount
  | invalidDamageCount
  | invalidCursorPosition
  | invalidOffsets
  | invalidSnapshotFlags
  | invalidModeFlags
  | invalidDamageFlags
  | invalidDamageRange
  | invalidUnicodeScalar
  | invalidColorEncoding
  | invalidAttributeFlags
  | lengthOverflow
  deriving Repr, DecidableEq

/-- The part of the region header that the writer and the readers use. -/
structure RegionHeader where
  regionBytes : UInt64
  slotStride : UInt64
  slot0Offset : UInt64
  capacityRows : UInt16
  capacityCols : UInt16
  deriving Repr, DecidableEq

def RegionHeader.slotOffset (region : RegionHeader) (slot : Nat) : Nat :=
  region.slot0Offset.toNat + slot * region.slotStride.toNat

structure ModeFlags where
  alternateScreen : Bool
  cursorVisible : Bool
  deriving Repr, DecidableEq

def ModeFlags.toU16 (flags : ModeFlags) : UInt16 :=
  flags.alternateScreen.toUInt16 ||| (flags.cursorVisible.toUInt16 <<< 1)

def ModeFlags.fromU16 (value : UInt16) : Except LayoutError ModeFlags :=
  if value &&& ~~~3 ≠ 0 then .error .invalidModeFlags else .ok ⟨value &&& 1 ≠ 0, value &&& 2 ≠ 0⟩

def flagFrom (error : LayoutError) (byte : UInt8) : Except LayoutError Bool :=
  if byte = 0 then .ok false else if byte = 1 then .ok true else .error error

structure SlotHeader where
  generation : UInt64
  payloadBytes : UInt32
  rows : UInt16
  columns : UInt16
  cursorRow : UInt16
  cursorCol : UInt16
  cursorVisible : Bool
  cursorStyle : UInt8
  modeFlags : ModeFlags
  cellCount : UInt32
  damageCount : UInt16
  fullSnapshot : Bool
  cellsOffset : UInt32
  damagesOffset : UInt32
  sourceDamageGeneration : UInt64
  deriving Repr, DecidableEq

/-- The words of the slot header after the first, which is the sequence. -/
def SlotHeader.groups (header : SlotHeader) : List (List UInt8) :=
  [le header.generation,
    le header.payloadBytes ++ le header.rows ++ le header.columns,
    le header.cursorRow ++ le header.cursorCol ++ le header.cursorVisible.toUInt8 ++ le header.cursorStyle ++
      le header.modeFlags.toU16,
    le header.cellCount ++ le header.damageCount ++ le header.fullSnapshot.toUInt8 ++ zeros 1,
    le header.cellsOffset ++ le header.damagesOffset,
    le header.sourceDamageGeneration,
    zeros 8]

def SlotHeader.encode (header : SlotHeader) : List UInt8 := header.groups.flatten

def SlotHeader.read : Reader LayoutError SlotHeader := do
  let generation ← .fixed UInt64 .tooShort
  let payloadBytes ← .fixed UInt32 .tooShort
  let rows ← .fixed UInt16 .tooShort
  let columns ← .fixed UInt16 .tooShort
  let cursorRow ← .fixed UInt16 .tooShort
  let cursorCol ← .fixed UInt16 .tooShort
  let cursorVisible ← .fixed UInt8 .tooShort
  let cursorVisible ← .fromExcept (flagFrom .nonzeroReserved cursorVisible)
  let cursorStyle ← .fixed UInt8 .tooShort
  let modeFlags ← .fixed UInt16 .tooShort
  let modeFlags ← .fromExcept (ModeFlags.fromU16 modeFlags)
  let cellCount ← .fixed UInt32 .tooShort
  let damageCount ← .fixed UInt16 .tooShort
  let fullSnapshot ← .fixed UInt8 .tooShort
  let fullSnapshot ← .fromExcept (flagFrom .invalidSnapshotFlags fullSnapshot)
  let reserved ← .take .tooShort 1
  refuse (reserved ≠ zeros 1) .nonzeroReserved
  let cellsOffset ← .fixed UInt32 .tooShort
  let damagesOffset ← .fixed UInt32 .tooShort
  let sourceDamageGeneration ← .fixed UInt64 .tooShort
  let reserved ← .take .tooShort 8
  refuse (reserved ≠ zeros 8) .nonzeroReserved
  return ⟨generation, payloadBytes, rows, columns, cursorRow, cursorCol, cursorVisible, cursorStyle, modeFlags,
    cellCount, damageCount, fullSnapshot, cellsOffset, damagesOffset, sourceDamageGeneration⟩

def SlotHeader.check (capacityRows capacityCols : UInt16) (header : SlotHeader) : Except LayoutError SlotHeader := do
  refuse (capacityRows < header.rows ∨ capacityCols < header.columns) .invalidRowsColumns
  refuse (header.fullSnapshot = false) .invalidSnapshotFlags
  refuse (header.cellCount.toNat ≠ header.rows.toNat * header.columns.toNat ∨
    maxCapacityCells < header.cellCount.toNat) .invalidCellCount
  refuse (header.rows < header.damageCount) .invalidDamageCount
  refuse (0 < header.rows ∧ 0 < header.columns ∧
    (header.rows ≤ header.cursorRow ∨ header.columns ≤ header.cursorCol)) .invalidCursorPosition
  return header

def SlotHeader.decode (bytes : List UInt8) (capacityRows capacityCols : UInt16) : Except LayoutError SlotHeader := do
  let (header, _) ← SlotHeader.read bytes
  header.check capacityRows capacityCols

/-- The byte ranges of the cells and of the damages, each as its start and length. -/
def SlotHeader.cellAndDamageRanges (header : SlotHeader) (slotStride : Nat) :
    Except LayoutError ((Nat × Nat) × (Nat × Nat)) := do
  let cellsStart := header.cellsOffset.toNat
  let cellsLen := header.cellCount.toNat * cellLen
  let damagesStart := header.damagesOffset.toNat
  let damagesLen := header.damageCount.toNat * damageLen
  refuse (cellsStart < slotHeaderLen ∨ damagesStart < cellsStart + cellsLen ∨
    header.payloadBytes.toNat ≠ cellsLen + damagesLen ∨ slotStride < cellsStart + cellsLen ∨
    slotStride < damagesStart + damagesLen) .invalidOffsets
  return ((cellsStart, cellsLen), (damagesStart, damagesLen))

inductive WireColor where
  | default
  | indexed (index : UInt8)
  | rgb (r g b : UInt8)
  deriving Repr, DecidableEq

/-- The kind is in the two top bits. -/
def WireColor.toU32 : WireColor → UInt32
  | .default => 0
  | .indexed index => UInt32.ofNat (2 ^ 30 + index.toNat)
  | .rgb r g b => UInt32.ofNat (2 ^ 31 + r.toNat * 2 ^ 16 + g.toNat * 2 ^ 8 + b.toNat)

def WireColor.fromU32 (value : UInt32) : Except LayoutError WireColor :=
  let kind := value.toNat / 2 ^ 30
  let payload := value.toNat % 2 ^ 30
  if kind = 0 then if payload ≠ 0 then .error .invalidColorEncoding else .ok .default
  else if kind = 1 then
    if 0xff < payload then .error .invalidColorEncoding else .ok (.indexed (UInt8.ofNat payload))
  else if kind = 2 then
    if 0x00ffffff < payload then .error .invalidColorEncoding
    else .ok (.rgb (UInt8.ofNat (payload / 2 ^ 16 % 256)) (UInt8.ofNat (payload / 2 ^ 8 % 256))
      (UInt8.ofNat (payload % 256)))
  else .error .invalidColorEncoding

structure WireAttributes where
  bold : Bool
  underline : Bool
  inverse : Bool
  deriving Repr, DecidableEq

def WireAttributes.toU16 (attributes : WireAttributes) : UInt16 :=
  attributes.bold.toUInt16 ||| (attributes.underline.toUInt16 <<< 1) ||| (attributes.inverse.toUInt16 <<< 2)

def WireAttributes.fromU16 (value : UInt16) : Except LayoutError WireAttributes :=
  if value &&& ~~~7 ≠ 0 then .error .invalidAttributeFlags
  else .ok ⟨value &&& 1 ≠ 0, value &&& 2 ≠ 0, value &&& 4 ≠ 0⟩

structure CellRecord where
  scalar : Char
  foreground : WireColor
  background : WireColor
  attributes : WireAttributes
  deriving Repr, DecidableEq

def CellRecord.groups (cell : CellRecord) : List (List UInt8) :=
  [le (UInt32.ofNat cell.scalar.toNat) ++ le cell.foreground.toU32,
    le cell.background.toU32 ++ le cell.attributes.toU16 ++ zeros 2]

def CellRecord.encode (cell : CellRecord) : List UInt8 := cell.groups.flatten

def scalarFrom (value : UInt32) : Except LayoutError Char :=
  if value.toNat.isValidChar then .ok (Char.ofNat value.toNat) else .error .invalidUnicodeScalar

def CellRecord.read : Reader LayoutError CellRecord := do
  let scalar ← .fixed UInt32 .tooShort
  let scalar ← .fromExcept (scalarFrom scalar)
  let foreground ← .fixed UInt32 .tooShort
  let foreground ← .fromExcept (WireColor.fromU32 foreground)
  let background ← .fixed UInt32 .tooShort
  let background ← .fromExcept (WireColor.fromU32 background)
  let attributes ← .fixed UInt16 .tooShort
  let attributes ← .fromExcept (WireAttributes.fromU16 attributes)
  let reserved ← .take .tooShort 2
  refuse (reserved ≠ zeros 2) .nonzeroReserved
  return ⟨scalar, foreground, background, attributes⟩

def CellRecord.decode (bytes : List UInt8) : Except LayoutError CellRecord := do
  let (cell, _) ← CellRecord.read bytes
  return cell

structure DamageRecord where
  firstRow : UInt16
  lastRow : UInt16
  full : Bool
  deriving Repr, DecidableEq

def DamageRecord.encode (damage : DamageRecord) : List UInt8 :=
  le damage.firstRow ++ le damage.lastRow ++ le damage.full.toUInt16 ++ zeros 2

def damageFlagsFrom (flags : UInt16) : Except LayoutError Bool :=
  if flags &&& ~~~1 ≠ 0 then .error .invalidDamageFlags else .ok (flags &&& 1 ≠ 0)

def DamageRecord.read : Reader LayoutError DamageRecord := do
  let firstRow ← .fixed UInt16 .tooShort
  let lastRow ← .fixed UInt16 .tooShort
  let flags ← .fixed UInt16 .tooShort
  let full ← .fromExcept (damageFlagsFrom flags)
  let reserved ← .take .tooShort 2
  refuse (reserved ≠ zeros 2) .nonzeroReserved
  return ⟨firstRow, lastRow, full⟩

def DamageRecord.check (rows : UInt16) (damage : DamageRecord) : Except LayoutError DamageRecord := do
  refuse (damage.lastRow < damage.firstRow ∨ rows ≤ damage.lastRow) .invalidDamageRange
  return damage

def DamageRecord.decode (bytes : List UInt8) (rows : UInt16) : Except LayoutError DamageRecord := do
  let (damage, _) ← DamageRecord.read bytes
  damage.check rows

theorem ModeFlags.fromU16_toU16 (flags : ModeFlags) : fromU16 flags.toU16 = .ok flags := by
  obtain ⟨alternateScreen, cursorVisible⟩ := flags
  cases alternateScreen <;> cases cursorVisible <;> rfl

theorem flagFrom_toUInt8 (error : LayoutError) (flag : Bool) : flagFrom error flag.toUInt8 = .ok flag := by
  cases flag <;> rfl

theorem WireAttributes.fromU16_toU16 (attributes : WireAttributes) : fromU16 attributes.toU16 = .ok attributes := by
  obtain ⟨bold, underline, inverse⟩ := attributes
  cases bold <;> cases underline <;> cases inverse <;> rfl

theorem damageFlagsFrom_toUInt16 (full : Bool) : damageFlagsFrom full.toUInt16 = .ok full := by
  cases full <;> rfl

theorem scalarFrom_toNat (scalar : Char) : scalarFrom (UInt32.ofNat scalar.toNat) = .ok scalar := by
  have valid : scalar.toNat.isValidChar := scalar.valid
  have small : scalar.toNat < 2 ^ 32 := scalar.val.toNat_lt
  have back : (UInt32.ofNat scalar.toNat).toNat = scalar.toNat := UInt32.toNat_ofNat_of_lt' small
  rw [scalarFrom, back, if_pos valid, Char.ofNat_toNat]

theorem WireColor.fromU32_toU32 (color : WireColor) : fromU32 color.toU32 = .ok color := by
  cases color with
  | default => rfl
  | indexed index =>
      have small := index.toNat_lt
      have back : (toU32 (.indexed index)).toNat = 2 ^ 30 + index.toNat :=
        UInt32.toNat_ofNat_of_lt' (by change _ < 2 ^ 32; omega)
      have kind : (2 ^ 30 + index.toNat) / 2 ^ 30 = 1 := by omega
      have payload : (2 ^ 30 + index.toNat) % 2 ^ 30 = index.toNat := by omega
      simp only [fromU32, back, kind, payload]
      rw [if_neg (by decide), if_pos trivial, if_neg (by omega), UInt8.ofNat_toNat]
  | rgb r g b =>
      have red := r.toNat_lt
      have green := g.toNat_lt
      have blue := b.toNat_lt
      have back : (toU32 (.rgb r g b)).toNat = 2 ^ 31 + r.toNat * 2 ^ 16 + g.toNat * 2 ^ 8 + b.toNat :=
        UInt32.toNat_ofNat_of_lt' (by change _ < 2 ^ 32; omega)
      have kind : (2 ^ 31 + r.toNat * 2 ^ 16 + g.toNat * 2 ^ 8 + b.toNat) / 2 ^ 30 = 2 := by omega
      have payload : (2 ^ 31 + r.toNat * 2 ^ 16 + g.toNat * 2 ^ 8 + b.toNat) % 2 ^ 30 =
          r.toNat * 2 ^ 16 + g.toNat * 2 ^ 8 + b.toNat := by omega
      have redBack : (r.toNat * 2 ^ 16 + g.toNat * 2 ^ 8 + b.toNat) / 2 ^ 16 % 256 = r.toNat := by omega
      have greenBack : (r.toNat * 2 ^ 16 + g.toNat * 2 ^ 8 + b.toNat) / 2 ^ 8 % 256 = g.toNat := by omega
      have blueBack : (r.toNat * 2 ^ 16 + g.toNat * 2 ^ 8 + b.toNat) % 256 = b.toNat := by omega
      simp only [fromU32, back, kind, payload, redBack, greenBack, blueBack, UInt8.ofNat_toNat]
      rw [if_neg (by decide), if_neg (by decide), if_pos trivial, if_neg (by omega)]

theorem bind_reserved {β : Type} (count : Nat) (rest : List UInt8) (next : Unit → Reader LayoutError β) :
    (take .tooShort count >>= fun reserved => refuse (reserved ≠ zeros count) .nonzeroReserved >>= next)
      (zeros count ++ rest) = next () rest := by
  rw [bind_ok (take_append (length_zeros count) rest), bind_refuse (not_not.mpr rfl)]

theorem SlotHeader.read_encode (header : SlotHeader) (rest : List UInt8) :
    SlotHeader.read (header.encode ++ rest) = .ok (header, rest) := by
  simp only [SlotHeader.encode, SlotHeader.groups, List.flatten_cons, List.flatten_nil, List.append_assoc]
  rw [SlotHeader.read]
  iterate 7 rw [bind_fixed]
  rw [bind_fromExcept (flagFrom_toUInt8 _ _)]
  iterate 2 rw [bind_fixed]
  rw [bind_fromExcept (ModeFlags.fromU16_toU16 _)]
  iterate 3 rw [bind_fixed]
  rw [bind_fromExcept (flagFrom_toUInt8 _ _), bind_reserved]
  iterate 3 rw [bind_fixed]
  rw [bind_reserved]
  rfl

theorem CellRecord.read_encode (cell : CellRecord) (rest : List UInt8) :
    CellRecord.read (cell.encode ++ rest) = .ok (cell, rest) := by
  simp only [CellRecord.encode, CellRecord.groups, List.flatten_cons, List.flatten_nil, List.append_assoc]
  rw [CellRecord.read, bind_fixed, bind_fromExcept (scalarFrom_toNat _), bind_fixed,
    bind_fromExcept (WireColor.fromU32_toU32 _), bind_fixed,
    bind_fromExcept (WireColor.fromU32_toU32 _), bind_fixed,
    bind_fromExcept (WireAttributes.fromU16_toU16 _), bind_reserved]
  rfl

theorem DamageRecord.read_encode (damage : DamageRecord) (rest : List UInt8) :
    DamageRecord.read (damage.encode ++ rest) = .ok (damage, rest) := by
  simp only [DamageRecord.encode, List.append_assoc]
  rw [DamageRecord.read, bind_fixed, bind_fixed, bind_fixed,
    bind_fromExcept (damageFlagsFrom_toUInt16 _), bind_reserved]
  rfl

theorem SlotHeader.decode_encode (header : SlotHeader) (capacityRows capacityCols : UInt16) :
    decode header.encode capacityRows capacityCols = header.check capacityRows capacityCols := by
  have read := header.read_encode []
  rw [List.append_nil] at read
  rw [decode, read]
  rfl

theorem CellRecord.decode_encode (cell : CellRecord) : decode cell.encode = .ok cell := by
  have read := cell.read_encode []
  rw [List.append_nil] at read
  rw [decode, read]
  rfl

theorem DamageRecord.decode_encode (damage : DamageRecord) (rows : UInt16) :
    decode damage.encode rows = damage.check rows := by
  have read := damage.read_encode []
  rw [List.append_nil] at read
  rw [decode, read]
  rfl

theorem SlotHeader.groups_length (header : SlotHeader) : ∀ group ∈ header.groups, group.length = 8 := by
  simp [SlotHeader.groups]

theorem CellRecord.groups_length (cell : CellRecord) : ∀ group ∈ cell.groups, group.length = 8 := by
  simp [CellRecord.groups]

theorem DamageRecord.length_encode (damage : DamageRecord) : damage.encode.length = 8 := by
  simp [DamageRecord.encode]

end Seyal.Runtime.Projection
