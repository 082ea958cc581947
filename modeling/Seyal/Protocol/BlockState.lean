import Seyal.Protocol.Envelope

namespace Seyal.Protocol

open Program Slice

/-! The metadata of an execution's block, in 56 bytes. -/

abbrev ExecutionId := BitVec 128

abbrev BlockId := BitVec 128

inductive BlockStateError where
  | exactLengthMismatch
  | zeroExecutionId
  | zeroBlockId
  | zeroRevision
  | zeroStartLineId
  | unknownKind
  | unknownState
  | nonzeroReserved
  deriving Repr, DecidableEq

inductive BlockKind where
  | terminalActivity
  deriving Repr, DecidableEq

namespace BlockKind

def toU8 : BlockKind → UInt8
  | .terminalActivity => 1

def fromU8 (value : UInt8) : Except BlockStateError BlockKind :=
  if value = 1 then .ok .terminalActivity else .error .unknownKind

theorem fromU8_eq_ok {value : UInt8} {kind : BlockKind} : fromU8 value = .ok kind ↔ value = kind.toU8 := by
  cases kind
  simp [fromU8, toU8]

end BlockKind

inductive BlockLifecycle where
  | current
  | completed
  deriving Repr, DecidableEq

namespace BlockLifecycle

def toU8 : BlockLifecycle → UInt8
  | .current => 1
  | .completed => 2

def fromU8 (value : UInt8) : Except BlockStateError BlockLifecycle :=
  if value = 1 then .ok .current else if value = 2 then .ok .completed else .error .unknownState

theorem fromU8_eq_ok {value : UInt8} {state : BlockLifecycle} : fromU8 value = .ok state ↔ value = state.toU8 := by
  cases state <;> grind [fromU8, toU8]

end BlockLifecycle

@[ext] structure BlockState where
  executionId : ExecutionId
  blockId : BlockId
  revision : UInt64
  startLineId : UInt64
  kind : BlockKind
  state : BlockLifecycle
  deriving Repr, DecidableEq

namespace BlockState

def wireLen : Nat := 56

def validateNonzero (value : BlockState) : Except BlockStateError Unit := do
  refuse (value.executionId = 0) .zeroExecutionId
  refuse (value.blockId = 0) .zeroBlockId
  refuse (value.revision = 0) .zeroRevision
  refuse (value.startLineId = 0) .zeroStartLineId

def layout (value : BlockState) : List UInt8 :=
  le value.executionId ++ (le value.blockId ++ (le value.revision ++ (le value.startLineId ++
    (le value.kind.toU8 ++ (le value.state.toU8 ++ zeros 6)))))

def encode (value : BlockState) : Except BlockStateError (List UInt8) := do
  value.validateNonzero
  return value.layout

def decode (bytes : List UInt8) : Except BlockStateError BlockState := do
  refuse (bytes.length ≠ wireLen) .exactLengthMismatch
  refuse (subrange bytes 50 56 ≠ zeros 6) .nonzeroReserved
  let kind ← BlockKind.fromU8 (readAt UInt8 bytes 48)
  let state ← BlockLifecycle.fromU8 (readAt UInt8 bytes 49)
  let value : BlockState := {
    executionId := readAt ExecutionId bytes 0
    blockId := readAt BlockId bytes 16
    revision := readAt UInt64 bytes 32
    startLineId := readAt UInt64 bytes 40
    kind
    state }
  value.validateNonzero
  return value

theorem length_layout (value : BlockState) : value.layout.length = wireLen := by simp [layout, wireLen]

theorem eq_layout_iff {value : BlockState} {bytes : List UInt8} (length : bytes.length = wireLen) :
    bytes = value.layout ↔ readAt ExecutionId bytes 0 = value.executionId ∧ readAt BlockId bytes 16 = value.blockId ∧
      readAt UInt64 bytes 32 = value.revision ∧ readAt UInt64 bytes 40 = value.startLineId ∧
      readAt UInt8 bytes 48 = value.kind.toU8 ∧ readAt UInt8 bytes 49 = value.state.toU8 ∧
      subrange bytes 50 56 = zeros 6 := by
  have size : bytes.length = 56 := length
  have whole : bytes = value.layout ↔ Holds bytes 0 value.layout := by
    rw [← List.append_nil value.layout, eq_append_iff value.length_layout, List.append_nil]
    simp [length, List.drop_eq_nil_of_le (Nat.le_of_eq length)]
  rw [whole]
  simp (disch := simp <;> omega) only [layout, holds_append, holds_le, holds_zeros, length_le, width_bitVec128,
    width_uint64, width_uint8, Nat.reduceAdd]

theorem decode_of_encode {bytes : List UInt8} {value : BlockState} (written : value.encode = .ok bytes) :
    decode bytes = .ok value := by
  simp only [encode, bind_eq_ok, pure_eq_ok] at written
  obtain ⟨_, valid, rfl⟩ := written
  obtain ⟨execution, block, revision, line, kind, state, reserved⟩ := (eq_layout_iff value.length_layout).mp rfl
  simp only [decode, bind_eq_ok, refuse_eq_ok, not_not, BlockKind.fromU8_eq_ok, BlockLifecycle.fromU8_eq_ok, pure_eq_ok]
  refine ⟨(), value.length_layout, (), reserved, value.kind, kind, value.state, state, (), ?_⟩
  rw [execution, block, revision, line]
  exact ⟨valid, rfl⟩

/-- Exactly the bytes that a value is encoded as are decoded to it. -/
theorem decode_eq_ok_iff_encode {bytes : List UInt8} {value : BlockState} :
    decode bytes = .ok value ↔ value.encode = .ok bytes := by
  refine ⟨fun read => ?_, decode_of_encode⟩
  simp only [decode, bind_eq_ok, refuse_eq_ok, not_not, BlockKind.fromU8_eq_ok, BlockLifecycle.fromU8_eq_ok,
    pure_eq_ok] at read
  obtain ⟨_, length, _, reserved, kind, kindRead, state, stateRead, _, valid, rfl⟩ := read
  simp only [encode, bind_eq_ok, pure_eq_ok]
  exact ⟨(), valid, ((eq_layout_iff length).mpr ⟨rfl, rfl, rfl, rfl, kindRead, stateRead, reserved⟩).symm⟩

end BlockState

end Seyal.Protocol
