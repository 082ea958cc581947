import Seyal.Program.Bytes
import Seyal.Program.Check

namespace Seyal.Program

open Slice LittleEndian

/-! Byte layouts: which pieces a byte string holds at which positions. Decoding a
field and laying it out are then two readings of one fact. -/

variable {bytes piece rest : List UInt8} {first size : Nat}

/-- The bytes from this position on begin with the piece. -/
def Holds (bytes : List UInt8) (first : Nat) (piece : List UInt8) : Prop := piece <+: bytes.drop first

instance : Decidable (Holds bytes first piece) := inferInstanceAs (Decidable (piece <+: bytes.drop first))

theorem holds_iff : Holds bytes first piece ↔ subrange bytes first (first + piece.length) = piece := by
  rw [Holds, List.prefix_iff_eq_take, subrange, Nat.add_sub_cancel_left, eq_comm]

@[simp] theorem holds_nil : Holds bytes first [] := List.nil_prefix

@[simp] theorem holds_append :
    Holds bytes first (piece ++ rest) ↔ Holds bytes first piece ∧ Holds bytes (first + piece.length) rest := by
  simp only [Holds, ← List.drop_drop]
  constructor
  · rintro ⟨tail, split⟩
    rw [← split, List.append_assoc, List.drop_left]
    exact ⟨List.prefix_append _ _, List.prefix_append _ _⟩
  · rintro ⟨⟨tail, split⟩, others⟩
    rw [← split, List.drop_left] at others
    rw [← split]
    exact (List.prefix_append_right_inj piece).mpr others

theorem Holds.length_le (held : Holds bytes first piece) : piece.length ≤ bytes.length - first := by
  have short := List.IsPrefix.length_le held
  rwa [List.length_drop] at short

/-- A header of known size with a tail: the header is held at the start, and the
tail is what is left. -/
theorem eq_append_iff (length : piece.length = size) :
    bytes = piece ++ rest ↔ (size ≤ bytes.length ∧ Holds bytes 0 piece) ∧ bytes.drop size = rest := by
  constructor
  · rintro rfl
    refine ⟨⟨?_, List.prefix_append _ _⟩, List.drop_left' length⟩
    rw [List.length_append, length]
    exact Nat.le_add_right _ _
  · rintro ⟨⟨_, held⟩, rfl⟩
    have front : bytes.take size = piece := by
      rw [← length, eq_comm]
      exact List.prefix_iff_eq_take.mp held
    rw [← front, List.take_append_drop]

section Fields

variable {α : Type} [LittleEndian α]

@[simp] theorem width_uint8 : width UInt8 = 1 := rfl

@[simp] theorem width_uint16 : width UInt16 = 2 := rfl

@[simp] theorem width_uint32 : width UInt32 = 4 := rfl

@[simp] theorem width_uint64 : width UInt64 = 8 := rfl

@[simp] theorem width_bitVec32 : width (BitVec 32) = 4 := rfl

@[simp] theorem width_bitVec128 : width (BitVec 128) = 16 := rfl

@[simp] theorem holds_le {value : α} (fits : first + width α ≤ bytes.length) :
    Holds bytes first (le value) ↔ readAt α bytes first = value := by
  have length : (subrange bytes first (first + width α)).length = width α := by
    rw [length_subrange fits, Nat.add_sub_cancel_left]
  rw [holds_iff, length_le]
  constructor
  · intro held
    rw [readAt, held, ofLe_le]
  · rintro rfl
    rw [readAt, le_ofLe length]

end Fields

section Zeros

/-- Reserved bytes. -/
def zeros (count : Nat) : List UInt8 := List.replicate count 0

@[simp] theorem length_zeros (count : Nat) : (zeros count).length = count := List.length_replicate

@[simp] theorem holds_zeros {count : Nat} :
    Holds bytes first (zeros count) ↔ subrange bytes first (first + count) = zeros count := by
  rw [holds_iff, length_zeros]

end Zeros

end Seyal.Program
