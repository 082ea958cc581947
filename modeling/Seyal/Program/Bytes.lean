import Mathlib.Tactic.Ring
import Seyal.Program.Slice

namespace Seyal.Program

open Slice

/-! Little-endian numbers in byte strings. -/

/-- The number whose little-endian digits are these bytes. -/
def fromLe : List UInt8 → Nat
  | [] => 0
  | byte :: rest => byte.toNat + 256 * fromLe rest

/-- The `count` low little-endian bytes of a number. -/
def toLe : Nat → Nat → List UInt8
  | 0, _ => []
  | count + 1, value => UInt8.ofNat (value % 256) :: toLe count (value / 256)

@[simp] theorem length_toLe (count value : Nat) : (toLe count value).length = count := by
  induction count generalizing value with
  | zero => rfl
  | succ count ih => simp [toLe, ih]

theorem fromLe_lt (bytes : List UInt8) : fromLe bytes < 256 ^ bytes.length := by
  induction bytes with
  | nil => simp [fromLe]
  | cons byte rest ih =>
      have small : byte.toNat < 256 := byte.toNat_lt
      simp only [fromLe, List.length_cons, Nat.pow_succ]
      omega

theorem fromLe_toLe {count value : Nat} (fits : value < 256 ^ count) : fromLe (toLe count value) = value := by
  induction count generalizing value with
  | zero =>
      have zero : value = 0 := by simpa using fits
      simp [toLe, fromLe, zero]
  | succ count ih =>
      have high : value / 256 < 256 ^ count := by
        rw [Nat.pow_succ] at fits
        exact Nat.div_lt_of_lt_mul (by rwa [Nat.mul_comm] at fits)
      have low : (UInt8.ofNat (value % 256)).toNat = value % 256 := by
        simp [UInt8.toNat_ofNat']
      rw [toLe, fromLe, ih high, low]
      omega

theorem toLe_fromLe (bytes : List UInt8) : toLe bytes.length (fromLe bytes) = bytes := by
  induction bytes with
  | nil => rfl
  | cons byte rest ih =>
      have small : byte.toNat < 256 := byte.toNat_lt
      have low : (byte.toNat + 256 * fromLe rest) % 256 = byte.toNat := by omega
      have high : (byte.toNat + 256 * fromLe rest) / 256 = fromLe rest := by omega
      simp only [fromLe, List.length_cons, toLe, low, high, ih, UInt8.ofNat_toNat]

theorem toLe_of_length {bytes : List UInt8} {count : Nat} (length : bytes.length = count) :
    toLe count (fromLe bytes) = bytes := length ▸ toLe_fromLe bytes

def natAt (bytes : List UInt8) (first count : Nat) : Nat := fromLe (subrange bytes first (first + count))

class LittleEndian (α : Type) where
  width : Nat
  toNat : α → Nat
  ofNat : Nat → α
  toNat_lt : ∀ value, toNat value < 256 ^ width
  ofNat_toNat : ∀ value, ofNat (toNat value) = value
  toNat_ofNat : ∀ number, number < 256 ^ width → toNat (ofNat number) = number

instance : LittleEndian UInt8 where
  width := 1
  toNat := UInt8.toNat
  ofNat := UInt8.ofNat
  toNat_lt value := value.toNat_lt
  ofNat_toNat _ := UInt8.ofNat_toNat
  toNat_ofNat _ small := UInt8.toNat_ofNat_of_lt' small

instance : LittleEndian UInt16 where
  width := 2
  toNat := UInt16.toNat
  ofNat := UInt16.ofNat
  toNat_lt value := value.toNat_lt
  ofNat_toNat _ := UInt16.ofNat_toNat
  toNat_ofNat _ small := UInt16.toNat_ofNat_of_lt' small

instance : LittleEndian UInt32 where
  width := 4
  toNat := UInt32.toNat
  ofNat := UInt32.ofNat
  toNat_lt value := value.toNat_lt
  ofNat_toNat _ := UInt32.ofNat_toNat
  toNat_ofNat _ small := UInt32.toNat_ofNat_of_lt' small

instance : LittleEndian UInt64 where
  width := 8
  toNat := UInt64.toNat
  ofNat := UInt64.ofNat
  toNat_lt value := value.toNat_lt
  ofNat_toNat _ := UInt64.ofNat_toNat
  toNat_ofNat _ small := UInt64.toNat_ofNat_of_lt' small

instance (count : Nat) : LittleEndian (BitVec (8 * count)) where
  width := count
  toNat := BitVec.toNat
  ofNat := BitVec.ofNat (8 * count)
  toNat_lt value := by
    have small := value.isLt
    rwa [Nat.pow_mul] at small
  ofNat_toNat _ := by simp
  toNat_ofNat number small := by
    rw [BitVec.toNat_ofNat, Nat.pow_mul]
    exact Nat.mod_eq_of_lt small

instance : LittleEndian (BitVec 128) := inferInstanceAs (LittleEndian (BitVec (8 * 16)))

instance : LittleEndian (BitVec 32) := inferInstanceAs (LittleEndian (BitVec (8 * 4)))

section Numbers

variable {α : Type} [LittleEndian α]

def le (value : α) : List UInt8 := toLe (LittleEndian.width α) (LittleEndian.toNat value)

def ofLe (bytes : List UInt8) : α := LittleEndian.ofNat (fromLe bytes)

@[simp] theorem length_le (value : α) : (le value).length = LittleEndian.width α := length_toLe ..

@[simp] theorem ofLe_le (value : α) : ofLe (le value) = value := by
  rw [ofLe, le, fromLe_toLe (LittleEndian.toNat_lt value), LittleEndian.ofNat_toNat]

theorem le_ofLe {bytes : List UInt8} (length : bytes.length = LittleEndian.width α) :
    le (ofLe bytes : α) = bytes := by
  rw [le, ofLe, LittleEndian.toNat_ofNat _ (length ▸ fromLe_lt bytes), toLe_of_length length]

end Numbers

def readAt (α : Type) [LittleEndian α] (bytes : List UInt8) (first : Nat) : α :=
  ofLe (subrange bytes first (first + LittleEndian.width α))

def byteAt (bytes : List UInt8) (index : Nat) : UInt8 := bytes.getD index 0

end Seyal.Program
