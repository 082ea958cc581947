import Seyal.Program.Bytes

namespace Seyal.Program

/-! Readers of byte strings, and how much they consume. -/

/-- Reads a value from the front of the bytes and leaves the rest, or fails. -/
def Reader (ε α : Type) : Type := List UInt8 → Except ε (α × List UInt8)

namespace Reader

variable {ε α β : Type}

instance : Monad (Reader ε) where
  pure value := fun bytes => .ok (value, bytes)
  bind first next := fun bytes =>
    match first bytes with
    | .ok (value, rest) => next value rest
    | .error error => .error error

instance : MonadExceptOf ε (Reader ε) where
  throw error := fun _ => .error error
  tryCatch body handler := fun bytes =>
    match body bytes with
    | .error error => handler error bytes
    | outcome => outcome

def take (short : ε) (count : Nat) : Reader ε (List UInt8) := fun bytes =>
  if count ≤ bytes.length then .ok (bytes.take count, bytes.drop count) else .error short

variable {bytes rest : List UInt8} {value : α} {short error : ε}

def fixed (α : Type) [LittleEndian α] (short : ε) : Reader ε α := do
  let bytes ← take short (LittleEndian.width α)
  return ofLe bytes

def fromExcept (outcome : Except ε α) : Reader ε α := fun bytes => outcome.map fun value => (value, bytes)

theorem bind_ok {reader : Reader ε α} {next : α → Reader ε β} (read : reader bytes = .ok (value, rest)) :
    (reader >>= next) bytes = next value rest := by
  change (match reader bytes with
    | .ok (value, rest) => next value rest
    | .error error => .error error) = next value rest
  rw [read]

theorem take_append {count : Nat} (length : bytes.length = count) (rest : List UInt8) :
    take short count (bytes ++ rest) = .ok (bytes, rest) := by
  rw [take, if_pos (by simp [← length]), List.take_left' length, List.drop_left' length]

theorem fixed_le [LittleEndian α] (value : α) (rest : List UInt8) :
    fixed α short (le value ++ rest) = .ok (value, rest) := by
  rw [fixed, bind_ok (take_append (length_le value) rest), ofLe_le]
  rfl

theorem bind_fixed [LittleEndian α] (value : α) (rest : List UInt8) (next : α → Reader ε β) :
    (fixed α short >>= next) (le value ++ rest) = next value rest :=
  bind_ok (fixed_le value rest)

theorem bind_fromExcept {outcome : Except ε α} (found : outcome = .ok value) (bytes : List UInt8)
    (next : α → Reader ε β) : (fromExcept outcome >>= next) bytes = next value bytes := by
  apply bind_ok
  rw [found]
  rfl

@[simp] theorem pure_eq_ok {found : α} : (pure value : Reader ε α)
    bytes = .ok (found, rest) ↔ found = value ∧ bytes = rest := by
  constructor
  · intro same
    cases same
    exact ⟨rfl, rfl⟩
  · intro ⟨same, all⟩
    rw [same, all]
    rfl

@[simp] theorem throw_eq_ok {found : α} : (throw error : Reader ε α)
    bytes = .ok (found, rest) ↔ False :=
  ⟨nofun, False.elim⟩

/-- Fails on what is not accepted, and reads nothing. -/
def refuse (bad : Prop) [Decidable bad] (error : ε) : Reader ε Unit := if bad then throw error else pure ()

@[simp] theorem refuse_eq_ok {bad : Prop} [Decidable bad] {found : Unit} :
    refuse bad error bytes = .ok (found, rest) ↔ ¬ bad ∧ bytes = rest := by
  rw [refuse]
  split
  next wrong => simp [wrong]
  next right => simp [right]

theorem bind_refuse {bad : Prop} [Decidable bad] (good : ¬ bad) (bytes : List UInt8) (next : Unit → Reader ε β) :
    (refuse bad error >>= next) bytes = next () bytes :=
  bind_ok (refuse_eq_ok.mpr ⟨good, rfl⟩)

end Reader

end Seyal.Program
