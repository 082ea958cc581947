import Seyal.Terminal.Parser

namespace Seyal.Terminal

/-! The loop of the parser ends: a byte that is put back is not put back again. -/

namespace Parser

section Putback

variable (parser : Parser) (byte : UInt8)

/-- The next step puts no byte back. -/
def Calm : Prop := (parser.state = .ground → parser.utf8Needed = 0) ∧ parser.state ≠ .oscEscape

def Keeps (result : Parser × List Action) : Prop := result.1.putback = parser.putback

variable {parser} in
theorem Keeps.ite {condition : Prop} [Decidable condition] {yes no : Parser × List Action}
    (left : parser.Keeps yes) (right : parser.Keeps no) : parser.Keeps (if condition then yes else no) := by
  split
  · exact left
  · exact right

theorem ground_putback (complete : parser.utf8Needed = 0) : parser.Keeps (parser.ground byte) := by
  unfold ground
  rw [if_neg (by simpa using complete)]
  refine .ite rfl (.ite rfl (.ite rfl (.ite rfl (.ite rfl (.ite rfl (.ite rfl rfl))))))

theorem ground_putback_utf8 (pending : parser.utf8Needed ≠ 0) :
    parser.Keeps (parser.ground byte) ∨
      (parser.ground byte).1.utf8Needed = 0 ∧ (parser.ground byte).1.state = parser.state := by
  unfold ground
  rw [if_pos pending]
  split
  case isTrue => exact .inl (.ite rfl rfl)
  case isFalse => exact .inr ⟨rfl, rfl⟩

theorem escape_putback : parser.Keeps (parser.escape byte) :=
  .ite rfl (.ite rfl (.ite rfl (.ite rfl (.ite rfl (.ite rfl (.ite rfl (.ite rfl rfl)))))))

theorem escapeIntermediate_putback : parser.Keeps (parser.escapeIntermediate byte) :=
  .ite rfl (.ite rfl (.ite rfl (.ite rfl (.ite rfl rfl))))

theorem finishParam_putback : parser.finishParam.putback = parser.putback := by
  unfold finishParam
  split <;> rfl

theorem csiByte_putback : parser.Keeps (parser.csiByte byte) := by
  refine .ite rfl (.ite rfl (.ite rfl (.ite rfl (.ite ?param (.ite rfl (.ite rfl (.ite rfl (.ite ?final ?_))))))))
  case param => exact parser.finishParam_putback
  case final =>
      change (if _ then parser.finishParam else parser).putback = parser.putback
      split
      · exact parser.finishParam_putback
      · rfl
  exact .ite rfl rfl

theorem oscByte_putback : parser.Keeps (parser.oscByte byte) := by
  refine .ite rfl (.ite rfl (.ite rfl ?_))
  unfold pushOsc
  split <;> rfl

theorem ignoredString_putback : parser.Keeps (parser.ignoredString byte) := .ite rfl (.ite rfl rfl)

theorem ignoredStringEscape_putback : parser.Keeps (parser.ignoredStringEscape byte) := .ite rfl (.ite rfl rfl)

end Putback

variable {parser : Parser}

theorem step_putback (byte : UInt8) :
    (parser.step byte).1.putback = parser.putback ∨ (parser.step byte).1.Calm := by
  unfold step
  cases state : parser.state with
  | ground =>
      by_cases complete : parser.utf8Needed = 0
      · exact .inl (parser.ground_putback byte complete)
      · refine (parser.ground_putback_utf8 byte complete).imp_right fun ⟨done, same⟩ => ⟨fun _ => done, ?_⟩
        simp [same, state]
  | escape => exact .inl (parser.escape_putback byte)
  | escapeIntermediate => exact .inl (parser.escapeIntermediate_putback byte)
  | csi => exact .inl (parser.csiByte_putback byte)
  | osc => exact .inl (parser.oscByte_putback byte)
  | oscEscape =>
      simp only [oscEscape]
      split
      · exact .inl rfl
      · exact .inr ⟨nofun, nofun⟩
  | ignoredString => exact .inl (parser.ignoredString_putback byte)
  | ignoredStringEscape => exact .inl (parser.ignoredStringEscape_putback byte)

theorem Calm.step_putback (calm : parser.Calm) (byte : UInt8) : (parser.step byte).1.putback = parser.putback := by
  unfold step
  cases state : parser.state with
  | ground => exact parser.ground_putback byte (calm.1 state)
  | escape => exact parser.escape_putback byte
  | escapeIntermediate => exact parser.escapeIntermediate_putback byte
  | csi => exact parser.csiByte_putback byte
  | osc => exact parser.oscByte_putback byte
  | oscEscape => exact absurd state calm.2
  | ignoredString => exact parser.ignoredString_putback byte
  | ignoredStringEscape => exact parser.ignoredStringEscape_putback byte

/-- One byte of input, with the step for the byte it may put back. -/
def consume (parser : Parser) (byte : UInt8) : Parser × List Action :=
  let (next, actions) := parser.step byte
  match next.putback with
  | none => (next, actions)
  | some again =>
      let (last, later) := { next with putback := none }.step again
      (last, actions ++ later)

def consumeAll (parser : Parser) : List UInt8 → Parser × List Action
  | [] => (parser, [])
  | byte :: rest =>
      let (next, actions) := parser.consume byte
      let (last, later) := next.consumeAll rest
      (last, actions ++ later)

theorem consume_putback (clear : parser.putback = none) (byte : UInt8) :
    (parser.consume byte).1.putback = none := by
  have settles : (parser.step byte).1.putback = parser.putback ∨ (parser.step byte).1.Calm := step_putback byte
  unfold consume
  generalize parser.step byte = stepped at settles ⊢
  obtain ⟨next, actions⟩ := stepped
  dsimp only at settles ⊢
  cases pending : next.putback with
  | none => exact pending
  | some again =>
      have calm : next.Calm := settles.resolve_left fun same => by simp [pending, clear] at same
      have calmToo : { next with putback := none }.Calm := calm
      exact calmToo.step_putback again

theorem consumeAll_append (parser : Parser) (first second : List UInt8) :
    parser.consumeAll (first ++ second) =
      (((parser.consumeAll first).1.consumeAll second).1,
        (parser.consumeAll first).2 ++ ((parser.consumeAll first).1.consumeAll second).2) := by
  induction first generalizing parser with
  | nil => rfl
  | cons byte rest ih =>
      simp only [List.cons_append, consumeAll, ih, List.append_assoc]

theorem feedFrom_eq (clear : parser.putback = none) {fuel : Nat} {bytes : List UInt8}
    (enough : 2 * bytes.length ≤ fuel) : feedFrom fuel parser bytes = some (parser.consumeAll bytes) := by
  induction bytes generalizing parser fuel with
  | nil => cases fuel <;> simp [feedFrom, clear, consumeAll]
  | cons byte rest ih =>
      have settled := consume_putback clear byte
      obtain ⟨less, rfl⟩ : ∃ less, fuel = less + 2 :=
        ⟨fuel - 2, by rw [List.length_cons] at enough; omega⟩
      have enoughLeft : 2 * rest.length ≤ less := by
        rw [List.length_cons] at enough
        omega
      unfold feedFrom
      simp only [clear]
      unfold consume at settled
      unfold consumeAll consume
      generalize parser.step byte = stepped at settled ⊢
      obtain ⟨next, actions⟩ := stepped
      dsimp only at settled ⊢
      cases pending : next.putback with
      | none =>
          rw [ih pending (by omega)]
          rfl
      | some again =>
          rw [pending] at settled
          unfold feedFrom
          simp only [pending]
          rw [ih settled enoughLeft]
          simp

/-- The parser always reaches the end of its input, with no byte put back. -/
theorem feed_eq (clear : parser.putback = none) (bytes : List UInt8) :
    parser.feed bytes = some (parser.consumeAll bytes) := feedFrom_eq clear (by omega)

theorem consumeAll_putback (clear : parser.putback = none) (bytes : List UInt8) :
    (parser.consumeAll bytes).1.putback = none := by
  induction bytes generalizing parser with
  | nil => exact clear
  | cons byte rest ih => exact ih (consume_putback clear byte)

/-- The input as it arrives, piece by piece. -/
def feedPieces (parser : Parser) : List (List UInt8) → Option (Parser × List Action)
  | [] => some (parser, [])
  | piece :: rest => do
      let (next, actions) ← parser.feed piece
      let (last, later) ← next.feedPieces rest
      return (last, actions ++ later)

theorem feedPieces_eq (clear : parser.putback = none) (pieces : List (List UInt8)) :
    parser.feedPieces pieces = some (parser.consumeAll pieces.flatten) := by
  induction pieces generalizing parser with
  | nil => rfl
  | cons piece rest ih =>
      have settled := consumeAll_putback clear piece
      rw [feedPieces, feed_eq clear, List.flatten_cons, consumeAll_append]
      simp [ih settled]

/-- The parser comes to the end of its input however that is cut, with the same actions. -/
theorem feedPieces_eq_feed_flatten (pieces : List (List UInt8)) :
    ∃ result, ({} : Parser).feedPieces pieces = some result ∧ ({} : Parser).feed pieces.flatten = some result :=
  ⟨_, feedPieces_eq rfl pieces, feed_eq rfl _⟩

end Parser

end Seyal.Terminal
