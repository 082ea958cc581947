import Mathlib.Algebra.Order.BigOperators.Group.List
import Mathlib.Algebra.Order.Ring.Nat
import Mathlib.Data.List.AList
import Mathlib.Data.Prod.Lex

namespace Seyal.Terminal

/-! Styles, line identities, anchors and protocol replies. -/

def saturatingAdd (width a b : Nat) : Nat := min (a + b) (2 ^ width - 1)

def checkedAdd (width a b : Nat) : Option Nat := if a + b < 2 ^ width then some (a + b) else none

inductive Color where
  | default
  | indexed (index : UInt8)
  | rgb (r g b : UInt8)
  deriving Repr, DecidableEq, Inhabited

structure Style where
  fg : Color := .default
  bg : Color := .default
  bold : Bool := false
  underline : Bool := false
  inverse : Bool := false
  deriving Repr, DecidableEq, Inhabited

def replacementChar : Char := Char.ofNat 0xFFFD

abbrev LineId := Nat

inductive HistoryBreakAfter where
  | hardBreak
  | softWrap
  deriving Repr, DecidableEq, Inhabited

structure HistoryAnchor where
  lineId : LineId
  unitOffset : Nat
  deriving Repr, DecidableEq

namespace HistoryAnchor

/-- The derived order: by line, then by offset. -/
def toPair (anchor : HistoryAnchor) : Nat ×ₗ Nat := toLex (anchor.lineId, anchor.unitOffset)

theorem toPair_injective : Function.Injective toPair := by
  rintro ⟨lineId, offset⟩ ⟨lineId', offset'⟩ same
  simpa [toPair] using same

instance : LinearOrder HistoryAnchor := LinearOrder.lift' toPair toPair_injective

end HistoryAnchor

def maxProtocolReplyBytes : Nat := 64

abbrev ProtocolReply := List UInt8

def replyFromSlice (data : List UInt8) : Option ProtocolReply :=
  if data = [] ∨ data.length > maxProtocolReplyBytes then none else some data

def maxProtocolReplies : Nat := 16

/-! UTF-8 text and the width of a grapheme. -/

/-- The Unicode tables the terminal is linked against. -/
class Unicode where
  /-- `graphemes(true).count()`. -/
  graphemeCount : List Char → Nat
  /-- `UnicodeWidthChar::width`. -/
  charWidth : Char → Option Nat
  /-- `UnicodeWidthChar::width_cjk`. -/
  charWidthCjk : Char → Option Nat
  /-- `String::from_utf8_lossy` on bytes that are not UTF-8. -/
  lossy : List UInt8 → List Char

def encodeUtf8 (text : List Char) : List UInt8 := text.flatMap String.utf8EncodeChar

def fromUtf8 (bytes : List UInt8) : Option (List Char) :=
  bytes.toByteArray.utf8Decode?.map Array.toList

theorem toByteArray_encodeUtf8 (text : List Char) : (encodeUtf8 text).toByteArray = text.utf8Encode := rfl

@[simp] theorem fromUtf8_encodeUtf8 (text : List Char) : fromUtf8 (encodeUtf8 text) = some text := by
  rw [fromUtf8, toByteArray_encodeUtf8, List.utf8Decode?_utf8Encode]
  rfl

/-- `char::is_whitespace`. -/
def isWhitespace (char : Char) : Bool :=
  (0x9 ≤ char.val && char.val ≤ 0xD) || char.val = 0x20 || char.val = 0x85 || char.val = 0xA0 || char.val = 0x1680 ||
    (0x2000 ≤ char.val && char.val ≤ 0x200A) || char.val = 0x2028 || char.val = 0x2029 || char.val = 0x202F ||
    char.val = 0x205F || char.val = 0x3000

section Width

variable [unicode : Unicode]

def fromUtf8Lossy (bytes : List UInt8) : List Char := (fromUtf8 bytes).getD (unicode.lossy bytes)

end Width

end Seyal.Terminal
