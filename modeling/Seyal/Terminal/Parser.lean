import Seyal.Terminal.Types

namespace Seyal.Terminal

/-! The byte-level parser of VT sequences. -/

def maxParams : Nat := 32

def maxOscBytes : Nat := 4096

inductive Action where
  | print (character : Char)
  | execute (byte : UInt8)
  | csi (params : List Nat) («private» : Option UInt8) (ignored : Bool) (finalByte : UInt8)
  | esc (finalByte : UInt8) (hadIntermediate : Bool)
  | osc (bytes : List UInt8) (truncated : Bool)
  | deferredString
  | malformed
  deriving Repr, DecidableEq

inductive ParserState where
  | ground
  | escape
  | escapeIntermediate
  | csi
  | osc
  | oscEscape
  | ignoredString
  | ignoredStringEscape
  deriving Repr, DecidableEq

structure Parser where
  state : ParserState := .ground
  params : List Nat := []
  paramAcc : Nat := 0
  hasParamAcc : Bool := false
  «private» : Option UInt8 := none
  ignored : Bool := false
  utf8 : List UInt8 := []
  utf8Needed : Nat := 0
  putback : Option UInt8 := none
  osc : List UInt8 := []
  oscTruncated : Bool := false
  deriving Repr, DecidableEq

namespace Parser

def resetSequence (parser : Parser) : Parser :=
  { parser with params := [], paramAcc := 0, hasParamAcc := false, «private» := none, ignored := false }

def resetOsc (parser : Parser) : Parser := { parser with osc := [], oscTruncated := false }

def pushOsc (parser : Parser) (byte : UInt8) : Parser :=
  if parser.osc.length < maxOscBytes then { parser with osc := parser.osc ++ [byte] }
  else { parser with oscTruncated := true }

def replacement : List Action := [.malformed, .print replacementChar]

def startUtf8 (parser : Parser) (lead : UInt8) (needed : Nat) : Parser :=
  { parser with utf8 := [lead], utf8Needed := needed }

def finishUtf8 (parser : Parser) : Parser × List Action :=
  ({ parser with utf8 := [], utf8Needed := 0 },
    match (fromUtf8 parser.utf8).bind List.head? with
    | some character => [.print character]
    | none => replacement)

def abortUtf8 (parser : Parser) : Parser × List Action :=
  ({ parser with utf8 := [], utf8Needed := 0 }, replacement)

def pushDigit (parser : Parser) (digit : Nat) : Parser :=
  let paramAcc := min (min (parser.paramAcc * 10) (2 ^ 32 - 1) + digit) (2 ^ 32 - 1)
  { parser with
    hasParamAcc := true
    paramAcc
    ignored := parser.ignored || paramAcc > 2 ^ 16 - 1 }

def finishParam (parser : Parser) : Parser :=
  if parser.params.length = maxParams then
    { parser with ignored := true, paramAcc := 0, hasParamAcc := false }
  else
    { parser with
      params := parser.params ++ [min parser.paramAcc (2 ^ 16 - 1)]
      paramAcc := 0
      hasParamAcc := false }

/-- C0 controls that are executed in place, inside a sequence too. -/
def isExecuted (byte : UInt8) : Bool :=
  byte ≤ 0x17 || byte = 0x19 || 0x1c ≤ byte && byte ≤ 0x1f

def isCancel (byte : UInt8) : Bool := byte = 0x18 || byte = 0x1a

def ground (parser : Parser) (byte : UInt8) : Parser × List Action :=
  if parser.utf8Needed ≠ 0 then
    if 0x80 ≤ byte ∧ byte ≤ 0xbf then
      let parser := { parser with utf8 := parser.utf8 ++ [byte] }
      if parser.utf8.length = parser.utf8Needed then parser.finishUtf8 else (parser, [])
    else
      let (parser, actions) := parser.abortUtf8
      ({ parser with putback := some byte }, actions)
  else if isExecuted byte ∨ isCancel byte then (parser, [.execute byte])
  else if byte = 0x1b then ({ parser.resetSequence with state := .escape }, [])
  else if 0x20 ≤ byte ∧ byte ≤ 0x7e then (parser, [.print (Char.ofNat byte.toNat)])
  else if byte = 0x7f then (parser, [])
  else if 0xc2 ≤ byte ∧ byte ≤ 0xdf then (parser.startUtf8 byte 2, [])
  else if 0xe0 ≤ byte ∧ byte ≤ 0xef then (parser.startUtf8 byte 3, [])
  else if 0xf0 ≤ byte ∧ byte ≤ 0xf4 then (parser.startUtf8 byte 4, [])
  else (parser, replacement)

def toGround (parser : Parser) : Parser := { parser.resetSequence with state := .ground }

def escape (parser : Parser) (byte : UInt8) : Parser × List Action :=
  if isExecuted byte then (parser, [.execute byte])
  else if isCancel byte then ({ parser with state := .ground }, [.execute byte])
  else if byte = 0x1b then (parser.resetSequence, [])
  else if byte = 0x5b then ({ parser.resetSequence with state := .csi }, [])
  else if byte = 0x5d then ({ parser.resetSequence.resetOsc with state := .osc }, [])
  else if byte = 0x50 ∨ byte = 0x58 ∨ byte = 0x5e ∨ byte = 0x5f then
    ({ parser.resetSequence with state := .ignoredString }, [])
  else if 0x20 ≤ byte ∧ byte ≤ 0x2f then ({ parser with state := .escapeIntermediate }, [])
  else if 0x30 ≤ byte ∧ byte ≤ 0x7e then (parser.toGround, [.esc byte false])
  else (parser.toGround, [.malformed])

def escapeIntermediate (parser : Parser) (byte : UInt8) : Parser × List Action :=
  if isExecuted byte then (parser, [.execute byte])
  else if isCancel byte then ({ parser with state := .ground }, [.execute byte])
  else if byte = 0x1b then ({ parser.resetSequence with state := .escape }, [])
  else if 0x20 ≤ byte ∧ byte ≤ 0x2f then (parser, [])
  else if 0x30 ≤ byte ∧ byte ≤ 0x7e then (parser.toGround, [.esc byte true])
  else (parser.toGround, [.malformed])

def csiByte (parser : Parser) (byte : UInt8) : Parser × List Action :=
  if isExecuted byte then (parser, [.execute byte])
  else if isCancel byte then (parser.toGround, [.execute byte])
  else if byte = 0x1b then ({ parser.resetSequence with state := .escape }, [])
  else if 0x30 ≤ byte ∧ byte ≤ 0x39 then (parser.pushDigit (byte.toNat - 0x30), [])
  else if byte = 0x3b then (parser.finishParam, [])
  else if byte = 0x3a then ({ parser with ignored := true }, [])
  else if 0x3c ≤ byte ∧ byte ≤ 0x3f ∧ parser.params = [] ∧ parser.hasParamAcc = false ∧
      parser.private = none then ({ parser with «private» := some byte }, [])
  else if 0x20 ≤ byte ∧ byte ≤ 0x2f ∨ 0x3c ≤ byte ∧ byte ≤ 0x3f then ({ parser with ignored := true }, [])
  else if 0x40 ≤ byte ∧ byte ≤ 0x7e then
    let parser := if parser.hasParamAcc ∨ parser.params ≠ [] then parser.finishParam else parser
    (parser.toGround, [.csi parser.params parser.private parser.ignored byte])
  else if byte = 0x7f then (parser, [])
  else ({ parser with ignored := true }, [])

def oscByte (parser : Parser) (byte : UInt8) : Parser × List Action :=
  if byte = 0x07 then
    ({ parser.resetOsc with state := .ground }, [.osc parser.osc parser.oscTruncated])
  else if isCancel byte then ({ parser with state := .ground }, [.execute byte])
  else if byte = 0x1b then ({ parser with state := .oscEscape }, [])
  else (parser.pushOsc byte, [])

def oscEscape (parser : Parser) (byte : UInt8) : Parser × List Action :=
  if byte = 0x5c then
    ({ parser.resetOsc with state := .ground }, [.osc parser.osc parser.oscTruncated])
  else ({ parser.resetSequence with state := .escape, putback := some byte }, [])

def ignoredString (parser : Parser) (byte : UInt8) : Parser × List Action :=
  if isCancel byte then ({ parser with state := .ground }, [.execute byte])
  else if byte = 0x1b then ({ parser with state := .ignoredStringEscape }, [])
  else (parser, [])

def ignoredStringEscape (parser : Parser) (byte : UInt8) : Parser × List Action :=
  if byte = 0x5c then ({ parser with state := .ground }, [.deferredString])
  else if byte = 0x1b then ({ parser with state := .ignoredStringEscape }, [])
  else ({ parser with state := .ignoredString }, [])

def step (parser : Parser) (byte : UInt8) : Parser × List Action :=
  match parser.state with
  | .ground => parser.ground byte
  | .escape => parser.escape byte
  | .escapeIntermediate => parser.escapeIntermediate byte
  | .csi => parser.csiByte byte
  | .osc => parser.oscByte byte
  | .oscEscape => parser.oscEscape byte
  | .ignoredString => parser.ignoredString byte
  | .ignoredStringEscape => parser.ignoredStringEscape byte

/-- A byte that was put back comes before the next one. `none` is a loop that
has not ended. -/
def feedFrom : Nat → Parser → List UInt8 → Option (Parser × List Action)
  | 0, parser, bytes => if bytes = [] ∧ parser.putback = none then some (parser, []) else none
  | fuel + 1, parser, bytes =>
      match parser.putback, bytes with
      | some byte, bytes =>
          let (next, actions) := { parser with putback := none }.step byte
          (feedFrom fuel next bytes).map fun (last, later) => (last, actions ++ later)
      | none, [] => some (parser, [])
      | none, byte :: rest =>
          let (next, actions) := parser.step byte
          (feedFrom fuel next rest).map fun (last, later) => (last, actions ++ later)

/-- Each byte is put back at most once. -/
def feed (parser : Parser) (bytes : List UInt8) : Option (Parser × List Action) :=
  feedFrom (2 * bytes.length + 2) parser bytes

end Parser

end Seyal.Terminal
