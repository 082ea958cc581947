import Seyal.Client.Keybinding.Types
import Seyal.Program.Check
import Seyal.Terminal.Types

namespace Seyal.Client.Keybinding

open Program
open Terminal (isWhitespace)

/-! The notation of strokes and chords, and the reserved strokes. -/

inductive KeysError where
  | empty
  | invalidStroke
  | chordTooLong
  | duplicateModifier
  | unknownToken
  deriving Repr, DecidableEq

def trim (text : List Char) : List Char :=
  ((text.dropWhile isWhitespace).reverse.dropWhile isWhitespace).reverse

/-- Printable ASCII that is no letter and no digit, without the separators `+` and `>`. -/
def isPunct (char : Char) : Bool :=
  let code := char.toNat
  ((0x21 ≤ code && code ≤ 0x2F) || (0x3A ≤ code && code ≤ 0x40) || (0x5B ≤ code && code ≤ 0x60) ||
    (0x7B ≤ code && code ≤ 0x7E)) && char ≠ '+' && char ≠ '>'

def namedKeys : List (String × NamedKey) :=
  [ ("enter", .enter), ("tab", .tab), ("space", .space), ("escape", .escape), ("backspace", .backspace), ("up", .up),
    ("down", .down), ("left", .left), ("right", .right), ("f1", .f1), ("f2", .f2), ("f3", .f3), ("f4", .f4),
    ("f5", .f5), ("f6", .f6), ("f7", .f7), ("f8", .f8), ("f9", .f9), ("f10", .f10), ("f11", .f11), ("f12", .f12),
    ("home", .home), ("end", .end_), ("pageup", .pageUp), ("pagedown", .pageDown), ("delete", .delete) ]

def parseNamed (token : List Char) : Option NamedKey :=
  (namedKeys.find? fun entry => entry.1.toList = token).map Prod.snd

structure PartialStroke where
  modifiers : Modifiers := 0#8
  key : Option KeySym := none

def insertMod (stroke : PartialStroke) (bit : Modifiers) : Except KeysError PartialStroke := do
  refuse (stroke.modifiers.contains bit = true) .duplicateModifier
  return { stroke with modifiers := stroke.modifiers ||| bit }

def setKey (stroke : PartialStroke) (key : KeySym) : Except KeysError PartialStroke := do
  refuse (stroke.key.isSome = true) .invalidStroke
  return { stroke with key := some key }

def charKey : List Char → Except KeysError KeySym
  | [char] =>
      if char.isAlpha then .ok (.char char.toLower)
      else if char.isDigit || isPunct char then .ok (.char char)
      else .error .unknownToken
  | _ => .error .unknownToken

def applyToken (stroke : PartialStroke) (raw : List Char) : Except KeysError PartialStroke := do
  let token := trim raw
  refuse (token = []) .invalidStroke
  let lower := token.map Char.toLower
  if lower = "cmd".toList then insertMod stroke .cmd
  else if lower = "ctrl".toList then insertMod stroke .ctrl
  else if lower = "shift".toList then insertMod stroke .shift
  else if lower = "opt".toList then insertMod stroke .opt
  else if lower = "plus".toList then setKey stroke (.char '+')
  else if lower = "greater".toList then setKey stroke (.char '>')
  else
    match parseNamed lower with
    | some key => setKey stroke (.named key)
    | none => charKey token >>= setKey stroke

def parseStroke (raw : List Char) : Except KeysError KeyStroke := do
  refuse (raw = []) .invalidStroke
  let stroke ← (raw.splitOn '+').foldlM applyToken {}
  let key ← orRefuse stroke.key .invalidStroke
  return { modifiers := stroke.modifiers, key }

def parseKeys (keys : String) : Except KeysError BindingSequence := do
  let trimmed := trim keys.toList
  refuse (trimmed = []) .empty
  let strokes ← (trimmed.splitOn '>').mapM fun part => parseStroke (trim part)
  refuse (4 < strokes.length) .chordTooLong
  orRefuse (BindingSequence.tryFromStrokes strokes) .empty

/-- Exact reserved key notations from SPEC-024 §4.2 (both tables). -/
def reservedKeyNotations : List String :=
  [ "cmd+q", "cmd+h", "cmd+opt+h", "cmd+m", "cmd+opt+m", "cmd+ctrl+f", "cmd+x", "cmd+c", "cmd+v", "cmd+a", "cmd+z",
    "cmd+shift+z", "cmd+ctrl+space", "cmd+tab", "cmd+shift+tab", "cmd+space", "cmd+opt+space", "cmd+opt+escape",
    "cmd+shift+3", "cmd+shift+4", "cmd+shift+5", "cmd+ctrl+q", "cmd+opt+d" ]

def reservedStrokes : List KeyStroke :=
  reservedKeyNotations.filterMap fun keys => (parseKeys keys).toOption.bind fun sequence => sequence.strokes.head?

/-- Reject when any stroke in the sequence is a reserved Command stroke (SPEC-024 §7.1 step 2). -/
def isReservedSequence (sequence : BindingSequence) : Bool :=
  sequence.strokes.any fun stroke => reservedStrokes.contains stroke

/-- Only the four modifiers, and no capital letter. -/
def Written (modifiers : Modifiers) (key : Option KeySym) : Prop :=
  modifiers &&& 240#8 = 0#8 ∧ ∀ char, key = some (.char char) → char.isUpper = false

def KeyStroke.Written (stroke : KeyStroke) : Prop := Keybinding.Written stroke.modifiers (some stroke.key)

section Written

variable {stroke next : PartialStroke}

theorem written_insertMod {bit : Modifiers} (low : bit &&& 240#8 = 0#8) (good : insertMod stroke bit = .ok next)
    (written : Written stroke.modifiers stroke.key) : Written next.modifiers next.key := by
  simp only [insertMod, refuse_bind_eq_ok, pure_eq_ok] at good
  obtain ⟨_, rfl⟩ := good
  refine ⟨?_, written.2⟩
  rw [BitVec.and_comm, BitVec.and_or_distrib_left, BitVec.and_comm, written.1, BitVec.and_comm, low]
  rfl

theorem written_setKey {key : KeySym} (plain : ∀ char, key = .char char → char.isUpper = false)
    (good : setKey stroke key = .ok next) (written : Written stroke.modifiers stroke.key) :
    Written next.modifiers next.key := by
  simp only [setKey, refuse_bind_eq_ok, pure_eq_ok] at good
  obtain ⟨_, rfl⟩ := good
  exact ⟨written.1, fun char same => plain char (Option.some.inj same)⟩

theorem isUpper_toLower (char : Char) : char.toLower.isUpper = false := by
  delta Char.isUpper Char.toLower
  split
  next capital => grind [UInt32.toNat_add, Char.toNat_val]
  next other => grind

theorem charKey_plain {token : List Char} {key : KeySym} (good : charKey token = .ok key) {char : Char}
    (same : key = .char char) : char.isUpper = false := by
  subst same
  unfold charKey at good
  split at good
  next only =>
    split at good
    next => cases good; exact isUpper_toLower only
    next letter =>
      split at good
      next =>
        cases good
        cases upper : char.isUpper with
        | false => rfl
        | true =>
            delta Char.isAlpha at letter
            simp [upper] at letter
      next => cases good
  next => cases good

theorem written_applyToken {raw : List Char} (good : applyToken stroke raw = .ok next)
    (written : Written stroke.modifiers stroke.key) : Written next.modifiers next.key := by
  simp only [applyToken, refuse_bind_eq_ok] at good
  obtain ⟨_, good⟩ := good
  repeat' split at good
  · exact written_insertMod rfl good written
  · exact written_insertMod rfl good written
  · exact written_insertMod rfl good written
  · exact written_insertMod rfl good written
  · exact written_setKey (fun char same => by cases same; rfl) good written
  · exact written_setKey (fun char same => by cases same; rfl) good written
  · exact written_setKey (fun char same => by cases same) good written
  · obtain ⟨key, found, good⟩ := bind_eq_ok.mp good
    exact written_setKey (fun char same => charKey_plain found same) good written

theorem written_foldlM {tokens : List (List Char)} (good : tokens.foldlM applyToken stroke = .ok next)
    (written : Written stroke.modifiers stroke.key) : Written next.modifiers next.key := by
  induction tokens generalizing stroke with
  | nil =>
      cases pure_eq_ok.mp good
      exact written
  | cons token tokens ih =>
      rw [List.foldlM_cons, bind_eq_ok] at good
      obtain ⟨middle, first, rest⟩ := good
      exact ih rest (written_applyToken first written)

theorem written_parseStroke {raw : List Char} {parsed : KeyStroke} (good : parseStroke raw = .ok parsed) :
    parsed.Written := by
  simp only [parseStroke, bind_eq_ok, orRefuse_eq_ok, pure_eq_ok] at good
  obtain ⟨_, _, stroke, folded, key, held, rfl⟩ := good
  have written := written_foldlM folded ⟨rfl, fun _ absent => by cases absent⟩
  rw [held] at written
  exact written

theorem written_mapM {parts : List (List Char)} {strokes : List KeyStroke}
    (good : (parts.mapM fun part => parseStroke (trim part)) = .ok strokes) : ∀ stroke ∈ strokes, stroke.Written := by
  induction parts generalizing strokes with
  | nil =>
      cases pure_eq_ok.mp good
      simp
  | cons part parts ih =>
      simp only [List.mapM_cons, bind_eq_ok, pure_eq_ok] at good
      obtain ⟨first, here, rest, others, rfl⟩ := good
      exact List.forall_mem_cons.mpr ⟨written_parseStroke here, ih others⟩

theorem written_parseKeys {keys : String} {sequence : BindingSequence} (good : parseKeys keys = .ok sequence) :
    ∀ stroke ∈ sequence.strokes, stroke.Written := by
  simp only [parseKeys, bind_eq_ok, orRefuse_eq_ok] at good
  obtain ⟨_, _, strokes, parsed, _, _, made⟩ := good
  unfold BindingSequence.tryFromStrokes at made
  split at made
  next => cases made; exact written_mapM parsed
  next => cases made

theorem written_of_mem_reservedStrokes {stroke : KeyStroke} (member : stroke ∈ reservedStrokes) : stroke.Written := by
  obtain ⟨keys, _, found⟩ := List.mem_filterMap.mp member
  obtain ⟨sequence, parsed, first⟩ := Option.bind_eq_some_iff.mp found
  have good : parseKeys keys = .ok sequence := by
    cases outcome : parseKeys keys with
    | error error =>
        rw [outcome] at parsed
        cases parsed
    | ok value =>
        rw [outcome] at parsed
        cases parsed
        rfl
  exact written_parseKeys good stroke (List.mem_of_mem_head? first)

end Written

end Seyal.Client.Keybinding
