import Seyal.Client.Keybinding.Keys
import Seyal.Client.Keybinding.Resolve

namespace Seyal.Client.Keybinding

open Program

/-! The loader: builtin rows, the checks of each configured entry, and the table. -/

/-- A configuration value; a number that is not finite has no value. -/
inductive TomlValue where
  | string (value : String)
  | bool (value : Bool)
  | number (value : Option Rat)
  | array (values : List TomlValue)
  | table (entries : List (String × TomlValue))

abbrev TomlTable := List (String × TomlValue)

namespace TomlValue

def asStr : TomlValue → Option String
  | .string value => some value
  | _ => none

def asNumber : TomlValue → Option (Option Rat)
  | .number value => some value
  | _ => none

def asStringArray : TomlValue → Option (List String)
  | .array values => values.mapM asStr
  | _ => none

def asTable : TomlValue → Option TomlTable
  | .table entries => some entries
  | _ => none

def asArrayOfTables : TomlValue → Option (List TomlTable)
  | .array values => values.mapM asTable
  | _ => none

end TomlValue

/-- One builtin row before conflict resolution. -/
structure BuiltinRow where
  keysNotation : String
  id : WorkspaceCommandId
  ordinal : Option Nat
  context : BindingContext

def builtinRows : List BuiltinRow :=
  [
    ⟨"cmd+k", .commandPaletteOpen, none, .app⟩,
    ⟨"cmd+t", .terminalCreate, none, .app⟩,
    ⟨"cmd+shift+n", .windowNew, none, .app⟩,
    ⟨"cmd+n", .windowNew, none, .app⟩,
    ⟨"cmd+w", .terminalCloseFocused, none, .app⟩,
    ⟨"cmd+`", .windowCycleNext, none, .app⟩,
    ⟨"cmd+shift+`", .windowCyclePrevious, none, .app⟩,
    ⟨"cmd+shift+[", .tabSelectPrevious, none, .app⟩,
    ⟨"cmd+shift+]", .tabSelectNext, none, .app⟩,
    ⟨"cmd+d", .paneSplitRight, none, .app⟩,
    ⟨"cmd+shift+d", .paneSplitDown, none, .app⟩,
    ⟨"cmd+1", .tabSelectOrdinal, some 1, .app⟩,
    ⟨"cmd+2", .tabSelectOrdinal, some 2, .app⟩,
    ⟨"cmd+3", .tabSelectOrdinal, some 3, .app⟩,
    ⟨"cmd+4", .tabSelectOrdinal, some 4, .app⟩,
    ⟨"cmd+5", .tabSelectOrdinal, some 5, .app⟩,
    ⟨"cmd+6", .tabSelectOrdinal, some 6, .app⟩,
    ⟨"cmd+7", .tabSelectOrdinal, some 7, .app⟩,
    ⟨"cmd+8", .tabSelectOrdinal, some 8, .app⟩,
    ⟨"cmd+9", .tabSelectOrdinal, some 9, .app⟩,
    ⟨"cmd+opt+1", .windowSelectOrdinal, some 1, .app⟩,
    ⟨"cmd+opt+2", .windowSelectOrdinal, some 2, .app⟩,
    ⟨"cmd+opt+3", .windowSelectOrdinal, some 3, .app⟩,
    ⟨"cmd+opt+4", .windowSelectOrdinal, some 4, .app⟩,
    ⟨"cmd+opt+5", .windowSelectOrdinal, some 5, .app⟩,
    ⟨"cmd+opt+6", .windowSelectOrdinal, some 6, .app⟩,
    ⟨"cmd+opt+7", .windowSelectOrdinal, some 7, .app⟩,
    ⟨"cmd+opt+8", .windowSelectOrdinal, some 8, .app⟩,
    ⟨"cmd+opt+9", .windowSelectOrdinal, some 9, .app⟩,
    ⟨"cmd+opt+enter", .presentationToggleTui, none, .app⟩,
    ⟨"escape", .commandPaletteClose, none, .palette⟩,
    ⟨"ctrl+r", .composerHistorySearchOpen, none, .composer⟩,
    ⟨"cmd+shift+o", .gotoOpen, none, .app⟩,
    ⟨"cmd+shift+enter", .paneZoomToggle, none, .app⟩,
    ⟨"cmd+opt+left", .paneFocusLeft, none, .app⟩,
    ⟨"cmd+opt+right", .paneFocusRight, none, .app⟩,
    ⟨"cmd+opt+up", .paneFocusUp, none, .app⟩,
    ⟨"cmd+opt+down", .paneFocusDown, none, .app⟩
  ]

def compileBuiltinEntry (row : BuiltinRow) : Option PendingEntry :=
  (parseKeys row.keysNotation).toOption.map fun sequence =>
    { sequence, keysNotation := row.keysNotation
      action := some { id := row.id, ordinal := row.ordinal.bind Ordinal1To9.new }
      actionLabel := row.id.asStr, context := row.context, source := .builtin }

def compileBuiltinEntries : List PendingEntry := builtinRows.filterMap compileBuiltinEntry

def diag (category : DiagnosticCategory) (keysNotation action : String) (source : BindingSource) (message : String) :
    KeybindingDiagnostic :=
  { category, keysNotation, action, source, message }

def knownFields : List String := ["keys", "action", "context", "ordinal"]

def stringField (entry : TomlTable) (key : String) : Option String := (entry.lookup key).bind TomlValue.asStr

def unknownFieldDiags (entry : TomlTable) (source : BindingSource) : List KeybindingDiagnostic :=
  (entry.filter fun field => !knownFields.contains field.1).map fun field =>
    diag .unknownFieldIgnored ((stringField entry "keys").getD "") ((stringField entry "action").getD "") source
      ("unknown field " ++ field.1 ++ " ignored")

/-- Terminal-capable first stroke + `app` → reject (SPEC-024 R6.3.2). -/
def violatesTerminalPassthrough (first : Option KeyStroke) (context : BindingContext) : Bool :=
  match first with
  | none => false
  | some first => !first.modifiers.contains .cmd && context.contains .app

/-- A location has a slash, so `://` needs no case of its own. -/
def looksLikeDisallowedPayload (action : String) : Bool :=
  let text := action.toList
  text.contains '/' || text.contains ' ' || text.contains ';' || "shell:".toList.isPrefixOf text ||
    "exec:".toList.isPrefixOf text || 2 < text.count '.'

section Entry

variable (entry : TomlTable) (keysNotation actionRaw : String) (source : BindingSource)

def contextBit (item : String) : Option BindingContext :=
  (BindingContext.tokens.find? fun token => token.2 = item).map Prod.fst

def parseContext : Except KeybindingDiagnostic BindingContext :=
  match entry.lookup "context" with
  | none => .ok .app
  | some value => do
      let items ← orRefuse value.asStringArray
        (diag .invalidKeys keysNotation actionRaw source "context must be an array of strings")
      refuse (items = []) (diag .invalidKeys keysNotation actionRaw source "context must be non-empty")
      let bits ← items.mapM fun item =>
        orRefuse (contextBit item) (diag .invalidKeys keysNotation actionRaw source "unknown context token")
      return bits.foldl (· ||| ·) 0#8

/-- `number as u8`, where the number is an integer from 0 to 255. -/
def smallInteger (number : Option Rat) : Option Nat :=
  number.bind fun value => if value.den = 1 ∧ 0 ≤ value.num ∧ value.num ≤ 255 then some value.num.toNat else none

def resolveOrdinal (id : WorkspaceCommandId) : Except KeybindingDiagnostic (Option Ordinal1To9) := do
  let refusal := diag .invalidActionArgument keysNotation actionRaw source
  if id = .tabSelectOrdinal ∨ id = .windowSelectOrdinal then
    let required :=
      if id = .tabSelectOrdinal then "ordinal required for tab.select_ordinal"
      else "ordinal required for window.select_ordinal"
    let value ← orRefuse (entry.lookup "ordinal") (refusal required)
    let number ← orRefuse value.asNumber (refusal "ordinal must be an integer 1..=9")
    let ordinal ← orRefuse ((smallInteger number).bind Ordinal1To9.new) (refusal "ordinal must be an integer 1..=9")
    return some ordinal
  else
    refuse ((entry.lookup "ordinal").isSome = true) (refusal "ordinal forbidden for this action")
    return none

variable (sequence : BindingSequence) (context : BindingContext)

def compileUnbind : Except KeybindingDiagnostic PendingEntry := do
  refuse ((entry.lookup "ordinal").isSome = true)
    (diag .invalidActionArgument keysNotation actionRaw source "ordinal forbidden on action none")
  return { sequence, keysNotation, action := none, actionLabel := "none", context, source }

def compileBind : Except KeybindingDiagnostic PendingEntry := do
  refuse (violatesTerminalPassthrough sequence.strokes.head? context = true)
    (diag .terminalPassthroughProtected keysNotation actionRaw source
      "terminal-capable first stroke cannot claim app context")
  refuse (looksLikeDisallowedPayload actionRaw = true)
    (diag .disallowedActionPayload keysNotation actionRaw source "action embeds a disallowed payload")
  let id ← orRefuse (WorkspaceCommandId.parse actionRaw)
    (diag .unknownAction keysNotation actionRaw source "unknown action id")
  let ordinal ← resolveOrdinal entry keysNotation actionRaw source id
  return { sequence, keysNotation, action := some { id, ordinal }, actionLabel := actionRaw, context, source }

end Entry

def keysDiag (keysNotation actionRaw : String) (source : BindingSource) : KeysError → KeybindingDiagnostic
  | .chordTooLong => diag .chordTooLong keysNotation actionRaw source "chord longer than 4 strokes"
  | _ => diag .invalidKeys keysNotation actionRaw source "invalid keys notation"

def compileEntry (entry : TomlTable) (source : BindingSource) : Except KeybindingDiagnostic PendingEntry := do
  let keysNotation ← orRefuse (stringField entry "keys")
    (diag .invalidKeys "" ((stringField entry "action").getD "") source "keys missing or not a string")
  let actionRaw ← orRefuse (stringField entry "action")
    (diag .unknownAction keysNotation "" source "action missing or not a string")
  let sequence ← (parseKeys keysNotation).mapError (keysDiag keysNotation actionRaw source)
  let context ← parseContext entry keysNotation actionRaw source
  refuse (isReservedSequence sequence = true)
    (diag .reservedCommandCollision keysNotation actionRaw source "sequence is reserved and cannot be rebound")
  if actionRaw = "none" then compileUnbind entry keysNotation actionRaw source sequence context
  else compileBind entry keysNotation actionRaw source sequence context

def entryDiags (entry : TomlTable) (source : BindingSource) : List KeybindingDiagnostic :=
  unknownFieldDiags entry source ++
    match compileEntry entry source with
    | .ok _ => []
    | .error refused => [refused]

def compileKeybindingsFromRoot (root : TomlTable) : KeybindingTable :=
  match root.lookup "keybindings" with
  | none => finalize compileBuiltinEntries []
  | some value =>
      match value.asArrayOfTables with
      | none =>
          finalize compileBuiltinEntries
            [diag .tableIgnored "" "" (.user 0) "keybindings ignored; expected array of tables"]
      | some entries =>
          let sourced := entries.zipIdx.map fun entry => (entry.1, BindingSource.user (entry.2 % 2 ^ 32))
          finalize (compileBuiltinEntries ++ sourced.filterMap fun entry => (compileEntry entry.1 entry.2).toOption)
            (sourced.flatMap fun entry => entryDiags entry.1 entry.2)

/-- The table of a configuration; a file that is missing or cannot be parsed has no root. -/
def loadKeybindingTable (root : Option TomlTable) : KeybindingTable :=
  match root with
  | none => finalize compileBuiltinEntries []
  | some root => compileKeybindingsFromRoot root

def Admitted (sequence : BindingSequence) : Prop :=
  isReservedSequence sequence = false ∧ ∀ stroke ∈ sequence.strokes, stroke.Written

theorem builtins_admitted :
    compileBuiltinEntries.length = builtinRows.length ∧
      ∀ entry ∈ compileBuiltinEntries, isReservedSequence entry.sequence = false := by
  decide +kernel

theorem toOption_eq_some {ε α : Type} {outcome : Except ε α} {value : α} (some_ : outcome.toOption = some value) :
    outcome = .ok value := by
  cases outcome with
  | error error => cases some_
  | ok found =>
      cases some_
      rfl

theorem compileBuiltinEntry_admitted {entry : PendingEntry} (member : entry ∈ compileBuiltinEntries) :
    Admitted entry.sequence := by
  refine ⟨builtins_admitted.2 entry member, ?_⟩
  obtain ⟨row, _, made⟩ := List.mem_filterMap.mp member
  obtain ⟨sequence, parsed, rfl⟩ := Option.map_eq_some_iff.mp made
  exact written_parseKeys (toOption_eq_some parsed)

theorem compileEntry_admitted {entry : TomlTable} {source : BindingSource} {pending : PendingEntry}
    (compiled : compileEntry entry source = .ok pending) : Admitted pending.sequence := by
  simp only [compileEntry, bind_eq_ok, orRefuse_eq_ok, refuse_eq_ok] at compiled
  obtain ⟨keysNotation, _, actionRaw, _, sequence, parsed, context, _, _, free, rest⟩ := compiled
  have same : pending.sequence = sequence := by
    split at rest
    next =>
      simp only [compileUnbind, bind_eq_ok, pure_eq_ok] at rest
      obtain ⟨_, _, rfl⟩ := rest
      rfl
    next =>
      simp only [compileBind, bind_eq_ok, pure_eq_ok] at rest
      obtain ⟨_, _, _, _, _, _, _, _, rfl⟩ := rest
      rfl
  rw [same]
  exact ⟨by simpa using free, written_parseKeys (mapError_eq_ok parsed)⟩

theorem finalize_admitted {pending : List PendingEntry} {diagnostics : List KeybindingDiagnostic}
    (all : ∀ entry ∈ pending, Admitted entry.sequence) :
    ∀ binding ∈ (finalize pending diagnostics).bindings, Admitted binding.sequence := by
  intro binding member
  obtain ⟨entry, listed, same⟩ := exists_entry_of_mem_finalize member
  rw [same]
  exact all entry listed

theorem loadKeybindingTable_admitted (root : Option TomlTable) :
    ∀ binding ∈ (loadKeybindingTable root).bindings, Admitted binding.sequence := by
  unfold loadKeybindingTable
  split
  next => exact finalize_admitted fun entry => compileBuiltinEntry_admitted
  next root =>
    unfold compileKeybindingsFromRoot
    split
    next => exact finalize_admitted fun entry => compileBuiltinEntry_admitted
    next value _ =>
      split
      next => exact finalize_admitted fun entry => compileBuiltinEntry_admitted
      next entries _ =>
        refine finalize_admitted fun entry member => ?_
        rcases List.mem_append.mp member with builtin | user
        · exact compileBuiltinEntry_admitted builtin
        · obtain ⟨configured, _, compiled⟩ := List.mem_filterMap.mp user
          exact compileEntry_admitted (toOption_eq_some compiled)

end Seyal.Client.Keybinding
