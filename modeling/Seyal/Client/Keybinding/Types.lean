import Mathlib.Algebra.Order.BigOperators.Group.List
import Mathlib.Algebra.Order.Ring.Nat

namespace Seyal.Client.Keybinding

/-! Values of a keybinding table. -/

/-- Modifier bits for one stroke (SPEC-024 §3.3). -/
abbrev Modifiers := BitVec 8

namespace Modifiers

def cmd : Modifiers := 1#8
def ctrl : Modifiers := 2#8
def shift : Modifiers := 4#8
def opt : Modifiers := 8#8

def contains (modifiers other : Modifiers) : Bool := modifiers &&& other == other

end Modifiers

/-- Named non-character keys from SPEC-024 §3.2. -/
inductive NamedKey where
  | enter
  | tab
  | space
  | escape
  | backspace
  | up
  | down
  | left
  | right
  | f1
  | f2
  | f3
  | f4
  | f5
  | f6
  | f7
  | f8
  | f9
  | f10
  | f11
  | f12
  | home
  | end_
  | pageUp
  | pageDown
  | delete
  deriving Repr, DecidableEq

/-- Layout-independent key symbol after cold parse. -/
inductive KeySym where
  | named (key : NamedKey)
  | char (value : Char)
  deriving Repr, DecidableEq

structure KeyStroke where
  modifiers : Modifiers
  key : KeySym
  deriving Repr, DecidableEq

/-- One stroke or a chord of up to four. -/
structure BindingSequence where
  strokes : List KeyStroke
  sized : 1 ≤ strokes.length ∧ strokes.length ≤ 4
  deriving Repr, DecidableEq

def BindingSequence.tryFromStrokes (strokes : List KeyStroke) : Option BindingSequence :=
  if sized : 1 ≤ strokes.length ∧ strokes.length ≤ 4 then some ⟨strokes, sized⟩ else none

/-- Context bits (SPEC-024 §6.1). -/
abbrev BindingContext := BitVec 8

namespace BindingContext

def app : BindingContext := 1#8
def flow : BindingContext := 2#8
def raw : BindingContext := 4#8
def tui : BindingContext := 8#8
def composer : BindingContext := 16#8
def palette : BindingContext := 32#8

def contains (context other : BindingContext) : Bool := context &&& other == other
def remove (context other : BindingContext) : BindingContext := context &&& ~~~other
def isEmpty (context : BindingContext) : Bool := context == 0#8

def tokens : List (BindingContext × String) :=
  [(app, "app"), (flow, "flow"), (raw, "raw"), (tui, "tui"), (composer, "composer"), (palette, "palette")]

/-- Individual context bits set on this value, in SPEC-024 token order. -/
def iterBits (context : BindingContext) : List BindingContext := (tokens.map Prod.fst).filter context.contains

def bitName (context : BindingContext) : Option String := tokens.lookup context

end BindingContext

/-- Closed catalog currently admitted at load (SPEC-024 §5). -/
inductive WorkspaceCommandId where
  | commandPaletteOpen
  | commandPaletteClose
  | tabCreate
  | terminalCreate
  | terminalCloseFocused
  | tabCloseFocused
  | tabSelectPrevious
  | tabSelectNext
  | tabSelectOrdinal
  | paneSplitRight
  | paneSplitDown
  | paneCloseFocused
  | paneFocusNext
  | paneFocusPrevious
  | paneFocusLeft
  | paneFocusRight
  | paneFocusUp
  | paneFocusDown
  | paneZoomToggle
  | paneSwapLeft
  | paneSwapRight
  | paneSwapUp
  | paneSwapDown
  | paneMoveLeft
  | paneMoveRight
  | paneMoveUp
  | paneMoveDown
  | paneEqualizeFocused
  | paneEqualizeTab
  | presentationSetFlow
  | presentationSetRaw
  | presentationSetTui
  | presentationToggleRaw
  | presentationToggleTui
  | composerHistorySearchOpen
  | gotoOpen
  | focusHistoryBack
  | focusHistoryForward
  | appQuit
  | appCloseFocused
  | windowNew
  | windowClose
  | windowCycleNext
  | windowCyclePrevious
  | windowSelectOrdinal
  deriving Repr, DecidableEq

namespace WorkspaceCommandId

def names : List (WorkspaceCommandId × String) :=
  [
    (.commandPaletteOpen, "command_palette.open"),
    (.commandPaletteClose, "command_palette.close"),
    (.tabCreate, "tab.create"),
    (.terminalCreate, "terminal.create"),
    (.terminalCloseFocused, "terminal.close_focused"),
    (.tabCloseFocused, "tab.close_focused"),
    (.tabSelectPrevious, "tab.select_previous"),
    (.tabSelectNext, "tab.select_next"),
    (.tabSelectOrdinal, "tab.select_ordinal"),
    (.paneSplitRight, "pane.split_right"),
    (.paneSplitDown, "pane.split_down"),
    (.paneCloseFocused, "pane.close_focused"),
    (.paneFocusNext, "pane.focus_next"),
    (.paneFocusPrevious, "pane.focus_previous"),
    (.paneFocusLeft, "pane.focus_left"),
    (.paneFocusRight, "pane.focus_right"),
    (.paneFocusUp, "pane.focus_up"),
    (.paneFocusDown, "pane.focus_down"),
    (.paneZoomToggle, "pane.zoom_toggle"),
    (.paneSwapLeft, "pane.swap_left"),
    (.paneSwapRight, "pane.swap_right"),
    (.paneSwapUp, "pane.swap_up"),
    (.paneSwapDown, "pane.swap_down"),
    (.paneMoveLeft, "pane.move_left"),
    (.paneMoveRight, "pane.move_right"),
    (.paneMoveUp, "pane.move_up"),
    (.paneMoveDown, "pane.move_down"),
    (.paneEqualizeFocused, "pane.equalize_focused"),
    (.paneEqualizeTab, "pane.equalize_tab"),
    (.presentationSetFlow, "presentation.set_flow"),
    (.presentationSetRaw, "presentation.set_raw"),
    (.presentationSetTui, "presentation.set_tui"),
    (.presentationToggleRaw, "presentation.toggle_raw"),
    (.presentationToggleTui, "presentation.toggle_tui"),
    (.composerHistorySearchOpen, "composer.history_search.open"),
    (.gotoOpen, "goto.open"),
    (.focusHistoryBack, "focus_history.back"),
    (.focusHistoryForward, "focus_history.forward"),
    (.appQuit, "app.quit"),
    (.appCloseFocused, "app.close_focused"),
    (.windowNew, "window.new"),
    (.windowClose, "window.close"),
    (.windowCycleNext, "window.cycle_next"),
    (.windowCyclePrevious, "window.cycle_previous"),
    (.windowSelectOrdinal, "window.select_ordinal")
  ]

def asStr (id : WorkspaceCommandId) : String := (names.lookup id).getD ""

def parse (text : String) : Option WorkspaceCommandId := (names.find? fun entry => entry.2 = text).map Prod.fst

end WorkspaceCommandId

/-- Tab ordinal 1..=9 for `tab.select_ordinal`. -/
structure Ordinal1To9 where
  value : Nat
  inRange : 1 ≤ value ∧ value ≤ 9
  deriving Repr, DecidableEq

def Ordinal1To9.new (value : Nat) : Option Ordinal1To9 :=
  if inRange : 1 ≤ value ∧ value ≤ 9 then some ⟨value, inRange⟩ else none

structure WorkspaceCommand where
  id : WorkspaceCommandId
  ordinal : Option Ordinal1To9
  deriving Repr, DecidableEq

inductive BindingSource where
  | builtin
  | user (index : Nat)
  deriving Repr, DecidableEq

def BindingSource.debug : BindingSource → String
  | .builtin => "Builtin"
  | .user index => "User \x7b index: " ++ toString index ++ " \x7d"

structure CompiledBinding where
  sequence : BindingSequence
  keysNotation : String
  action : WorkspaceCommand
  context : BindingContext
  source : BindingSource
  deriving Repr, DecidableEq

inductive DiagnosticCategory where
  | invalidKeys
  | unknownAction
  | invalidActionArgument
  | disallowedActionPayload
  | chordTooLong
  | reservedCommandCollision
  | terminalPassthroughProtected
  | duplicateSequence
  | chordPrefixShadowed
  | unbindNoEffect
  | unknownFieldIgnored
  | tableIgnored
  deriving Repr, DecidableEq

/-- Non-secret load diagnostic (SPEC-024 §7.2 / §12.4). -/
structure KeybindingDiagnostic where
  category : DiagnosticCategory
  keysNotation : String
  action : String
  source : BindingSource
  message : String
  deriving Repr, DecidableEq

/-- Immutable cold keybinding table. -/
structure KeybindingTable where
  bindings : List CompiledBinding
  chordPrefixIndex : List (BindingSequence × List Nat)
  diagnostics : List KeybindingDiagnostic
  deriving Repr, DecidableEq

/-- An entry before conflicts are resolved; one without an action takes a binding away. -/
structure PendingEntry where
  sequence : BindingSequence
  keysNotation : String
  action : Option WorkspaceCommand
  actionLabel : String
  context : BindingContext
  source : BindingSource
  deriving Repr, DecidableEq

end Seyal.Client.Keybinding
