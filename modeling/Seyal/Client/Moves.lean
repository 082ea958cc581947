import Seyal.Client.Focus
import Seyal.Program.Place

namespace Seyal.Client

open Program PaneTree

/-! A pane moved to a side of another pane of its tab. -/

inductive ShellError where
  | unknownWorkspace
  | unknownTab
  | unknownPane
  | unknownWindow
  | invalidMoveTarget
  deriving Repr, DecidableEq

abbrev WorkspaceId := Nat

abbrev WindowId := Nat

abbrev TabId := Nat

/-- Of the panes only the keys of the map are read. -/
structure Tab where
  id : TabId
  panes : List PaneId
  root : PaneTree
  zoomed : Option PaneId
  deriving Repr, DecidableEq

structure Window where
  id : WindowId
  workspaceId : WorkspaceId
  tabs : List Tab
  activeTab : TabId
  deriving Repr, DecidableEq

open Window

structure Workspace where
  id : WorkspaceId
  windows : List Window
  activeWindow : Option WindowId
  deriving Repr, DecidableEq

structure ShellState where
  workspaces : List Workspace
  lastActiveWorkspace : WorkspaceId
  focusHistory : List PaneId
  containmentGeneration : UInt64
  deriving Repr, DecidableEq

inductive MoveSide where
  | left
  | right
  | above
  | below
  deriving Repr, DecidableEq

def MoveSide.splitBeside (side : MoveSide) (pane neighbor : PaneId) : PaneTree :=
  match side with
  | .left => .split .right (.leaf pane) (.leaf neighbor) .half
  | .right => .split .right (.leaf neighbor) (.leaf pane) .half
  | .above => .split .down (.leaf pane) (.leaf neighbor) .half
  | .below => .split .down (.leaf neighbor) (.leaf pane) .half

def Window.activeTabMut (change : Tab → Except ShellError Tab) (window : Window) : Except ShellError Window :=
  (fun tabs => { window with tabs }) <$>
    changeFirst (fun tab => tab.id = window.activeTab) .unknownTab change window.tabs

namespace Workspace

def tabs (workspace : Workspace) : List Tab := workspace.windows.flatMap Window.tabs

def activeTabMut (change : Tab → Except ShellError Tab) (workspace : Workspace) : Except ShellError Workspace :=
  match workspace.activeWindow with
  | none => .error .unknownWindow
  | some id =>
      (fun windows => { workspace with windows }) <$>
        changeFirst (fun window => window.id = id) .unknownWindow (Window.activeTabMut change) workspace.windows

end Workspace

namespace ShellState

def productActiveWindow (state : ShellState) : Option Window :=
  state.focusHistory.findSome? fun pane =>
    (state.workspaces.flatMap Workspace.windows).find? fun window => window.tabs.any fun tab => pane ∈ tab.panes

def activeWorkspaceId (state : ShellState) : WorkspaceId :=
  (state.productActiveWindow.map workspaceId).getD state.lastActiveWorkspace

def locationOfPane (state : ShellState) (pane : PaneId) : Option (WorkspaceId × TabId) :=
  state.workspaces.findSome? fun workspace =>
    (workspace.tabs.find? fun tab => pane ∈ tab.panes).map fun tab => (workspace.id, tab.id)

def bumpContainmentGeneration (state : ShellState) : ShellState :=
  { state with containmentGeneration :=
      if state.containmentGeneration = 0xffffffffffffffff then 0xffffffffffffffff
      else state.containmentGeneration + 1 }

end ShellState

def Tab.movePaneBeside (pane neighbor : PaneId) (side : MoveSide) (neighborExists : Bool) (tab : Tab) :
    Except ShellError Tab :=
  if pane ∉ tab.panes then .error .unknownPane
  else if neighbor ∉ tab.panes then .error (if neighborExists then .invalidMoveTarget else .unknownPane)
  else
    match tab.root.removing pane with
    | none => .error .invalidMoveTarget
    | some rootWithout =>
        if rootWithout.containsLeaf neighbor then
          .ok { tab with zoomed := none, root := rootWithout.replacing neighbor (side.splitBeside pane neighbor) }
        else .error .invalidMoveTarget

def ShellState.movePaneBeside (state : ShellState) (pane neighbor : PaneId) (side : MoveSide) :
    Except ShellError ShellState :=
  if pane = neighbor then .error .invalidMoveTarget
  else
    let neighborExists := (state.locationOfPane neighbor).isSome
    (fun workspaces => { state with workspaces }.bumpContainmentGeneration) <$>
      changeFirst (fun workspace => workspace.id = state.activeWorkspaceId) .unknownWorkspace
        (Workspace.activeTabMut (Tab.movePaneBeside pane neighbor side neighborExists)) state.workspaces

/-! The tab that an action finds, before and after the move. -/

def Window.shownTab (window : Window) : Option Tab := window.tabs.find? fun tab => tab.id = window.activeTab

def Workspace.activeTab (workspace : Workspace) : Option Tab :=
  workspace.activeWindow.bind fun id => (workspace.windows.find? fun window => window.id = id).bind shownTab

def ShellState.activeTab (state : ShellState) : Option Tab :=
  (state.workspaces.find? fun workspace => workspace.id = state.activeWorkspaceId).bind Workspace.activeTab

def Window.shown (window : Window) : WorkspaceId × List (List PaneId) := (window.workspaceId, window.tabs.map Tab.panes)

section Found

variable {state after : ShellState} {workspace changed : Workspace} {tab moved : Tab} {pane neighbor : PaneId}
  {side : MoveSide} {neighborExists : Bool} {change : Tab → Except ShellError Tab}

theorem activeWorkspaceId_eq (state : ShellState) :
    state.activeWorkspaceId = ((state.focusHistory.findSome? fun pane =>
      (((state.workspaces.flatMap Workspace.windows).map shown).find? fun window =>
        window.2.any fun panes => pane ∈ panes).map Prod.fst).getD state.lastActiveWorkspace) := by
  have reads : ∀ pane : PaneId, ((fun window : WorkspaceId × List (List PaneId) =>
      window.2.any fun panes => decide (pane ∈ panes)) ∘ shown) =
        fun window => window.tabs.any fun tab => decide (pane ∈ tab.panes) := by
    intro pane
    funext window
    simp [shown, List.any_map, Function.comp_def]
  simp only [ShellState.activeWorkspaceId, ShellState.productActiveWindow, List.map_findSome?, List.find?_map, reads,
    Option.map_map, Function.comp_def, shown]

def KeepsTab (change : Tab → Except ShellError Tab) : Prop :=
  ∀ tab moved, change tab = .ok moved → moved.id = tab.id ∧ moved.panes = tab.panes

theorem windowTabMut_spec {window changed : Window} (keeps : KeepsTab change)
    (done : window.activeTabMut change = .ok changed) :
    changed.id = window.id ∧ changed.shown = window.shown ∧
    ∃ tab moved, window.shownTab = some tab ∧ change tab = .ok moved ∧ changed.shownTab = some moved := by
  obtain ⟨tabs, changes, rfl⟩ := map_eq_ok.mp done
  refine ⟨rfl, ?_, ?_⟩
  · rw [shown, changeFirst_map Tab.panes changes fun tab moved done => (keeps tab moved done).2, shown]
  · exact changeFirst_find changes fun tab moved done => by simp only [(keeps tab moved done).1]

theorem activeTabMut_spec (keeps : KeepsTab change) (done : workspace.activeTabMut change = .ok changed) :
    changed.id = workspace.id ∧ changed.windows.map Window.shown = workspace.windows.map Window.shown ∧
    ∃ tab moved, workspace.activeTab = some tab ∧ change tab = .ok moved ∧ changed.activeTab = some moved := by
  unfold Workspace.activeTabMut at done
  split at done
  next => cases done
  next id active =>
    obtain ⟨windows, changes, rfl⟩ := map_eq_ok.mp done
    obtain ⟨window, after, before, changed, found⟩ := changeFirst_find changes fun window after done => by
      simp only [(windowTabMut_spec keeps done).1]
    obtain ⟨-, -, tab, moved, shown, moves, shownAfter⟩ := windowTabMut_spec keeps changed
    refine ⟨rfl, ?_, tab, moved, ?_, moves, ?_⟩
    · exact changeFirst_map Window.shown changes fun window after done => (windowTabMut_spec keeps done).2.1
    · rw [Workspace.activeTab, active, Option.bind_some, before, Option.bind_some, shown]
    · rw [Workspace.activeTab, active, Option.bind_some, found, Option.bind_some, shownAfter]

theorem movePaneBeside_tab (moves : tab.movePaneBeside pane neighbor side neighborExists = .ok moved) :
    ∃ rootWithout, tab.root.removing pane = some rootWithout ∧ neighbor ∈ rootWithout.paneIds ∧
      moved = { tab with zoomed := none, root := rootWithout.replacing neighbor (side.splitBeside pane neighbor) } := by
  unfold Tab.movePaneBeside at moves
  split at moves
  next => cases moves
  split at moves
  next => cases moves
  split at moves
  next => cases moves
  next rootWithout removed =>
    split at moves
    next there =>
      cases moves
      exact ⟨rootWithout, removed, containsLeaf_iff.mp there, rfl⟩
    next => cases moves

theorem movePaneBeside_activeTab (moves : state.movePaneBeside pane neighbor side = .ok after) :
    pane ≠ neighbor ∧ ∃ tab moved neighborExists, state.activeTab = some tab ∧
      tab.movePaneBeside pane neighbor side neighborExists = .ok moved ∧ after.activeTab = some moved := by
  unfold ShellState.movePaneBeside at moves
  split at moves
  next => cases moves
  next different =>
    obtain ⟨workspaces, changes, rfl⟩ := map_eq_ok.mp moves
    have keeps : KeepsTab (Tab.movePaneBeside pane neighbor side (state.locationOfPane neighbor).isSome) := by
      intro tab moved done
      obtain ⟨_, -, -, rfl⟩ := movePaneBeside_tab done
      exact ⟨rfl, rfl⟩
    obtain ⟨workspace, changed, before, done, found⟩ := changeFirst_find changes fun workspace changed done => by
      simp only [(activeTabMut_spec keeps done).1]
    obtain ⟨-, -, tab, moved, active, movesTab, activeAfter⟩ := activeTabMut_spec keeps done
    have windows : (workspaces.flatMap Workspace.windows).map shown =
        (state.workspaces.flatMap Workspace.windows).map shown := by
      have views := changeFirst_map (fun workspace => workspace.windows.map shown) changes
        fun workspace changed done => (activeTabMut_spec keeps done).2.1
      rw [List.map_flatMap, List.map_flatMap, List.flatMap_def, List.flatMap_def, views]
    have same : ({ state with workspaces }.bumpContainmentGeneration).activeWorkspaceId = state.activeWorkspaceId := by
      rw [activeWorkspaceId_eq, activeWorkspaceId_eq state, ← windows]
      rfl
    refine ⟨different, tab, moved, _, ?_, movesTab, ?_⟩
    · rw [ShellState.activeTab, before, Option.bind_some, active]
    · rw [ShellState.activeTab, same]
      exact (congrArg (Option.bind · Workspace.activeTab) found).trans activeAfter

end Found

def MoveSide.direction : MoveSide → FocusDirection
  | .left => .left
  | .right => .right
  | .above => .up
  | .below => .down

def FocusDirection.opposite : FocusDirection → FocusDirection
  | .left => .right
  | .right => .left
  | .up => .down
  | .down => .up

def SplitAxis.onward : SplitAxis → FocusDirection
  | .right => .right
  | .down => .down

section Beside

variable {tree : PaneTree} {rect : ExactRect} {first second pane neighbor : PaneId}

theorem adjacent_divided (axis : SplitAxis) (ratio : SplitRatio) (positive : rect.box.Positive) :
    (rect.divided axis ratio).1.box axis.onward.across = (rect.divided axis ratio).2.box axis.onward.across ∧
    Adjacent (rect.divided axis ratio).1.box (rect.divided axis ratio).2.box axis.onward ∧
    Adjacent (rect.divided axis ratio).2.box (rect.divided axis ratio).1.box axis.onward.opposite := by
  obtain ⟨front, back⟩ := divided_positive axis ratio positive
  cases axis with
  | right =>
      have meets := Span.meets_of_at .low (front .down) (back .down) rfl
      exact ⟨rfl, ⟨rfl, meets⟩, rfl, meets.symm⟩
  | down =>
      have meets := Span.meets_of_at .low (front .right) (back .right) rfl
      exact ⟨rfl, ⟨rfl, meets⟩, rfl, meets.symm⟩

theorem chooseNeighbor_edge {leaf other : PaneId × ExactRect} {direction : FocusDirection}
    (distinct : tree.paneIds.Nodup) (member : leaf ∈ leafRects tree) (another : other ∈ leafRects tree)
    (same : leaf.2.box direction.across = other.2.box direction.across)
    (adjacent : Adjacent leaf.2.box other.2.box direction) :
    chooseNeighbor (leafRects tree) leaf.1 direction = some other.1 := by
  have names := leafRects_distinct distinct
  have different : other.1 ≠ leaf.1 := by
    intro equal
    cases List.inj_on_of_nodup_map names another member equal
    exact not_adjacent_self (leafRects_positive member) adjacent
  apply chooseNeighbor_only names member another ⟨different, adjacent⟩
  intro third inside candidate
  apply leafRects_same inside another
  intro axis
  by_cases along : axis = direction.axis
  · rw [along]
    exact Span.meets_of_at direction.side.opposite (leafRects_positive inside _) (leafRects_positive another _)
      (candidate.2.1.trans adjacent.1.symm)
  · rw [FocusDirection.ne_axis.mp along, ← same]
    exact candidate.2.2.symm

theorem collectLeaves_replacing (replacement : PaneTree) (positive : rect.box.Positive)
    (member : pane ∈ tree.paneIds) :
    ∃ inner : ExactRect, inner.box.Positive ∧
      ∀ leaf ∈ collectLeaves inner replacement, leaf ∈ collectLeaves rect (tree.replacing pane replacement) := by
  induction tree generalizing rect with
  | leaf id =>
      cases List.mem_singleton.mp member
      rw [replacing, if_pos rfl]
      exact ⟨rect, positive, fun _ inside => inside⟩
  | split axis first second ratio inFirst inSecond =>
      obtain ⟨front, back⟩ := divided_positive axis ratio positive
      rcases List.mem_append.mp member with here | there
      · obtain ⟨inner, wide, inside⟩ := inFirst front here
        exact ⟨inner, wide, fun leaf listed => List.mem_append_left _ (inside leaf listed)⟩
      · obtain ⟨inner, wide, inside⟩ := inSecond back there
        exact ⟨inner, wide, fun leaf listed => List.mem_append_right _ (inside leaf listed)⟩

theorem chooseNeighbor_replacing {axis : SplitAxis} {ratio : SplitRatio} (member : pane ∈ tree.paneIds)
    (distinct : (tree.replacing pane (.split axis (.leaf first) (.leaf second) ratio)).paneIds.Nodup) :
    let leaves := leafRects (tree.replacing pane (.split axis (.leaf first) (.leaf second) ratio))
    chooseNeighbor leaves first axis.onward = some second ∧
      chooseNeighbor leaves second axis.onward.opposite = some first := by
  obtain ⟨inner, positive, inside⟩ := collectLeaves_replacing (.split axis (.leaf first) (.leaf second) ratio)
    (box_full ▸ unitSquare_positive) member
  have front := inside (first, (inner.divided axis ratio).1) List.mem_cons_self
  have back := inside (second, (inner.divided axis ratio).2) (List.mem_cons_of_mem _ List.mem_cons_self)
  obtain ⟨same, onward, backward⟩ := adjacent_divided axis ratio positive
  have across : axis.onward.opposite.across = axis.onward.across := by cases axis <;> rfl
  exact ⟨chooseNeighbor_edge distinct front back same onward,
    chooseNeighbor_edge distinct back front (across ▸ same.symm) backward⟩

theorem splitBeside_leaves (side : MoveSide) (different : pane ≠ neighbor) :
    (side.splitBeside pane neighbor).paneIds.Perm [neighbor, pane] ∧
    (side.splitBeside pane neighbor).paneIds.filter (· ≠ pane) = [neighbor] ∧
    (side.splitBeside pane neighbor).cuts.filterMap (Cut.without pane) = [] := by
  cases side <;>
    simp [MoveSide.splitBeside, paneIds, cuts, Cut.without, different.symm, List.Perm.swap]

/-- The move keeps the leaves, the order of the others, and every split but the two that have the pane alone on a
side; and the two panes are each other's neighbor. -/
theorem movePaneBeside_places {state after : ShellState} {tab : Tab} {side : MoveSide}
    (active : state.activeTab = some tab) (distinct : tab.root.paneIds.Nodup) (member : pane ∈ tab.root.paneIds)
    (moves : state.movePaneBeside pane neighbor side = .ok after) :
    ∃ moved, after.activeTab = some moved ∧
      moved.root.paneIds.Perm tab.root.paneIds ∧
      moved.root.paneIds.filter (· ≠ pane) = tab.root.paneIds.filter (· ≠ pane) ∧
      moved.root.cuts.filterMap (Cut.without pane) = tab.root.cuts.filterMap (Cut.without pane) ∧
      chooseNeighbor (leafRects moved.root) pane side.direction.opposite = some neighbor ∧
      chooseNeighbor (leafRects moved.root) neighbor side.direction = some pane := by
  obtain ⟨different, found, moved, neighborExists, here, movesTab, activeAfter⟩ := movePaneBeside_activeTab moves
  cases active.symm.trans here
  obtain ⟨rootWithout, removed, inside, rfl⟩ := movePaneBeside_tab movesTab
  have leaves : rootWithout.paneIds = tab.root.paneIds.filter (· ≠ pane) := by
    rw [← paneIds_removing, removed]
    rfl
  have cuts : rootWithout.cuts = tab.root.cuts.filterMap (Cut.without pane) := by
    rw [← cuts_removing, removed]
    rfl
  have beside := splitBeside_leaves side different
  have all : (rootWithout.replacing neighbor (side.splitBeside pane neighbor)).paneIds.Perm tab.root.paneIds := by
    have added := paneIds_replacing (leaves ▸ distinct.filter _) inside beside.1
    rw [leaves] at added
    exact added.trans (paneIds_perm_without distinct member).symm
  have still := all.nodup_iff.mpr distinct
  refine ⟨_, activeAfter, all, ?_, ?_, ?_⟩
  · rw [filter_replacing beside.2.1, leaves, List.filter_filter]
    simp only [Bool.and_self]
  · rw [cuts_replacing beside.2.1 beside.2.2, cuts, List.filterMap_filterMap]
    simp only [Cut.without_twice]
  · cases side with
    | left => exact chooseNeighbor_replacing inside still
    | right => exact (chooseNeighbor_replacing inside still).symm
    | above => exact chooseNeighbor_replacing inside still
    | below => exact (chooseNeighbor_replacing inside still).symm

def columnsShell (root : PaneTree) (generation : UInt64) : ShellState where
  workspaces := [⟨1, [⟨1, 1, [⟨1, [1, 2, 3], root, none⟩], 1⟩], some 1⟩]
  lastActiveWorkspace := 1
  focusHistory := [3]
  containmentGeneration := generation

theorem movePaneBeside_places_columns :
    ∃ after moved, (columnsShell columns 0).movePaneBeside 1 3 .above = .ok after ∧ after.activeTab = some moved ∧
      chooseNeighbor (leafRects moved.root) 1 .down = some 3 ∧ chooseNeighbor (leafRects moved.root) 3 .up = some 1 := by
  have moves : (columnsShell columns 0).movePaneBeside 1 3 .above =
      .ok (columnsShell (.split .right (.leaf 2) (.split .down (.leaf 1) (.leaf 3) .half) .half) 1) := rfl
  have active : (columnsShell columns 0).activeTab = some ⟨1, [1, 2, 3], columns, none⟩ := rfl
  have distinct : columns.paneIds.Nodup := by decide
  have member : 1 ∈ columns.paneIds := by decide
  obtain ⟨moved, found, -, -, -, beside⟩ := movePaneBeside_places active distinct member moves
  exact ⟨_, moved, moves, found, beside⟩

end Beside

end Seyal.Client
