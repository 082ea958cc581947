import Mathlib.Algebra.Order.BigOperators.Group.List
import Mathlib.Algebra.Order.Ring.Nat
import Mathlib.Data.List.Nodup

namespace Seyal.Client

/-! The layout of the panes of one tab, and the dividers between them. -/

abbrev PaneId := Nat

inductive SplitAxis where
  | right
  | down
  deriving Repr, DecidableEq

/-- The share of a split's extent that its first child has, in ten-thousandths; neither side collapses. -/
structure SplitRatio where
  basisPoints : Nat
  atLeast : 1000 ≤ basisPoints
  atMost : basisPoints ≤ 9000
  deriving Repr, DecidableEq

def SplitRatio.half : SplitRatio := ⟨5000, by decide, by decide⟩

inductive PaneTree where
  | leaf (id : PaneId)
  | split (axis : SplitAxis) (first second : PaneTree) (ratio : SplitRatio)
  deriving Repr, DecidableEq

namespace PaneTree

def replacing (tree : PaneTree) (target : PaneId) (replacement : PaneTree) : PaneTree :=
  match tree with
  | leaf id => if id = target then replacement else leaf id
  | split axis first second ratio =>
      split axis (first.replacing target replacement) (second.replacing target replacement) ratio

def removing (target : PaneId) : PaneTree → Option PaneTree
  | leaf id => if id = target then none else some (leaf id)
  | split axis first second ratio =>
      match first.removing target, second.removing target with
      | some left, some right => some (split axis left right ratio)
      | some left, none => some left
      | none, some right => some right
      | none, none => none

def lastPane : PaneTree → PaneId
  | leaf id => id
  | split _ _ second _ => second.lastPane

def setRatio (leading : PaneId) (value : SplitRatio) : PaneTree → Bool × PaneTree
  | leaf id => (false, leaf id)
  | split axis first second ratio =>
      if first.lastPane = leading then (true, split axis first second value)
      else
        let changed := first.setRatio leading value
        if changed.1 then (true, split axis changed.2 second ratio)
        else
          let further := second.setRatio leading value
          (further.1, split axis changed.2 further.2 ratio)

def paneIds : PaneTree → List PaneId
  | leaf id => [id]
  | split _ first second _ => first.paneIds ++ second.paneIds

def containsLeaf (pane : PaneId) : PaneTree → Bool
  | leaf id => id = pane
  | split _ first second _ => first.containsLeaf pane || second.containsLeaf pane

variable {tree after : PaneTree} {pane : PaneId}

theorem containsLeaf_iff : tree.containsLeaf pane = true ↔ pane ∈ tree.paneIds := by
  induction tree with
  | leaf id => simp [containsLeaf, paneIds, eq_comm]
  | split axis first second ratio inFirst inSecond => simp [containsLeaf, paneIds, inFirst, inSecond]

theorem paneIds_eq_dropLast (tree : PaneTree) : tree.paneIds = tree.paneIds.dropLast ++ [tree.lastPane] := by
  induction tree with
  | leaf id => rfl
  | split axis first second ratio inFirst inSecond =>
      have some : second.paneIds ≠ [] := by
        rw [inSecond]
        simp
      rw [paneIds, List.dropLast_append_of_ne_nil some, List.append_assoc, lastPane, ← inSecond]

theorem lastPane_mem (tree : PaneTree) : tree.lastPane ∈ tree.paneIds := by
  rw [paneIds_eq_dropLast]
  simp

theorem paneIds_ne_nil (tree : PaneTree) : tree.paneIds ≠ [] := List.ne_nil_of_mem tree.lastPane_mem

theorem replacing_absent {replacement : PaneTree} (absent : pane ∉ tree.paneIds) :
    tree.replacing pane replacement = tree := by
  induction tree with
  | leaf id =>
      have different : id ≠ pane := fun same => absent (same ▸ List.mem_singleton_self id)
      rw [replacing, if_neg different]
  | split axis first second ratio inFirst inSecond =>
      rw [paneIds, List.mem_append, not_or] at absent
      rw [replacing, inFirst absent.1, inSecond absent.2]

theorem paneIds_replacing {replacement : PaneTree} {added : List PaneId} (distinct : tree.paneIds.Nodup)
    (member : pane ∈ tree.paneIds) (leaves : replacement.paneIds.Perm (pane :: added)) :
    (tree.replacing pane replacement).paneIds.Perm (added ++ tree.paneIds) := by
  induction tree with
  | leaf id =>
      cases List.mem_singleton.mp member
      rw [replacing, if_pos rfl]
      exact leaves.trans (List.perm_append_singleton pane added).symm
  | split axis first second ratio inFirst inSecond =>
      obtain ⟨front, back, apart⟩ := List.nodup_append.mp distinct
      rw [replacing, paneIds, paneIds]
      rcases List.mem_append.mp member with here | there
      · rw [replacing_absent fun also => apart pane here pane also rfl, ← List.append_assoc]
        exact (inFirst front here).append_right _
      · rw [replacing_absent fun also => apart pane also pane there rfl]
        exact ((inSecond back there).append_left _).trans (List.perm_append_comm_assoc _ _ _)

theorem paneIds_removing (target : PaneId) (tree : PaneTree) :
    ((tree.removing target).map paneIds).getD [] = tree.paneIds.filter (· ≠ target) := by
  induction tree with
  | leaf id => by_cases same : id = target <;> simp [removing, paneIds, same]
  | split axis first second ratio inFirst inSecond =>
      rw [paneIds, List.filter_append, ← inFirst, ← inSecond, removing]
      cases first.removing target <;> cases second.removing target <;> simp [paneIds]

theorem paneIds_perm_without (distinct : tree.paneIds.Nodup) (member : pane ∈ tree.paneIds) :
    tree.paneIds.Perm (pane :: tree.paneIds.filter (· ≠ pane)) := by
  have kept : tree.paneIds.filter (· != pane) = tree.paneIds.filter (· ≠ pane) := by
    apply List.filter_congr
    intro id _
    rw [Bool.eq_iff_iff, bne_iff_ne, decide_eq_true_eq]
  rw [← kept, ← distinct.erase_eq_filter]
  exact List.perm_cons_erase member

/-! Splits, by the leaves on both sides of them. -/

structure Cut where
  axis : SplitAxis
  ratio : SplitRatio
  before : List PaneId
  behind : List PaneId
  deriving Repr, DecidableEq

/-- The split with a pane left out; a split that has nothing else on one side is none without it. -/
def Cut.without (target : PaneId) (cut : Cut) : Option Cut :=
  let before := cut.before.filter (· ≠ target)
  let behind := cut.behind.filter (· ≠ target)
  if before = [] ∨ behind = [] then none else some { cut with before, behind }

def cuts : PaneTree → List Cut
  | leaf _ => []
  | split axis first second ratio => ⟨axis, ratio, first.paneIds, second.paneIds⟩ :: (first.cuts ++ second.cuts)

theorem cuts_removing (target : PaneId) (tree : PaneTree) :
    ((tree.removing target).map cuts).getD [] = tree.cuts.filterMap (Cut.without target) := by
  induction tree with
  | leaf id => by_cases same : id = target <;> simp [removing, cuts, same]
  | split axis first second ratio inFirst inSecond =>
      rw [cuts, List.filterMap_cons, List.filterMap_append, ← inFirst, ← inSecond, Cut.without, removing,
        ← paneIds_removing, ← paneIds_removing]
      cases first.removing target <;> cases second.removing target <;> simp [cuts, paneIds_ne_nil]

theorem Cut.without_twice (target : PaneId) (cut : Cut) :
    (cut.without target).bind (Cut.without target) = cut.without target := by
  rw [Cut.without]
  split
  next => rfl
  next both => simp only [Option.bind_some, Cut.without, List.filter_filter, Bool.and_self, if_neg both]

section Replacing

variable {target : PaneId} {replacement : PaneTree}

theorem filter_replacing (leaves : replacement.paneIds.filter (· ≠ target) = [pane]) (tree : PaneTree) :
    (tree.replacing pane replacement).paneIds.filter (· ≠ target) = tree.paneIds.filter (· ≠ target) := by
  induction tree with
  | leaf id =>
      by_cases same : id = pane
      · have kept : pane ∈ replacement.paneIds.filter (· ≠ target) := leaves ▸ List.mem_singleton_self pane
        rw [replacing, if_pos same, leaves, paneIds, same, List.filter_singleton, (List.mem_filter.mp kept).2]
        rfl
      · rw [replacing, if_neg same]
  | split axis first second ratio inFirst inSecond =>
      rw [replacing, paneIds, paneIds, List.filter_append, List.filter_append, inFirst, inSecond]

theorem cuts_replacing (leaves : replacement.paneIds.filter (· ≠ target) = [pane])
    (inner : replacement.cuts.filterMap (Cut.without target) = []) (tree : PaneTree) :
    (tree.replacing pane replacement).cuts.filterMap (Cut.without target) =
      tree.cuts.filterMap (Cut.without target) := by
  induction tree with
  | leaf id =>
      rw [replacing]
      split
      next => exact inner
      next => rfl
  | split axis first second ratio inFirst inSecond =>
      rw [replacing, cuts, cuts, List.filterMap_cons, List.filterMap_cons, List.filterMap_append,
        List.filterMap_append, inFirst, inSecond, Cut.without, Cut.without, filter_replacing leaves,
        filter_replacing leaves]

end Replacing

end PaneTree

/-! Dividers. The layout is computed in whatever arithmetic the host has. -/

structure PaneRect (F : Type) where
  x : F
  y : F
  width : F
  height : F
  deriving Repr, DecidableEq

structure PaneRegion (F : Type) where
  pane : PaneId
  rect : PaneRect F
  focused : Bool
  live : Bool
  zoomed : Bool
  occluded : Bool
  deriving Repr, DecidableEq

structure PaneDivider (F : Type) where
  leading : PaneId
  axis : SplitAxis
  area : PaneRect F
  line : PaneRect F
  ratio : SplitRatio
  deriving Repr, DecidableEq

section Layout

variable {F : Type} [Zero F] [One F] [Add F] [Sub F] [Mul F] (fraction : SplitRatio → F)

def PaneRect.full : PaneRect F := ⟨0, 0, 1, 1⟩

def PaneRect.divided (rect : PaneRect F) (axis : SplitAxis) (ratio : SplitRatio) : PaneRect F × PaneRect F :=
  match axis with
  | .right =>
      let width := rect.width * fraction ratio
      ({ rect with width }, { rect with x := rect.x + width, width := rect.width - width })
  | .down =>
      let height := rect.height * fraction ratio
      ({ rect with height }, { rect with y := rect.y + height, height := rect.height - height })

def dividerLine (axis : SplitAxis) (rect : PaneRect F) : PaneRect F :=
  match axis with
  | .right => { rect with width := 0 }
  | .down => { rect with height := 0 }

def collect (rect : PaneRect F) : PaneTree → List (PaneRegion F) × List (PaneDivider F)
  | .leaf pane => ([⟨pane, rect, false, false, false, false⟩], [])
  | .split axis first second ratio =>
      let parts := rect.divided fraction axis ratio
      let before := collect parts.1 first
      let behind := collect parts.2 second
      (before.1 ++ behind.1,
        ⟨first.lastPane, axis, rect, dividerLine axis parts.2, ratio⟩ :: (before.2 ++ behind.2))

def dividers (tree : PaneTree) : List (PaneDivider F) := (collect fraction .full tree).2

end Layout

namespace PaneTree

def splits : PaneTree → List (PaneId × SplitAxis × SplitRatio)
  | leaf _ => []
  | split axis first second ratio => (first.lastPane, axis, ratio) :: (first.splits ++ second.splits)

/-- The tree with other ratios, each given by the leaf in front of its divider. -/
def mapRatios (change : PaneId → SplitRatio → SplitRatio) : PaneTree → PaneTree
  | leaf id => leaf id
  | split axis first second ratio =>
      split axis (first.mapRatios change) (second.mapRatios change) (change first.lastPane ratio)

end PaneTree

section Ratios

open PaneTree

variable {F : Type} [Zero F] [Add F] [Sub F] [Mul F] (fraction : SplitRatio → F) {tree : PaneTree} {pane : PaneId}
  {value : SplitRatio}

theorem collect_splits (rect : PaneRect F) (tree : PaneTree) :
    (collect fraction rect tree).2.map (fun divider => (divider.leading, divider.axis, divider.ratio)) =
      tree.splits := by
  induction tree generalizing rect with
  | leaf id => rfl
  | split axis first second ratio inFirst inSecond => simp [collect, splits, inFirst, inSecond]

theorem leading_eq [One F] (tree : PaneTree) :
    (dividers fraction tree).map PaneDivider.leading = tree.splits.map Prod.fst := by
  rw [← collect_splits fraction .full tree, List.map_map]
  rfl

theorem splits_perm (tree : PaneTree) : (tree.splits.map Prod.fst).Perm tree.paneIds.dropLast := by
  induction tree with
  | leaf id => exact .nil
  | split axis first second ratio inFirst inSecond =>
      have some : second.paneIds ≠ [] := List.ne_nil_of_mem second.lastPane_mem
      rw [paneIds, List.dropLast_append_of_ne_nil some, splits, List.map_cons, List.map_append]
      rw [first.paneIds_eq_dropLast, List.append_assoc]
      exact ((inFirst.append inSecond).cons _).trans List.perm_middle.symm

theorem mem_splits (tree : PaneTree) : pane ∈ tree.splits.map Prod.fst ↔ pane ∈ tree.paneIds.dropLast :=
  (splits_perm tree).mem_iff

theorem mem_paneIds_of_splits (led : pane ∈ tree.splits.map Prod.fst) : pane ∈ tree.paneIds :=
  (List.dropLast_sublist _).mem ((mem_splits tree).mp led)

theorem lastPane_notMem_splits (distinct : tree.paneIds.Nodup) : tree.lastPane ∉ tree.splits.map Prod.fst := by
  rw [mem_splits]
  rw [paneIds_eq_dropLast, List.nodup_append] at distinct
  exact fun inside => distinct.2.2 _ inside _ List.mem_cons_self rfl

theorem lastPane_mapRatios (change : PaneId → SplitRatio → SplitRatio) (tree : PaneTree) :
    (tree.mapRatios change).lastPane = tree.lastPane := by
  induction tree with
  | leaf id => rfl
  | split axis first second ratio inFirst inSecond => exact inSecond

theorem splits_mapRatios (change : PaneId → SplitRatio → SplitRatio) (tree : PaneTree) :
    (tree.mapRatios change).splits =
      tree.splits.map fun entry => (entry.1, entry.2.1, change entry.1 entry.2.2) := by
  induction tree with
  | leaf id => rfl
  | split axis first second ratio inFirst inSecond =>
      simp [mapRatios, splits, inFirst, inSecond, lastPane_mapRatios]

def setTo (pane : PaneId) (value : SplitRatio) (leading : PaneId) (ratio : SplitRatio) : SplitRatio :=
  if leading = pane then value else ratio

theorem mapRatios_absent (absent : pane ∉ tree.splits.map Prod.fst) : tree.mapRatios (setTo pane value) = tree := by
  induction tree with
  | leaf id => rfl
  | split axis first second ratio inFirst inSecond =>
      simp only [splits, List.map_cons, List.map_append, List.mem_cons, List.mem_append, not_or] at absent
      rw [mapRatios, inFirst absent.2.1, inSecond absent.2.2, setTo, if_neg (Ne.symm absent.1)]

theorem setRatio_eq (distinct : tree.paneIds.Nodup) :
    tree.setRatio pane value =
      (decide (pane ∈ tree.splits.map Prod.fst), tree.mapRatios (setTo pane value)) := by
  induction tree with
  | leaf id => rfl
  | split axis first second ratio inFirst inSecond =>
      rw [paneIds, List.nodup_append] at distinct
      obtain ⟨one, two, apart⟩ := distinct
      have notBoth : pane ∈ first.paneIds → pane ∉ second.splits.map Prod.fst := fun here there =>
        apart pane here pane (mem_paneIds_of_splits there) rfl
      rw [setRatio, inFirst one, inSecond two]
      by_cases leads : first.lastPane = pane
      · subst leads
        rw [if_pos rfl, mapRatios, mapRatios_absent (lastPane_notMem_splits one),
          mapRatios_absent (notBoth first.lastPane_mem), setTo, if_pos rfl]
        simp [splits]
      · by_cases inside : pane ∈ first.splits.map Prod.fst
        · have elsewhere := notBoth (mem_paneIds_of_splits inside)
          simp only [leads, inside, if_false, decide_true, if_true, mapRatios, mapRatios_absent elsewhere, setTo]
          simp [splits, inside]
        · simp only [leads, inside, if_false, decide_false, mapRatios, setTo]
          simp only [splits, List.map_cons, List.map_append, List.mem_cons, List.mem_append, Ne.symm leads, inside,
            false_or]
          rfl

/-- The dividers are led by the leaves but the last, each once, and a leaf sets the ratio of its divider. -/
theorem setRatio_dividers [One F] (tree : PaneTree) (distinct : tree.paneIds.Nodup) :
    ((dividers fraction tree).map PaneDivider.leading).Perm tree.paneIds.dropLast ∧
    ∀ pane value,
      ((tree.setRatio pane value).1 = true ↔ pane ∈ (dividers fraction tree).map PaneDivider.leading) ∧
      ((tree.setRatio pane value).1 = false → (tree.setRatio pane value).2 = tree) ∧
      (tree.setRatio pane value).2 = tree.mapRatios (fun leading ratio => if leading = pane then value else ratio) ∧
      (dividers fraction (tree.setRatio pane value).2).map
          (fun divider => (divider.leading, divider.axis, divider.ratio)) =
        (dividers fraction tree).map fun divider =>
          (divider.leading, divider.axis, if divider.leading = pane then value else divider.ratio) := by
  refine ⟨leading_eq fraction tree ▸ splits_perm tree, fun pane value => ?_⟩
  rw [setRatio_eq distinct, leading_eq]
  refine ⟨decide_eq_true_iff, fun absent => mapRatios_absent (of_decide_eq_false absent), rfl, ?_⟩
  rw [dividers, collect_splits, splits_mapRatios, ← collect_splits fraction .full tree, List.map_map]
  rfl

end Ratios

def columns : PaneTree := .split .right (.split .down (.leaf 1) (.leaf 2) .half) (.leaf 3) .half

theorem setRatio_dividers_columns :
    (columns.setRatio 2 ⟨3000, by decide, by decide⟩).1 = true ↔
      2 ∈ (@dividers Int ⟨0⟩ ⟨1⟩ _ _ _ (fun ratio => (ratio.basisPoints : Int)) columns).map PaneDivider.leading :=
  ((@setRatio_dividers Int ⟨0⟩ _ _ _ (fun ratio => (ratio.basisPoints : Int)) ⟨1⟩ columns (by decide)).2 2 _).1

end Seyal.Client
