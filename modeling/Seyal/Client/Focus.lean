import Mathlib.Algebra.Order.Ring.Abs
import Mathlib.Data.List.Pairwise
import Mathlib.Data.Prod.Lex
import Seyal.Client.Geometry

namespace Seyal.Client

open Program Exact

/-! Directional focus: the rectangles of the leaves, and the neighbor of one of them. -/

structure ExactRect where
  x1 : Exact
  y1 : Exact
  x2 : Exact
  y2 : Exact

open ExactRect

namespace ExactRect

def full : ExactRect := ⟨.zero, .zero, .one, .one⟩

def divided (rect : ExactRect) (axis : SplitAxis) (ratio : SplitRatio) : ExactRect × ExactRect :=
  match axis with
  | .right =>
      let cut := splitPoint rect.x1 rect.x2 ratio
      ({ rect with x2 := cut }, { rect with x1 := cut })
  | .down =>
      let cut := splitPoint rect.y1 rect.y2 ratio
      ({ rect with y2 := cut }, { rect with y1 := cut })

end ExactRect

inductive FocusDirection where
  | left
  | right
  | up
  | down
  deriving Repr, DecidableEq

def collectLeaves (rect : ExactRect) : PaneTree → List (PaneId × ExactRect)
  | .leaf id => [(id, rect)]
  | .split axis first second ratio =>
      collectLeaves (rect.divided axis ratio).1 first ++ collectLeaves (rect.divided axis ratio).2 second

def leafRects (tree : PaneTree) : List (PaneId × ExactRect) := collectLeaves .full tree

def hasPositiveOverlap (aStart aEnd bStart bEnd : Exact) : Bool :=
  let start := if aStart.cmp bStart = .gt then aStart else bStart
  let stop := if aEnd.cmp bEnd = .lt then aEnd else bEnd
  start.cmp stop = .lt

def orthogonalOverlapX (a b : ExactRect) : Bool := hasPositiveOverlap a.x1 a.x2 b.x1 b.x2

def orthogonalOverlapY (a b : ExactRect) : Bool := hasPositiveOverlap a.y1 a.y2 b.y1 b.y2

def sharesEdge (focused candidate : ExactRect) : FocusDirection → Bool
  | .right => candidate.x1.cmp focused.x2 = .eq && orthogonalOverlapY focused candidate
  | .left => candidate.x2.cmp focused.x1 = .eq && orthogonalOverlapY focused candidate
  | .down => candidate.y1.cmp focused.y2 = .eq && orthogonalOverlapX focused candidate
  | .up => candidate.y2.cmp focused.y1 = .eq && orthogonalOverlapX focused candidate

def orthogonalCenterDistance (focused candidate : ExactRect) : FocusDirection → Exact
  | .left | .right => (focused.y1.add focused.y2).absDiff (candidate.y1.add candidate.y2)
  | .up | .down => (focused.x1.add focused.x2).absDiff (candidate.x1.add candidate.x2)

abbrev Best := Option (PaneId × Exact × Nat)

section Choice

variable (focused : PaneId) (focusedRect : ExactRect) (direction : FocusDirection)

/-- A leaf takes the lead unless it is farther than the best one, or as far and not in front of it. -/
def considerLeaf (best : Best) (entry : (PaneId × ExactRect) × Nat) : Best :=
  if entry.1.1 = focused || !sharesEdge focusedRect entry.1.2 direction then best
  else
    let distance := orthogonalCenterDistance focusedRect entry.1.2 direction
    match best with
    | some (_, bestDistance, bestIndex) =>
        if distance.cmp bestDistance = .gt || (distance.cmp bestDistance = .eq && bestIndex ≤ entry.2) then best
        else some (entry.1.1, distance, entry.2)
    | none => some (entry.1.1, distance, entry.2)

end Choice

def chooseNeighbor (leaves : List (PaneId × ExactRect)) (focused : PaneId) (direction : FocusDirection) :
    Option PaneId := do
  let entry ← leaves.find? fun entry => entry.1 = focused
  let best ← leaves.zipIdx.foldl (considerLeaf focused entry.2 direction) none
  return best.1

def ExactRect.box (rect : ExactRect) : Box SplitAxis ℚ
  | .right => ⟨rect.x1.toRat, rect.x2.toRat⟩
  | .down => ⟨rect.y1.toRat, rect.y2.toRat⟩

def unitSquare : Box SplitAxis ℚ := fun _ => ⟨0, 1⟩

theorem box_full : full.box = unitSquare := by
  funext axis
  cases axis <;> simp [box, full, unitSquare, toRat_zero, toRat_one]

def cutOf (span : Span ℚ) (ratio : SplitRatio) : ℚ := span.low + (span.high - span.low) * ratio.basisPoints / 10000

theorem cutOf_between {span : Span ℚ} (ratio : SplitRatio) (positive : span.low < span.high) :
    span.low < cutOf span ratio ∧ cutOf span ratio < span.high := by
  have least : (1000 : ℚ) ≤ ratio.basisPoints := by exact_mod_cast ratio.atLeast
  have most : (ratio.basisPoints : ℚ) ≤ 9000 := by exact_mod_cast ratio.atMost
  have wide : 0 < span.high - span.low := by linarith
  constructor
  · have share : 0 < (span.high - span.low) * ratio.basisPoints / 10000 :=
      div_pos (mul_pos wide (by linarith)) (by norm_num)
    rw [cutOf]
    linarith
  · have share : (span.high - span.low) * ratio.basisPoints ≤ (span.high - span.low) * 9000 :=
      mul_le_mul_of_nonneg_left most wide.le
    rw [cutOf]
    linarith

theorem box_divided {rect : ExactRect} (axis : SplitAxis) (ratio : SplitRatio) (positive : rect.box.Positive) :
    (rect.divided axis ratio).1.box = rect.box.below axis (cutOf (rect.box axis) ratio) ∧
    (rect.divided axis ratio).2.box = rect.box.above axis (cutOf (rect.box axis) ratio) := by
  have ordered := (positive axis).le
  cases axis with
  | right | down =>
      have cut := toRat_splitPoint ratio ordered
      constructor <;> funext across <;> cases across <;>
        simp_all [divided, box, Box.below, Box.above, cutOf, Function.update]

theorem divided_positive {rect : ExactRect} (axis : SplitAxis) (ratio : SplitRatio) (positive : rect.box.Positive) :
    (rect.divided axis ratio).1.box.Positive ∧ (rect.divided axis ratio).2.box.Positive := by
  obtain ⟨front, back⟩ := box_divided axis ratio positive
  obtain ⟨low, high⟩ := cutOf_between ratio (positive axis)
  rw [front, back]
  exact ⟨Box.below_positive positive low, Box.above_positive positive high⟩

def boxed (leaf : PaneId × ExactRect) : PaneId × Box SplitAxis ℚ := (leaf.1, leaf.2.box)

theorem tiling_collectLeaves {rect : ExactRect} (tree : PaneTree) (positive : rect.box.Positive) :
    Tiling rect.box ((collectLeaves rect tree).map boxed) := by
  induction tree generalizing rect with
  | leaf id => exact .whole id rect.box
  | split axis first second ratio inFirst inSecond =>
      obtain ⟨front, back⟩ := box_divided axis ratio positive
      obtain ⟨low, high⟩ := cutOf_between ratio (positive axis)
      obtain ⟨positiveFront, positiveBack⟩ := divided_positive axis ratio positive
      rw [collectLeaves, List.map_append]
      apply Tiling.cut axis (cutOf (rect.box axis) ratio) low high
      · rw [← front]
        exact inFirst positiveFront
      · rw [← back]
        exact inSecond positiveBack

theorem unitSquare_positive : unitSquare.Positive := fun _ => by norm_num [unitSquare]

theorem tiling_leafRects (tree : PaneTree) :
    Tiling unitSquare ((leafRects tree).map boxed) := by
  rw [← box_full]
  exact tiling_collectLeaves tree (box_full ▸ unitSquare_positive)

theorem collectLeaves_ids (rect : ExactRect) (tree : PaneTree) :
    (collectLeaves rect tree).map Prod.fst = tree.paneIds := by
  induction tree generalizing rect with
  | leaf id => rfl
  | split axis first second ratio inFirst inSecond =>
      simp only [collectLeaves, List.map_append, inFirst, inSecond, PaneTree.paneIds]

namespace FocusDirection

def axis : FocusDirection → SplitAxis
  | .left | .right => .right
  | .up | .down => .down

def across : FocusDirection → SplitAxis
  | .left | .right => .down
  | .up | .down => .right

def side : FocusDirection → Side
  | .left | .up => .low
  | .right | .down => .high

theorem ne_axis {direction : FocusDirection} {other : SplitAxis} : other ≠ direction.axis ↔ other = direction.across := by
  cases direction <;> cases other <;> simp [axis, across]

end FocusDirection

/-- The candidate begins where the focused box ends, and they have a segment of the edge in common. -/
def Adjacent (focused candidate : Box SplitAxis ℚ) (direction : FocusDirection) : Prop :=
  (candidate direction.axis).at direction.side.opposite = (focused direction.axis).at direction.side ∧
    (focused direction.across).Meets (candidate direction.across)

def centerDistance (focused candidate : Box SplitAxis ℚ) (direction : FocusDirection) : ℚ :=
  |((focused direction.across).low + (focused direction.across).high) / 2 -
    ((candidate direction.across).low + (candidate direction.across).high) / 2|

theorem not_adjacent_self {box : Box SplitAxis ℚ} {direction : FocusDirection} (positive : box.Positive) :
    ¬ Adjacent box box direction := by
  intro ⟨same, _⟩
  have wide := positive direction.axis
  cases side : direction.side with
  | low =>
      rw [side] at same
      exact wide.ne' same
  | high =>
      rw [side] at same
      exact wide.ne same

theorem hasPositiveOverlap_iff {aStart aEnd bStart bEnd : Exact} :
    hasPositiveOverlap aStart aEnd bStart bEnd = true ↔
      (⟨aStart.toRat, aEnd.toRat⟩ : Span ℚ).Meets ⟨bStart.toRat, bEnd.toRat⟩ := by
  have start : (if aStart.cmp bStart = .gt then aStart else bStart).toRat = max aStart.toRat bStart.toRat := by
    split
    next above => exact (max_eq_left (cmp_eq_gt.mp above).le).symm
    next notAbove => exact (max_eq_right (not_lt.mp fun above => notAbove (cmp_eq_gt.mpr above))).symm
  have stop : (if aEnd.cmp bEnd = .lt then aEnd else bEnd).toRat = min aEnd.toRat bEnd.toRat := by
    split
    next below => exact (min_eq_left (cmp_eq_lt.mp below).le).symm
    next notBelow => exact (min_eq_right (not_lt.mp fun below => notBelow (cmp_eq_lt.mpr below))).symm
  rw [hasPositiveOverlap, decide_eq_true_eq, cmp_eq_lt, start, stop, Span.Meets]

theorem sharesEdge_iff {focused candidate : ExactRect} {direction : FocusDirection} :
    sharesEdge focused candidate direction = true ↔ Adjacent focused.box candidate.box direction := by
  cases direction <;>
    simp [sharesEdge, orthogonalOverlapX, orthogonalOverlapY, hasPositiveOverlap_iff, cmp_eq_eq, Adjacent,
      box, FocusDirection.axis, FocusDirection.across, FocusDirection.side, Side.opposite, Span.at]

theorem toRat_orthogonalCenterDistance (focused candidate : ExactRect) (direction : FocusDirection) :
    (orthogonalCenterDistance focused candidate direction).toRat =
      2 * centerDistance focused.box candidate.box direction := by
  have twice : ∀ a b : ℚ, |a - b| = 2 * |a / 2 - b / 2| := by
    intro a b
    rw [← abs_of_pos (two_pos : (0 : ℚ) < 2), ← abs_mul, abs_of_pos (two_pos : (0 : ℚ) < 2)]
    congr 1
    ring
  rw [centerDistance, ← twice]
  cases direction <;>
    simp only [orthogonalCenterDistance, toRat_absDiff, toRat_add, box, FocusDirection.across]

section Neighbors

variable (focused : PaneId × ExactRect) (direction : FocusDirection)

def Candidate (leaf : PaneId × ExactRect) : Prop :=
  leaf.1 ≠ focused.1 ∧ Adjacent focused.2.box leaf.2.box direction

def nearness (leaf : PaneId × ExactRect) (index : Nat) : ℚ ×ₗ Nat :=
  toLex (centerDistance focused.2.box leaf.2.box direction, index)

/-- What the loop knows after the leaves it has seen. -/
def Leads (seen : List ((PaneId × ExactRect) × Nat)) : Best → Prop
  | none => ∀ entry ∈ seen, ¬ Candidate focused direction entry.1
  | some (id, distance, index) => ∃ rect, ((id, rect), index) ∈ seen ∧ Candidate focused direction (id, rect) ∧
      distance = orthogonalCenterDistance focused.2 rect direction ∧
      ∀ entry ∈ seen, Candidate focused direction entry.1 →
        nearness focused direction (id, rect) index ≤ nearness focused direction entry.1 entry.2

variable {focused direction} {seen rest : List ((PaneId × ExactRect) × Nat)} {best : Best}

theorem nearness_le_iff {first second : PaneId × ExactRect} {index place : Nat} :
    nearness focused direction first index ≤ nearness focused direction second place ↔
      centerDistance focused.2.box first.2.box direction < centerDistance focused.2.box second.2.box direction ∨
      centerDistance focused.2.box first.2.box direction = centerDistance focused.2.box second.2.box direction ∧
        index ≤ place :=
  Prod.Lex.toLex_le_toLex

theorem notNearer_iff {first second : PaneId × ExactRect} {index place : Nat} :
    ((orthogonalCenterDistance focused.2 second.2 direction).cmp
          (orthogonalCenterDistance focused.2 first.2 direction) = .gt ||
        ((orthogonalCenterDistance focused.2 second.2 direction).cmp
          (orthogonalCenterDistance focused.2 first.2 direction) = .eq && index ≤ place)) = true ↔
      nearness focused direction first index ≤ nearness focused direction second place := by
  simp only [Bool.or_eq_true, Bool.and_eq_true, decide_eq_true_eq, cmp_eq_gt, cmp_eq_eq,
    toRat_orthogonalCenterDistance, nearness_le_iff, mul_lt_mul_iff_right₀ (two_pos : (0 : ℚ) < 2),
    mul_right_inj' (two_ne_zero : (2 : ℚ) ≠ 0)]
  rw [eq_comm]

theorem candidate_iff {leaf : PaneId × ExactRect} :
    (leaf.1 = focused.1 || !sharesEdge focused.2 leaf.2 direction) = false ↔ Candidate focused direction leaf := by
  simp [Candidate, sharesEdge_iff]

theorem leads_considerLeaf (leads : Leads focused direction seen best) (entry : (PaneId × ExactRect) × Nat) :
    Leads focused direction (seen ++ [entry]) (considerLeaf focused.1 focused.2 direction best entry) := by
  by_cases candidate : Candidate focused direction entry.1
  · have listed : entry ∈ seen ++ [entry] := List.mem_append_right _ (List.mem_singleton_self _)
    rw [considerLeaf, if_neg (by rw [candidate_iff.mpr candidate]; decide)]
    cases best with
    | none =>
        exact ⟨entry.1.2, listed, candidate, rfl, List.forall_mem_append.mpr
          ⟨fun other before another => absurd another (leads other before), List.forall_mem_singleton.mpr fun _ => le_rfl⟩⟩
    | some lead =>
        obtain ⟨id, distance, index⟩ := lead
        obtain ⟨rect, member, leading, rfl, least⟩ := leads
        have compared := @notNearer_iff focused direction (id, rect) entry.1 index entry.2
        simp only
        split
        next kept =>
          exact ⟨rect, List.mem_append_left _ member, leading, rfl, List.forall_mem_append.mpr
            ⟨least, List.forall_mem_singleton.mpr fun _ => compared.mp kept⟩⟩
        next taken =>
          have nearer := (le_total _ _).resolve_left fun behind => taken (compared.mpr behind)
          exact ⟨entry.1.2, listed, candidate, rfl, List.forall_mem_append.mpr
            ⟨fun other before another => nearer.trans (least other before another),
              List.forall_mem_singleton.mpr fun _ => le_rfl⟩⟩
  · have skipped : (entry.1.1 = focused.1 || !sharesEdge focused.2 entry.1.2 direction) = true :=
      Bool.eq_true_of_not_eq_false fun passes => candidate (candidate_iff.mp passes)
    rw [considerLeaf, if_pos skipped]
    cases best with
    | none => exact List.forall_mem_append.mpr ⟨leads, List.forall_mem_singleton.mpr candidate⟩
    | some lead =>
        obtain ⟨rect, member, leading, same, least⟩ := leads
        exact ⟨rect, List.mem_append_left _ member, leading, same, List.forall_mem_append.mpr
          ⟨least, List.forall_mem_singleton.mpr fun another => absurd another candidate⟩⟩

theorem leads_foldl (leads : Leads focused direction seen best) :
    Leads focused direction (seen ++ rest) (rest.foldl (considerLeaf focused.1 focused.2 direction) best) := by
  induction rest generalizing seen best with
  | nil => rwa [List.append_nil]
  | cons entry rest ih =>
      rw [List.append_cons]
      exact ih (leads_considerLeaf leads entry)

/-- The leaf next to the focused one: they share a segment of the edge, and no other leaf that does is nearer, or as
near and in front of it. -/
def Nearest (leaves : List (PaneId × ExactRect)) (focused : PaneId × ExactRect) (direction : FocusDirection)
    (chosen : PaneId) : Prop :=
  ∃ (index : Nat) (rect : ExactRect), leaves[index]? = some (chosen, rect) ∧ chosen ≠ focused.1 ∧
    Adjacent focused.2.box rect.box direction ∧
    ∀ (place : Nat) (other : PaneId × ExactRect), leaves[place]? = some other →
      Adjacent focused.2.box other.2.box direction →
      centerDistance focused.2.box rect.box direction < centerDistance focused.2.box other.2.box direction ∨
      centerDistance focused.2.box rect.box direction = centerDistance focused.2.box other.2.box direction ∧
        index ≤ place

variable {leaves : List (PaneId × ExactRect)}

theorem find_focused (distinct : (leaves.map Prod.fst).Nodup) (member : focused ∈ leaves) :
    leaves.find? (fun entry => entry.1 = focused.1) = some focused := by
  induction leaves with
  | nil => cases member
  | cons leaf leaves ih =>
      obtain ⟨absent, distinct⟩ := List.nodup_cons.mp distinct
      rcases List.mem_cons.mp member with same | later
      · rw [List.find?_cons_of_pos (by simp [same]), same]
      · have different : leaf.1 ≠ focused.1 := fun same => absent (same ▸ List.mem_map_of_mem later)
        rw [List.find?_cons_of_neg (by simpa using different)]
        exact ih distinct later

theorem chooseNeighbor_eq (direction : FocusDirection) (distinct : (leaves.map Prod.fst).Nodup)
    (member : focused ∈ leaves) :
    ∃ best, Leads focused direction leaves.zipIdx best ∧
      chooseNeighbor leaves focused.1 direction = best.map fun lead => lead.1 := by
  refine ⟨leaves.zipIdx.foldl (considerLeaf focused.1 focused.2 direction) none, ?_, ?_⟩
  · rw [← List.nil_append leaves.zipIdx]
    exact leads_foldl (List.forall_mem_nil _)
  · rw [chooseNeighbor, find_focused distinct member, Option.map_eq_bind]
    rfl

theorem chooseNeighbor_eq_none (distinct : (leaves.map Prod.fst).Nodup) (member : focused ∈ leaves) :
    chooseNeighbor leaves focused.1 direction = none ↔ ∀ leaf ∈ leaves, ¬ Candidate focused direction leaf := by
  obtain ⟨best, leads, chosen⟩ := chooseNeighbor_eq direction distinct member
  rw [chosen, Option.map_eq_none_iff]
  constructor
  · intro none leaf inside
    subst none
    obtain ⟨index, there⟩ := List.mem_iff_getElem?.mp inside
    exact leads (leaf, index) (List.mk_mem_zipIdx_iff_getElem?.mpr there)
  · intro nothing
    cases best with
    | none => rfl
    | some lead =>
        obtain ⟨rect, inside, candidate, -⟩ := leads
        have there := List.mem_of_getElem? (List.mk_mem_zipIdx_iff_getElem?.mp inside)
        exact absurd candidate (nothing _ there)

theorem chooseNeighbor_only {other : PaneId × ExactRect} (distinct : (leaves.map Prod.fst).Nodup)
    (member : focused ∈ leaves) (another : other ∈ leaves) (candidate : Candidate focused direction other)
    (only : ∀ leaf ∈ leaves, Candidate focused direction leaf → leaf = other) :
    chooseNeighbor leaves focused.1 direction = some other.1 := by
  obtain ⟨best, leads, chosen⟩ := chooseNeighbor_eq direction distinct member
  cases best with
  | none => exact absurd candidate ((chooseNeighbor_eq_none distinct member).mp chosen other another)
  | some lead =>
      obtain ⟨rect, inside, leading, -⟩ := leads
      have there := List.mem_of_getElem? (List.mk_mem_zipIdx_iff_getElem?.mp inside)
      rw [chosen, ← only _ there leading]
      rfl

theorem chooseNeighbor_nearest {chosen : PaneId} (distinct : (leaves.map Prod.fst).Nodup) (member : focused ∈ leaves)
    (positive : focused.2.box.Positive) (chooses : chooseNeighbor leaves focused.1 direction = some chosen) :
    Nearest leaves focused direction chosen := by
  obtain ⟨best, leads, same⟩ := chooseNeighbor_eq direction distinct member
  rw [same, Option.map_eq_some_iff] at chooses
  obtain ⟨⟨id, distance, index⟩, rfl, rfl⟩ := chooses
  obtain ⟨rect, inside, candidate, -, least⟩ := leads
  refine ⟨index, rect, List.mk_mem_zipIdx_iff_getElem?.mp inside, candidate.1, candidate.2, ?_⟩
  intro place other there adjacent
  have different : other.1 ≠ focused.1 := by
    intro same
    cases List.inj_on_of_nodup_map distinct (List.mem_of_getElem? there) member same
    exact not_adjacent_self positive adjacent
  have listed : (other, place) ∈ leaves.zipIdx := List.mk_mem_zipIdx_iff_getElem?.mpr there
  have behind := least (other, place) listed ⟨different, adjacent⟩
  rwa [nearness_le_iff] at behind

end Neighbors

section Tab

variable {tree : PaneTree} {leaf : PaneId × ExactRect}

theorem leafRects_distinct (distinct : tree.paneIds.Nodup) : ((leafRects tree).map Prod.fst).Nodup := by
  rwa [leafRects, collectLeaves_ids]

theorem leafRects_positive (member : leaf ∈ leafRects tree) : leaf.2.box.Positive :=
  (tiling_leafRects tree).positive unitSquare_positive (List.mem_map_of_mem member)

theorem leafRects_apart :
    (leafRects tree).Pairwise fun first second => ∃ axis, (first.2.box axis).high ≤ (second.2.box axis).low :=
  List.pairwise_map.mp (tiling_leafRects tree).apart

theorem leafRects_covers (point : SplitAxis → ℚ) :
    unitSquare.Contains point ↔ ∃ leaf ∈ leafRects tree, leaf.2.box.Contains point := by
  rw [(tiling_leafRects tree).covers point]
  simp only [List.mem_map, exists_exists_and_eq_and, boxed]

def Apart (first second : PaneId × ExactRect) : Prop := ∃ axis, ¬ (first.2.box axis).Meets (second.2.box axis)

instance : Std.Symm Apart where
  symm _ _ := fun ⟨axis, misses⟩ => ⟨axis, fun meets => misses meets.symm⟩

theorem leafRects_same {other : PaneId × ExactRect} (member : leaf ∈ leafRects tree) (another : other ∈ leafRects tree)
    (meets : ∀ axis, (leaf.2.box axis).Meets (other.2.box axis)) : leaf = other := by
  by_contra different
  have apart : (leafRects tree).Pairwise Apart := leafRects_apart.imp fun ⟨axis, before⟩ =>
    ⟨axis, fun meets => meets.not_le before⟩
  obtain ⟨axis, misses⟩ := apart.forall member another different
  exact misses (meets axis)

theorem leafRects_edge (direction : FocusDirection) (distinct : tree.paneIds.Nodup) (member : leaf ∈ leafRects tree) :
    (∀ other ∈ leafRects tree, ¬ Candidate leaf direction other) ↔
      (leaf.2.box direction.axis).at direction.side = (unitSquare direction.axis).at direction.side := by
  have tiling := tiling_leafRects tree
  have listed := List.mem_map_of_mem (f := boxed) member
  constructor
  · intro nothing
    refine (tiling.neighbors unitSquare_positive direction.axis direction.side listed).resolve_right ?_
    rintro ⟨next, inside, shares, overlaps⟩
    obtain ⟨other, there, rfl⟩ := List.mem_map.mp inside
    have adjacent : Adjacent leaf.2.box other.2.box direction :=
      ⟨shares, overlaps _ (FocusDirection.ne_axis.mpr rfl)⟩
    refine nothing other there ⟨fun same => ?_, adjacent⟩
    cases List.inj_on_of_nodup_map (leafRects_distinct distinct) there member same
    exact not_adjacent_self (leafRects_positive member) adjacent
  · intro edge other there candidate
    have inside := List.mem_map_of_mem (f := boxed) there
    exact tiling.nothing_beyond unitSquare_positive direction.axis direction.side inside (candidate.2.1.trans edge)

theorem directional_focus (distinct : tree.paneIds.Nodup) :
    (leafRects tree).map Prod.fst = tree.paneIds ∧
    (∀ leaf ∈ leafRects tree, leaf.2.box.Positive) ∧
    ((leafRects tree).Pairwise fun first second =>
      ∀ point, ¬ (first.2.box.Surrounds point ∧ second.2.box.Surrounds point)) ∧
    (∀ point, unitSquare.Contains point ↔ ∃ leaf ∈ leafRects tree, leaf.2.box.Contains point) ∧
    ∀ leaf ∈ leafRects tree, ∀ direction,
      (chooseNeighbor (leafRects tree) leaf.1 direction = none ↔
        (leaf.2.box direction.axis).at direction.side = (unitSquare direction.axis).at direction.side) ∧
      ∀ chosen, chooseNeighbor (leafRects tree) leaf.1 direction = some chosen →
        Nearest (leafRects tree) leaf direction chosen := by
  have names := leafRects_distinct distinct
  refine ⟨collectLeaves_ids _ _, fun _ => leafRects_positive, ?_, leafRects_covers, ?_⟩
  · exact leafRects_apart.imp fun ⟨axis, apart⟩ point ⟨inFirst, inSecond⟩ =>
      ((inFirst axis).2.trans_le apart).asymm (inSecond axis).1
  · intro leaf member direction
    constructor
    · rw [chooseNeighbor_eq_none names member, leafRects_edge direction distinct member]
    · intro chosen chooses
      exact chooseNeighbor_nearest names member (leafRects_positive member) chooses

/-- Both panes of the first column are as near to the other one. -/
theorem directional_focus_columns : chooseNeighbor (leafRects columns) 3 .left = some 1 ∧
    ∀ leaf ∈ leafRects columns, leaf.1 = 3 → Nearest (leafRects columns) leaf .left 1 := by
  have chosen : chooseNeighbor (leafRects columns) 3 .left = some 1 := by decide +kernel
  have distinct : columns.paneIds.Nodup := by decide
  obtain ⟨-, -, -, -, focus⟩ := directional_focus distinct
  exact ⟨chosen, fun leaf member last => (focus leaf member .left).2 1 (last ▸ chosen)⟩

end Tab

end Seyal.Client
