import Mathlib.Algebra.Order.BigOperators.Group.List
import Mathlib.Algebra.Order.Ring.Nat

namespace Seyal.Program

/-! Boxes in any number of dimensions, cut again and again across one axis. -/

structure Span (K : Type) where
  low : K
  high : K

inductive Side where
  | low
  | high
  deriving Repr, DecidableEq

def Side.opposite : Side → Side
  | .low => .high
  | .high => .low

def Span.at {K : Type} (span : Span K) : Side → K
  | .low => span.low
  | .high => span.high

abbrev Box (ι K : Type) := ι → Span K

section Boxes

variable {ι K α : Type} {axis other : ι} {cut : K}

namespace Box

section Cuts

variable [DecidableEq ι] {box : Box ι K}

def below (box : Box ι K) (axis : ι) (cut : K) : Box ι K := Function.update box axis ⟨(box axis).low, cut⟩

def above (box : Box ι K) (axis : ι) (cut : K) : Box ι K := Function.update box axis ⟨cut, (box axis).high⟩

@[simp] theorem below_self : (box.below axis cut) axis = ⟨(box axis).low, cut⟩ := Function.update_self ..

@[simp] theorem above_self : (box.above axis cut) axis = ⟨cut, (box axis).high⟩ := Function.update_self ..

theorem below_of_ne (different : other ≠ axis) : (box.below axis cut) other = box other :=
  Function.update_of_ne different ..

theorem above_of_ne (different : other ≠ axis) : (box.above axis cut) other = box other :=
  Function.update_of_ne different ..

end Cuts

end Box

variable [LinearOrder K]

/-- Two spans have a segment in common, not only a point. -/
def Span.Meets (first second : Span K) : Prop := max first.low second.low < min first.high second.high

theorem Span.meets_of_at {first second : Span K} (side : Side) (one : first.low < first.high)
    (other : second.low < second.high) (same : first.at side = second.at side) : first.Meets second := by
  rw [Span.Meets, max_lt_iff, lt_min_iff, lt_min_iff]
  cases side with
  | low =>
      have low : first.low = second.low := same
      exact ⟨⟨one, low ▸ other⟩, low ▸ one, other⟩
  | high =>
      have high : first.high = second.high := same
      exact ⟨⟨one, high ▸ one⟩, high ▸ other, other⟩

theorem Span.Meets.not_le {first second : Span K} (meets : first.Meets second) : ¬ first.high ≤ second.low :=
  fun apart => ((le_max_right _ _).trans_lt (meets.trans_le (min_le_left _ _))).not_ge apart

theorem Span.Meets.symm {first second : Span K} (meets : first.Meets second) : second.Meets first := by
  rwa [Span.Meets, max_comm, min_comm]

namespace Box

def Positive (box : Box ι K) : Prop := ∀ axis, (box axis).low < (box axis).high

def Contains (box : Box ι K) (point : ι → K) : Prop :=
  ∀ axis, (box axis).low ≤ point axis ∧ point axis ≤ (box axis).high

/-- The point is inside and not on the boundary. -/
def Surrounds (box : Box ι K) (point : ι → K) : Prop :=
  ∀ axis, (box axis).low < point axis ∧ point axis < (box axis).high

def Within (box outer : Box ι K) : Prop :=
  ∀ axis, (outer axis).low ≤ (box axis).low ∧ (box axis).high ≤ (outer axis).high

variable {box outer : Box ι K}

theorem Within.trans {inner : Box ι K} (first : inner.Within box) (second : box.Within outer) : inner.Within outer :=
  fun axis => ⟨(second axis).1.trans (first axis).1, (first axis).2.trans (second axis).2⟩

theorem meets_of_within (positive : box.Positive) (within : box.Within outer) (axis : ι) :
    (box axis).Meets (outer axis) := by
  rw [Span.Meets, max_eq_left (within axis).1, min_eq_left (within axis).2]
  exact positive axis

end Box

variable [DecidableEq ι]

namespace Box

variable {box outer : Box ι K}

theorem below_within (fits : cut ≤ (box axis).high) : (box.below axis cut).Within box := by
  intro other
  by_cases same : other = axis
  · subst same
    simp [fits]
  · simp [below_of_ne same]

theorem above_within (fits : (box axis).low ≤ cut) : (box.above axis cut).Within box := by
  intro other
  by_cases same : other = axis
  · subst same
    simp [fits]
  · simp [above_of_ne same]

theorem below_positive (positive : box.Positive) (low : (box axis).low < cut) : (box.below axis cut).Positive := by
  intro other
  by_cases same : other = axis
  · subst same
    simp [low]
  · simp [below_of_ne same, positive other]

theorem above_positive (positive : box.Positive) (high : cut < (box axis).high) : (box.above axis cut).Positive := by
  intro other
  by_cases same : other = axis
  · subst same
    simp [high]
  · simp [above_of_ne same, positive other]

end Box

/-- Named boxes that a box is cut into. -/
inductive Tiling : Box ι K → List (α × Box ι K) → Prop where
  | whole (name : α) (box : Box ι K) : Tiling box [(name, box)]
  | cut {box : Box ι K} {first second : List (α × Box ι K)} (axis : ι) (cut : K) (low : (box axis).low < cut)
      (high : cut < (box axis).high) (before : Tiling (box.below axis cut) first)
      (behind : Tiling (box.above axis cut) second) : Tiling box (first ++ second)

namespace Tiling

variable {box : Box ι K} {tiles : List (α × Box ι K)} {tile : α × Box ι K}

theorem within (tiling : Tiling box tiles) (member : tile ∈ tiles) : tile.2.Within box := by
  induction tiling with
  | whole name box =>
      cases List.mem_singleton.mp member
      exact fun _ => ⟨le_rfl, le_rfl⟩
  | cut axis cut low high before behind inFirst inSecond =>
      rcases List.mem_append.mp member with here | there
      · exact (inFirst here).trans (Box.below_within high.le)
      · exact (inSecond there).trans (Box.above_within low.le)

theorem positive (tiling : Tiling box tiles) (positive : box.Positive) (member : tile ∈ tiles) : tile.2.Positive := by
  induction tiling with
  | whole name box =>
      cases List.mem_singleton.mp member
      exact positive
  | cut axis cut low high before behind inFirst inSecond =>
      rcases List.mem_append.mp member with here | there
      · exact inFirst (Box.below_positive positive low) here
      · exact inSecond (Box.above_positive positive high) there

theorem apart (tiling : Tiling box tiles) :
    tiles.Pairwise fun earlier later => ∃ axis, (earlier.2 axis).high ≤ (later.2 axis).low := by
  induction tiling with
  | whole name box => exact List.pairwise_singleton _ _
  | cut axis cut low high before behind inFirst inSecond =>
      refine List.pairwise_append.mpr ⟨inFirst, inSecond, fun earlier here later there => ⟨axis, ?_⟩⟩
      have ends := (before.within here axis).2
      have starts := (behind.within there axis).1
      simp only [Box.below_self, Box.above_self] at ends starts
      exact ends.trans starts

theorem covers (tiling : Tiling box tiles) (point : ι → K) :
    box.Contains point ↔ ∃ tile ∈ tiles, tile.2.Contains point := by
  constructor
  · intro inside
    induction tiling with
    | whole name box => exact ⟨_, List.mem_cons_self, inside⟩
    | cut axis cut low high before behind inFirst inSecond =>
        rcases le_total (point axis) cut with before_ | behind_
        · obtain ⟨tile, member, contains⟩ := inFirst fun other => by
            by_cases same : other = axis
            · subst same
              simpa using ⟨(inside other).1, before_⟩
            · simpa [Box.below_of_ne same] using inside other
          exact ⟨tile, List.mem_append_left _ member, contains⟩
        · obtain ⟨tile, member, contains⟩ := inSecond fun other => by
            by_cases same : other = axis
            · subst same
              simpa using ⟨behind_, (inside other).2⟩
            · simpa [Box.above_of_ne same] using inside other
          exact ⟨tile, List.mem_append_right _ member, contains⟩
  · intro ⟨tile, member, contains⟩ axis
    have within := tiling.within member axis
    exact ⟨within.1.trans (contains axis).1, (contains axis).2.trans within.2⟩

theorem meets_cut {first second : Span K} (cut : K) (meets : first.Meets second) :
    first.Meets ⟨second.low, cut⟩ ∨ first.Meets ⟨cut, second.high⟩ := by
  simp only [Span.Meets, max_lt_iff, lt_min_iff] at meets ⊢
  obtain ⟨⟨positive, left⟩, right, segment⟩ := meets
  rcases lt_or_ge (max first.low second.low) cut with before | behind
  · exact .inl ⟨⟨positive, left⟩, (le_max_left _ _).trans_lt before, (le_max_right _ _).trans_lt before⟩
  · exact .inr ⟨⟨positive, behind.trans_lt (max_lt positive left)⟩, right, behind.trans_lt (max_lt right segment)⟩

theorem lines (tiling : Tiling box tiles) (other : Box ι K) (axis : ι) (side : Side)
    (meets : ∀ across, across ≠ axis → (other across).Meets (box across)) :
    ∃ tile ∈ tiles, (tile.2 axis).at side = (box axis).at side ∧
      ∀ across, across ≠ axis → (other across).Meets (tile.2 across) := by
  induction tiling with
  | whole name box => exact ⟨_, List.mem_cons_self, rfl, meets⟩
  | @cut box first second split cut low high before behind inFirst inSecond =>
      -- The child that has the side, or, where the cut is across it, the one that the other box meets.
      have choose : (((box.below split cut) axis).at side = (box axis).at side ∧
            ∀ across, across ≠ axis → (other across).Meets ((box.below split cut) across)) ∨
          (((box.above split cut) axis).at side = (box axis).at side ∧
            ∀ across, across ≠ axis → (other across).Meets ((box.above split cut) across)) := by
        by_cases along : axis = split
        · subst along
          cases side with
          | low => exact .inl ⟨by simp [Span.at], fun across ne => Box.below_of_ne ne ▸ meets across ne⟩
          | high => exact .inr ⟨by simp [Span.at], fun across ne => Box.above_of_ne ne ▸ meets across ne⟩
        · have part : ∀ {part : Box ι K}, (∀ across, across ≠ split → part across = box across) →
              (other split).Meets (part split) →
              (part axis).at side = (box axis).at side ∧
                ∀ across, across ≠ axis → (other across).Meets (part across) := by
            intro part same here
            refine ⟨by rw [same axis along], fun across ne => ?_⟩
            by_cases is : across = split
            · exact is ▸ here
            · exact same across is ▸ meets across ne
          rcases meets_cut cut (meets split (Ne.symm along)) with here | there
          · exact .inl (part (fun _ => Box.below_of_ne) (by simpa using here))
          · exact .inr (part (fun _ => Box.above_of_ne) (by simpa using there))
      rcases choose with ⟨touches, here⟩ | ⟨touches, there⟩
      · obtain ⟨tile, member, same, next⟩ := inFirst here
        exact ⟨tile, List.mem_append_left _ member, same.trans touches, next⟩
      · obtain ⟨tile, member, same, next⟩ := inSecond there
        exact ⟨tile, List.mem_append_right _ member, same.trans touches, next⟩

theorem neighbors (tiling : Tiling box tiles) (positive : box.Positive) (axis : ι) (side : Side)
    (member : tile ∈ tiles) :
    (tile.2 axis).at side = (box axis).at side ∨
      ∃ next ∈ tiles, (next.2 axis).at side.opposite = (tile.2 axis).at side ∧
        ∀ across, across ≠ axis → (tile.2 across).Meets (next.2 across) := by
  induction tiling with
  | whole name box =>
      cases List.mem_singleton.mp member
      exact .inl rfl
  | @cut box first second split cut low high before behind inFirst inSecond =>
      have front := Box.below_positive positive low
      have back := Box.above_positive positive high
      have whole : Tiling box (first ++ second) := .cut split cut low high before behind
      have meets := Box.meets_of_within (whole.positive positive member) (whole.within member)
      rcases List.mem_append.mp member with here | there
      · rcases inFirst front here with touches | ⟨next, inside, shares, overlaps⟩
        · by_cases along : axis = split
          · subst along
            cases side with
            | low => exact .inl (by simpa [Span.at] using touches)
            | high =>
                obtain ⟨next, inside, same, overlaps⟩ := behind.lines tile.2 axis .low fun across ne =>
                  Box.above_of_ne ne ▸ meets across
                refine .inr ⟨next, List.mem_append_right _ inside, ?_, overlaps⟩
                simp only [Span.at, Side.opposite, Box.above_self, Box.below_self] at same touches ⊢
                rw [same, touches]
          · exact .inl (by rw [touches, Box.below_of_ne along])
        · exact .inr ⟨next, List.mem_append_left _ inside, shares, overlaps⟩
      · rcases inSecond back there with touches | ⟨next, inside, shares, overlaps⟩
        · by_cases along : axis = split
          · subst along
            cases side with
            | high => exact .inl (by simpa [Span.at] using touches)
            | low =>
                obtain ⟨next, inside, same, overlaps⟩ := before.lines tile.2 axis .high fun across ne =>
                  Box.below_of_ne ne ▸ meets across
                refine .inr ⟨next, List.mem_append_left _ inside, ?_, overlaps⟩
                simp only [Span.at, Side.opposite, Box.above_self, Box.below_self] at same touches ⊢
                rw [same, touches]
          · exact .inl (by rw [touches, Box.above_of_ne along])
        · exact .inr ⟨next, List.mem_append_right _ inside, shares, overlaps⟩

theorem nothing_beyond (tiling : Tiling box tiles) (positive : box.Positive) (axis : ι) (side : Side)
    (member : tile ∈ tiles) : (tile.2 axis).at side.opposite ≠ (box axis).at side := by
  have within := tiling.within member axis
  have wide := tiling.positive positive member axis
  cases side with
  | low => exact ne_of_gt (within.1.trans_lt wide)
  | high => exact ne_of_lt (wide.trans_le within.2)

end Tiling

end Boxes

end Seyal.Program
