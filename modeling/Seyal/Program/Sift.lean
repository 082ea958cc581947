import Mathlib.Algebra.Order.BigOperators.Group.List
import Mathlib.Algebra.Order.Ring.Nat
import Mathlib.Data.List.Sort

namespace Seyal.Program

/-! Items that drop one another in the order of their rank, and lists drawn from positions. -/

section Sift

variable {α : Type}

/-- The item at this position has not been dropped. -/
def Live (slots : List (Option α)) (position : Nat) (item : α) : Prop := slots[position]? = some (some item)

variable (covers : α → α → Bool)

/-- The item at a position drops every other that it covers. -/
def sift (slots : List (Option α)) (position : Nat) : List (Option α) :=
  match slots[position]? with
  | some (some item) =>
      slots.zipIdx.map fun slot => slot.1.filter fun other => slot.2 = position || !covers item other
  | _ => slots

def siftAll (slots : List (Option α)) (order : List Nat) : List (Option α) := order.foldl (sift covers) slots

variable {covers} {slots : List (Option α)} {position index : Nat} {item other : α}

theorem live_sift :
    Live (sift covers slots position) index other ↔
      Live slots index other ∧ ∀ item, Live slots position item → index = position ∨ covers item other = false := by
  unfold sift
  split
  next item live =>
    have only : (∀ value, Live slots position value → index = position ∨ covers value other = false) ↔
        (index = position ∨ covers item other = false) := by simp [Live, live]
    rw [only]
    simp only [Live, List.getElem?_map, List.getElem?_zipIdx, Nat.zero_add]
    cases found : slots[index]? with
    | none => simp
    | some slot =>
        cases slot with
        | none => simp
        | some value =>
            simp only [Option.map_some, Option.some.injEq, Option.filter_eq_some_iff]
            constructor
            · rintro ⟨rfl, kept⟩
              exact ⟨rfl, by simpa using kept⟩
            · rintro ⟨rfl, kept⟩
              exact ⟨rfl, by simpa using kept⟩
  next dead => exact ⟨fun live => ⟨live, fun item alive => absurd alive (dead item)⟩, And.left⟩

theorem exists_live_of_mem (member : item ∈ slots.filterMap id) : ∃ position, Live slots position item := by
  obtain ⟨slot, listed, rfl⟩ := List.mem_filterMap.mp member
  exact List.mem_iff_getElem?.mp listed

variable {items : List α} {done order : List Nat}

/-- After the positions `done`: what is live was there, no live item is covered by one of them, and what was dropped is
    covered by one that is live. -/
structure Sifted (covers : α → α → Bool) (items : List α) (done : List Nat) (slots : List (Option α)) : Prop where
  unchanged : ∀ index item, Live slots index item → items[index]? = some item
  apart : ∀ position ∈ done, ∀ item, Live slots position item → ∀ index other, Live slots index other →
    covers item other = false
  covered : ∀ index other, items[index]? = some other → ¬Live slots index other →
    ∃ position ∈ done, ∃ item, Live slots position item ∧ covers item other = true

variable {rank : α → Nat}

theorem Sifted.step (sifted : Sifted covers items done slots)
    (lower : ∀ item other, covers item other = true → rank item < rank other)
    (next : ∀ earlier ∈ done, ∀ item other, items[earlier]? = some item → items[position]? = some other →
      rank item ≤ rank other) :
    Sifted covers items (position :: done) (sift covers slots position) where
  unchanged index item live := sifted.unchanged index item (live_sift.mp live).1
  apart place member item live index other present := by
    have before := (live_sift.mp live).1
    have present := live_sift.mp present
    rcases List.mem_cons.mp member with rfl | old
    · rcases present.2 item before with rfl | free
      · have same : item = other := by
          have both := before.symm.trans present.1
          simpa using both
        subst same
        by_contra both
        exact absurd (lower _ _ (by simpa using both)) (Nat.lt_irrefl _)
      · exact free
    · exact sifted.apart place old item before index other present.1
  covered index other here gone := by
    by_cases before : Live slots index other
    · -- Dropped just now, by the item at `position`, which stays.
      have dropped : ¬∀ item, Live slots position item → index = position ∨ covers item other = false :=
        fun free => gone (live_sift.mpr ⟨before, free⟩)
      push Not at dropped
      obtain ⟨item, live, _, covering⟩ := dropped
      exact ⟨position, List.mem_cons_self, item, live_sift.mpr ⟨live, fun _ _ => .inl rfl⟩, by simpa using covering⟩
    · obtain ⟨place, old, item, live, covering⟩ := sifted.covered index other here before
      refine ⟨place, List.mem_cons_of_mem _ old, item, live_sift.mpr ⟨live, fun chosen alive => .inr ?_⟩, covering⟩
      by_contra both
      have below := lower chosen item (by simpa using both)
      have above := next place old item chosen (sifted.unchanged _ _ live) (sifted.unchanged _ _ alive)
      exact absurd below (Nat.not_lt.mpr above)

theorem Sifted.all (sifted : Sifted covers items done slots)
    (lower : ∀ item other, covers item other = true → rank item < rank other)
    (next : ∀ earlier ∈ done, ∀ position ∈ order, ∀ item other, items[earlier]? = some item →
      items[position]? = some other → rank item ≤ rank other)
    (sorted : order.Pairwise fun earlier position => ∀ item other, items[earlier]? = some item →
      items[position]? = some other → rank item ≤ rank other) :
    Sifted covers items (order.reverse ++ done) (siftAll covers slots order) := by
  induction order generalizing done slots with
  | nil => exact sifted
  | cons position order ih =>
      have first := sifted.step lower fun earlier member => next earlier member position List.mem_cons_self
      obtain ⟨ahead, rest⟩ := List.pairwise_cons.mp sorted
      have all := ih first (fun earlier member later among => ?_) rest
      · rw [List.reverse_cons, List.append_assoc]
        exact all
      · rcases List.mem_cons.mp member with rfl | old
        · exact ahead later among
        · exact next earlier old later (List.mem_cons_of_mem _ among)

theorem sifted_siftAll (lower : ∀ item other, covers item other = true → rank item < rank other)
    (sorted : order.Pairwise fun earlier position => ∀ item other, items[earlier]? = some item →
      items[position]? = some other → rank item ≤ rank other) :
    Sifted covers items order.reverse (siftAll covers (items.map some) order) := by
  have start : Sifted covers items [] (items.map some) := by
    refine ⟨fun index item live => ?_, fun _ absent => ?_, fun index other here gone => absurd ?_ gone⟩
    · simpa [Live] using live
    · cases absent
    · simp [Live, here]
  have all := start.all lower (fun _ absent => by cases absent) sorted
  rwa [List.append_nil] at all

end Sift

section Draw

variable {β : Type}

/-- The list has, in their order, the values of those positions that own one. -/
structure Drawn (owns : Nat → β → Prop) (origins : List Nat) (values : List β) : Prop where
  ordered : origins.Pairwise (· < ·)
  owned : List.Forall₂ owns origins values
  complete : ∀ position value, owns position value → position ∈ origins

variable {owns : Nat → β → Prop} {origins : List Nat} {values : List β}

theorem drawn_nil (none : ∀ position value, ¬owns position value) : Drawn owns [] [] :=
  ⟨.nil, .nil, fun position value owned => absurd owned (none position value)⟩

theorem Drawn.shift (drawn : Drawn (fun position => owns (position + 1)) origins values) :
    (origins.map (· + 1)).Pairwise (· < ·) ∧ List.Forall₂ owns (origins.map (· + 1)) values := by
  constructor
  · exact drawn.ordered.map _ fun _ _ below => Nat.succ_lt_succ below
  · exact List.forall₂_map_left_iff.mpr drawn.owned

theorem Drawn.skip (drawn : Drawn (fun position => owns (position + 1)) origins values) (none : ∀ value, ¬owns 0 value) :
    Drawn owns (origins.map (· + 1)) values where
  ordered := drawn.shift.1
  owned := drawn.shift.2
  complete position value owned := by
    cases position with
    | zero => exact absurd owned (none value)
    | succ position => exact List.mem_map_of_mem (drawn.complete position value owned)

theorem Drawn.keep (drawn : Drawn (fun position => owns (position + 1)) origins values) {first : β} (here : owns 0 first) :
    Drawn owns (0 :: origins.map (· + 1)) (first :: values) where
  ordered := by
    refine List.pairwise_cons.mpr ⟨fun position member => ?_, drawn.shift.1⟩
    obtain ⟨before, _, rfl⟩ := List.mem_map.mp member
    exact Nat.succ_pos before
  owned := .cons here drawn.shift.2
  complete position value owned := by
    cases position with
    | zero => exact List.mem_cons_self
    | succ position =>
        exact List.mem_cons_of_mem _ (List.mem_map_of_mem (drawn.complete position value owned))

theorem exists_drawn_filterMap_id (slots : List (Option β)) :
    ∃ origins, Drawn (Live slots) origins (slots.filterMap id) := by
  induction slots with
  | nil => exact ⟨[], drawn_nil fun position value live => by simp [Live] at live⟩
  | cons slot slots ih =>
      obtain ⟨origins, drawn⟩ := ih
      cases slot with
      | none => exact ⟨_, Drawn.skip drawn fun value live => by simp [Live] at live⟩
      | some item => exact ⟨_, Drawn.keep drawn rfl⟩

theorem Drawn.compose {within : List β} {places : List Nat} (outer : Drawn owns origins within)
    (ordered : places.Pairwise (· < ·))
    (inner : List.Forall₂ (fun place value => within[place]? = some value) places values) :
    (places.filterMap (origins[·]?)).Pairwise (· < ·) ∧ List.Forall₂ owns (places.filterMap (origins[·]?)) values := by
  constructor
  · refine List.Pairwise.filterMap _ (fun first second below k found l other => ?_) ordered
    obtain ⟨short, rfl⟩ := List.getElem?_eq_some_iff.mp found
    obtain ⟨long, rfl⟩ := List.getElem?_eq_some_iff.mp other
    exact List.pairwise_iff_getElem.mp outer.ordered first second short long below
  · clear ordered
    induction inner with
    | nil => exact .nil
    | @cons place value places values here _ ih =>
        obtain ⟨inside, rfl⟩ := List.getElem?_eq_some_iff.mp here
        have also : place < origins.length := by rwa [outer.owned.length_eq]
        rw [List.filterMap_cons_some (List.getElem?_eq_getElem also)]
        exact .cons (List.forall₂_iff_get.mp outer.owned |>.2 place also inside) ih

end Draw

end Seyal.Program
