import Seyal.Program.Cycle
import Seyal.Terminal.History.Wrap

namespace Seyal.Terminal

open Program SkipLoop

/-! The column behind a number of units: the shortcuts of the wrap index against
the walk over single units. -/

def advanceAll (cols used : Nat) (widths : List Nat) : Nat :=
  widths.foldl (fun used width => wrapAdvance used cols width) used

/-- The widths of the units that runs stand for. -/
def expandRuns (runs : List WrapRun) : List Nat := runs.flatMap fun run => List.replicate run.2 run.1

/-- Widths read round and round from a unit on. -/
def cyclicTake (units : List Nat) (phase count : Nat) : List Nat :=
  (List.range count).map fun index => units.getD ((phase + index) % units.length) 0

variable {cols used count : Nat}

theorem wrapAdvance_lt (positive : 0 < cols) (used width : Nat) : wrapAdvance used cols width < cols := by
  unfold wrapAdvance
  dsimp only
  split_ifs <;> omega

theorem advanceAll_append (cols used : Nat) (first second : List Nat) :
    advanceAll cols used (first ++ second) = advanceAll cols (advanceAll cols used first) second :=
  List.foldl_append ..

theorem advanceAll_lt (inside : used < cols) (widths : List Nat) : advanceAll cols used widths < cols := by
  induction widths generalizing used with
  | nil => exact inside
  | cons width widths ih => exact ih (wrapAdvance_lt (by omega) used width)

theorem advanceAll_replicate (cols used width count : Nat) :
    advanceAll cols used (List.replicate count width) = (fun used => wrapAdvance used cols width)^[count] used := by
  induction count generalizing used with
  | zero => rfl
  | succ count ih => exact ih _

def runLoop (cols width : Nat) : SkipLoop where
  limit := cols
  block := 1
  advance used _ := wrapAdvance used cols width
  stops := true

theorem wrapOccupancyRunLoop_eq (cols width fuel used remaining : Nat) (seen : List (Option Nat)) :
    wrapOccupancyRunLoop cols width fuel used remaining seen = (runLoop cols width).run fuel ⟨used, remaining, seen⟩ := by
  induction fuel generalizing used remaining seen with
  | zero => rfl
  | succ fuel ih =>
      rw [wrapOccupancyRunLoop, run, step]
      by_cases none : remaining = 0
      · rw [if_pos none, if_pos none]
        rfl
      have met : (if used ≤ cols then seen[used]?.join else Option.none) =
          (runLoop cols width).met ⟨used, remaining, seen⟩ := rfl
      have one : min remaining (runLoop cols width).block = 1 := Nat.min_eq_right (Nat.pos_of_ne_zero none)
      rw [if_neg none, if_neg none, met]
      cases (runLoop cols width).met ⟨used, remaining, seen⟩ with
      | none =>
          simp only [move, one]
          exact ih ..
      | some left =>
          simp only [move, one, show (runLoop cols width).stops = true from rfl, true_and]
          split
          · split
            · rfl
            · exact ih ..
          · exact ih ..

theorem result_runLoop (cols width used count : Nat) :
    (runLoop cols width).result used count = (fun used => wrapAdvance used cols width)^[count] used := by
  rw [result, show (runLoop cols width).block = 1 from rfl, if_pos (Nat.mod_one _), Nat.div_one]
  rfl

theorem runLoop_ends (inside : used < cols) (width count : Nat) :
    LoopEnds (runLoop cols width).step (2 * count + 1) ⟨used, count, (runLoop cols width).fresh⟩
      ((fun used => wrapAdvance used cols width)^[count] used) := by
  rw [← result_runLoop]
  refine ends Nat.one_pos ?_ _ ⟨used, count, _⟩ (Nat.le_of_lt inside)
    (fun _ => .of_clear fresh_clear) (.inr ⟨fresh_clear, Nat.lt_succ_self _⟩)
  exact fun position _ _ _ => Nat.le_of_lt (wrapAdvance_lt (by omega) position width)

theorem wrapOccupancyRun_eq (inside : used < cols) (width count : Nat) :
    wrapOccupancyRun used cols width count = advanceAll cols used (List.replicate count width) := by
  rw [wrapOccupancyRun, if_neg (by omega)]
  split
  next none =>
      rw [none]
      exact Nat.min_eq_left (Nat.le_of_lt inside)
  next =>
      rw [wrapOccupancyRunLoop_eq, advanceAll_replicate]
      exact run_of_ends (runLoop_ends inside width count)

theorem wrapOccupancyRunsFrom_eq (inside : used < cols) (runs : List WrapRun) (limit : Nat) :
    wrapOccupancyRunsFrom cols runs used limit = advanceAll cols used ((expandRuns runs).take limit) := by
  induction runs generalizing used limit with
  | nil =>
      rw [wrapOccupancyRunsFrom, expandRuns, List.flatMap_nil, List.take_nil]
      exact Nat.min_eq_left (Nat.le_of_lt inside)
  | cons run runs ih =>
      obtain ⟨width, count⟩ := run
      rw [wrapOccupancyRunsFrom]
      split
      next none =>
          rw [none, List.take_zero]
          exact Nat.min_eq_left (Nat.le_of_lt inside)
      next =>
          have rest : limit - min count limit = limit - count := by omega
          dsimp only
          rw [wrapOccupancyRun_eq inside, ih (advanceAll_lt inside _), ← advanceAll_append, rest]
          simp [expandRuns, List.take_append, List.take_replicate, Nat.min_comm]

section Cyclic

variable {units : List Nat}

theorem cyclicTake_add (phase first second : Nat) :
    cyclicTake units phase (first + second) = cyclicTake units phase first ++ cyclicTake units (phase + first) second := by
  simp only [cyclicTake, List.range_add, List.map_append, List.map_map]
  congr 2
  funext index
  simp only [Function.comp_apply]
  rw [Nat.add_assoc]

theorem cyclicTake_round (phase count : Nat) :
    cyclicTake units (phase + units.length) count = cyclicTake units phase count := by
  unfold cyclicTake
  congr 1
  funext index
  rw [Nat.add_right_comm, Nat.add_mod_right]

theorem cyclicTake_mod (phase count : Nat) :
    cyclicTake units (phase % units.length) count = cyclicTake units phase count := by
  unfold cyclicTake
  congr 1
  funext index
  rw [Nat.mod_add_mod]

theorem length_cyclicTake (phase count : Nat) : (cyclicTake units phase count).length = count := by
  simp [cyclicTake]

theorem cyclicTake_inside {phase count : Nat} (inside : phase + count ≤ units.length) :
    cyclicTake units phase count = (units.drop phase).take count := by
  refine List.ext_getElem ?_ ?_
  · rw [length_cyclicTake, List.length_take, List.length_drop]
    omega
  · intro index first second
    rw [length_cyclicTake] at first
    simp only [cyclicTake, List.getElem_map, List.getElem_range, List.getElem_take, List.getElem_drop]
    rw [Nat.mod_eq_of_lt (by omega), List.getD_eq_getElem?_getD, List.getElem?_eq_getElem (by omega)]
    rfl

theorem getD_cyclicTake {phase count index : Nat} (inside : index < count) :
    (cyclicTake units phase count).getD index 0 = units.getD ((phase + index) % units.length) 0 := by
  simp [cyclicTake, List.getD_eq_getElem?_getD, inside]

theorem cyclicTake_cyclicTake {phase period count : Nat} (positive : 0 < period)
    (whole : period = units.length ∨ count ≤ period) :
    cyclicTake (cyclicTake units phase period) 0 count = cyclicTake units phase count := by
  refine List.map_congr_left ?_
  intro index member
  have inside := List.mem_range.mp member
  rw [length_cyclicTake, Nat.zero_add, getD_cyclicTake (Nat.mod_lt _ positive)]
  rcases whole with rfl | enough
  · rw [Nat.add_mod_mod]
  · rw [Nat.mod_eq_of_lt (show index < period by omega)]

end Cyclic

def repeatLoop (pattern : List WrapRun) (patternUnits cols : Nat) : SkipLoop where
  limit := cols
  block := patternUnits
  advance used taken := wrapOccupancyPatternOnce used pattern cols taken
  stops := false

theorem wrapOccupancyRepeatingLoop_eq (pattern : List WrapRun) (patternUnits cols fuel used remaining : Nat)
    (seen : List (Option Nat)) :
    wrapOccupancyRepeatingLoop pattern patternUnits cols fuel used remaining seen =
      (repeatLoop pattern patternUnits cols).run fuel ⟨used, remaining, seen⟩ := by
  induction fuel generalizing used remaining seen with
  | zero => rfl
  | succ fuel ih =>
      rw [wrapOccupancyRepeatingLoop, run, step]
      by_cases none : remaining = 0
      · rw [if_pos none, if_pos none]
        rfl
      have met : (if used ≤ cols then seen[used]?.join else Option.none) =
          (repeatLoop pattern patternUnits cols).met ⟨used, remaining, seen⟩ := rfl
      rw [if_neg none, if_neg none]
      dsimp only
      rw [met]
      cases (repeatLoop pattern patternUnits cols).met ⟨used, remaining, seen⟩ with
      | none => exact ih ..
      | some left =>
          simp only [show (repeatLoop pattern patternUnits cols).stops = false from rfl, Bool.false_eq_true, false_and,
            if_false]
          split <;> exact ih ..

theorem length_expandRuns (runs : List WrapRun) : (expandRuns runs).length = (runs.map (·.2)).sum := by
  simp [expandRuns, List.length_flatMap]

theorem u32Max_eq : u32Max = 2 ^ 32 - 1 := rfl

theorem foldl_saturating (runs : List WrapRun) (total : Nat) :
    runs.foldl (fun total run => saturatingAdd 32 total run.2) (min total u32Max) =
      min (total + (expandRuns runs).length) u32Max := by
  induction runs generalizing total with
  | nil => rfl
  | cons run runs ih =>
      have next : saturatingAdd 32 (min total u32Max) run.2 = min (total + run.2) u32Max := by
        unfold saturatingAdd
        rw [← u32Max_eq]
        omega
      rw [List.foldl_cons, next, ih, length_expandRuns, length_expandRuns, List.map_cons, List.sum_cons, Nat.add_assoc]

theorem wrapRunsUnitSum_eq (runs : List WrapRun) : wrapRunsUnitSum runs = min (expandRuns runs).length u32Max := by
  have sum := foldl_saturating runs 0
  rw [Nat.zero_min, Nat.zero_add] at sum
  exact sum

theorem wrapOccupancyRunsFrom_le (cols : Nat) (runs : List WrapRun) (used limit : Nat) :
    wrapOccupancyRunsFrom cols runs used limit ≤ cols := by
  induction runs generalizing used limit with
  | nil => exact Nat.min_le_right _ _
  | cons run runs ih =>
      rw [wrapOccupancyRunsFrom]
      split
      · exact Nat.min_le_right _ _
      · exact ih _ _

theorem result_repeatLoop (inside : used < cols) (pattern : List WrapRun) {block : Nat} (positive : 0 < block)
    (count : Nat)
    (whole : block = (expandRuns pattern).length ∨ count ≤ block ∧ block ≤ (expandRuns pattern).length) :
    (repeatLoop pattern block cols).result used count = advanceAll cols used (cyclicTake (expandRuns pattern) 0 count) := by
  induction count using Nat.strong_induction_on generalizing used with
  | _ count ih =>
      by_cases none : count = 0
      · rw [none, result_zero]
        rfl
      have advanced (taken : Nat) (within : taken ≤ (expandRuns pattern).length) :
          (repeatLoop pattern block cols).advance used taken =
            advanceAll cols used (cyclicTake (expandRuns pattern) 0 taken) := by
        rw [cyclicTake_inside (by omega), List.drop_zero]
        exact wrapOccupancyRunsFrom_eq inside pattern taken
      have taken : min count block ≤ (expandRuns pattern).length := by omega
      rw [result_move positive (Nat.pos_of_ne_zero none), show (repeatLoop pattern block cols).block = block from rfl,
        advanced _ taken, ih _ (by omega) (advanceAll_lt inside _) (by omega), ← advanceAll_append]
      congr 1
      by_cases short : count ≤ block
      · rw [Nat.min_eq_left short, Nat.sub_self]
        exact List.append_nil _
      · have exactly : block = (expandRuns pattern).length := by omega
        have split : count = block + (count - block) := by omega
        rw [Nat.min_eq_right (by omega), split, cyclicTake_add, Nat.add_sub_cancel_left, Nat.zero_add]
        congr 1
        rw [exactly, ← cyclicTake_round 0, Nat.zero_add]

theorem repeatLoop_ends (inside : used < cols) (pattern : List WrapRun) {block : Nat} (positive : 0 < block)
    (count : Nat)
    (whole : block = (expandRuns pattern).length ∨ count ≤ block ∧ block ≤ (expandRuns pattern).length) :
    LoopEnds (repeatLoop pattern block cols).step (2 * count + 1)
      ⟨used, count, (repeatLoop pattern block cols).fresh⟩
      (advanceAll cols used (cyclicTake (expandRuns pattern) 0 count)) := by
  rw [← result_repeatLoop inside pattern positive count whole]
  refine ends positive ?_ _ ⟨used, count, _⟩ (Nat.le_of_lt inside)
    (fun _ => .of_clear fresh_clear) (.inr ⟨fresh_clear, Nat.lt_succ_self _⟩)
  exact fun position taken _ _ => wrapOccupancyRunsFrom_le cols pattern position taken

theorem unitSum_whole (pattern : List WrapRun) (bounded : count ≤ u32Max) :
    wrapRunsUnitSum pattern = (expandRuns pattern).length ∨
      count ≤ wrapRunsUnitSum pattern ∧ wrapRunsUnitSum pattern ≤ (expandRuns pattern).length := by
  rw [wrapRunsUnitSum_eq]
  omega

theorem wrapOccupancyRepeating_eq (positive : 0 < cols) (pattern : List WrapRun) (some : 0 < wrapRunsUnitSum pattern)
    (bounded : count ≤ u32Max) :
    wrapOccupancyRepeating pattern cols count = advanceAll cols 0 (cyclicTake (expandRuns pattern) 0 count) := by
  rw [wrapOccupancyRepeating]
  split
  next none =>
      obtain rfl : count = 0 := by omega
      rfl
  next =>
      rw [wrapOccupancyRepeatingLoop_eq]
      exact run_of_ends (repeatLoop_ends positive pattern some count (unitSum_whole pattern bounded))

theorem expandRuns_append (first second : List WrapRun) :
    expandRuns (first ++ second) = expandRuns first ++ expandRuns second := List.flatMap_append ..

theorem expandRuns_extendRuns {runs : List WrapRun} (width : Nat)
    (bounded : (expandRuns runs).length + count ≤ u32Max) :
    expandRuns (extendRuns runs width count) = expandRuns runs ++ List.replicate count width := by
  rcases runs.eq_nil_or_concat' with rfl | ⟨front, ⟨lastWidth, lastCount⟩, rfl⟩
  · simp [extendRuns, expandRuns]
  · have fits : saturatingAdd 32 lastCount count = lastCount + count := by
      rw [expandRuns_append, List.length_append, length_expandRuns [_]] at bounded
      simp only [List.map_cons, List.map_nil, List.sum_cons, List.sum_nil] at bounded
      rw [saturatingAdd, ← u32Max_eq]
      omega
    rw [extendRuns, List.getLast?_concat]
    dsimp only
    split
    next same =>
        rw [List.dropLast_concat, fits, same]
        simp [expandRuns]
    next => simp [expandRuns]

theorem wrapPatternSlicePass_eq (pattern : List WrapRun) (counts : ∀ run ∈ pattern, 0 < run.2) (index : Nat)
    (state : PatternSlice) (offset : state.offset < u32Max) (reading : index ≤ state.offset ∨ state.offset = 0)
    (bounded : (expandRuns state.runs).length + state.remaining ≤ u32Max) :
    expandRuns (wrapPatternSlicePass pattern (min index u32Max) state).runs =
        expandRuns state.runs ++ ((expandRuns pattern).drop (state.offset - index)).take state.remaining ∧
      (wrapPatternSlicePass pattern (min index u32Max) state).remaining =
        state.remaining - ((expandRuns pattern).length - (state.offset - index)) ∧
      (state.offset = 0 ∨ state.offset - index < (expandRuns pattern).length ∧ 0 < state.remaining →
        (wrapPatternSlicePass pattern (min index u32Max) state).offset = 0) := by
  induction pattern generalizing index state with
  | nil => simp [wrapPatternSlicePass, expandRuns]
  | cons run pattern ih =>
      obtain ⟨width, count⟩ := run
      obtain ⟨first, others⟩ := List.forall_mem_cons.mp counts
      have expanded : expandRuns ((width, count) :: pattern) = List.replicate count width ++ expandRuns pattern := rfl
      have behind : saturatingAdd 32 (min index u32Max) count = min (index + count) u32Max := by
        rw [saturatingAdd, ← u32Max_eq]
        omega
      have past (distance : Nat) :
          (expandRuns ((width, count) :: pattern)).drop (count + distance) = (expandRuns pattern).drop distance := by
        rw [expanded, List.drop_append]
        simp
      have length : (expandRuns ((width, count) :: pattern)).length = count + (expandRuns pattern).length := by
        rw [expanded, List.length_append, List.length_replicate]
      rw [wrapPatternSlicePass]
      split
      next none => simp [none]
      next some =>
          dsimp only
          rw [behind]
          split
          next skipped =>
              have beyond : index + count ≤ state.offset := by omega
              have drop : state.offset - index = count + (state.offset - (index + count)) := by omega
              obtain ⟨runs, remaining, reset⟩ := ih others (index + count) state offset (.inl beyond) bounded
              rw [drop, past, length]
              refine ⟨runs, ?_, fun read => reset (by omega)⟩
              rw [remaining]
              omega
          next here =>
              have near : state.offset - index < count := by omega
              have same : state.offset - min index u32Max = state.offset - index := by omega
              rw [same]
              generalize state.offset - index = distance at near ⊢
              have taken : 0 < min (count - distance) state.remaining := by omega
              have left : state.remaining - min (count - distance) state.remaining =
                  state.remaining - (count - distance) := by omega
              rw [if_pos taken, left]
              have extended := expandRuns_extendRuns width
                (show (expandRuns state.runs).length + min (count - distance) state.remaining ≤ u32Max by omega)
              have room : (expandRuns (extendRuns state.runs width (min (count - distance) state.remaining))).length +
                  (state.remaining - (count - distance)) ≤ u32Max := by
                rw [extended, List.length_append, List.length_replicate]
                omega
              obtain ⟨runs, remaining, reset⟩ := ih others (index + count)
                ⟨0, state.remaining - (count - distance),
                  extendRuns state.runs width (min (count - distance) state.remaining)⟩
                (Nat.lt_of_le_of_lt (Nat.zero_le _) offset) (.inr rfl) room
              dsimp only at runs remaining
              rw [Nat.zero_sub, List.drop_zero, extended, List.append_assoc] at runs
              rw [Nat.zero_sub, Nat.sub_zero] at remaining
              rw [runs, remaining, length]
              refine ⟨?_, by clear runs remaining reset; omega, fun _ => reset (.inl rfl)⟩
              rw [expanded, List.drop_append_of_le_length (by rw [List.length_replicate]; exact Nat.le_of_lt near),
                List.drop_replicate, List.take_append, List.take_replicate, List.length_replicate, Nat.min_comm]

theorem wrapPatternSliceLoop_eq (pattern : List WrapRun) (counts : ∀ run ∈ pattern, 0 < run.2) (fuel : Nat)
    (state : PatternSlice) (offset : state.offset < u32Max) (inside : state.offset < (expandRuns pattern).length)
    (bounded : (expandRuns state.runs).length + state.remaining ≤ u32Max) (enough : state.remaining < fuel) :
    expandRuns (wrapPatternSliceLoop pattern fuel state) =
      expandRuns state.runs ++ cyclicTake (expandRuns pattern) state.offset state.remaining := by
  induction fuel generalizing state with
  | zero => omega
  | succ fuel ih =>
      rw [wrapPatternSliceLoop]
      split
      next none =>
          rw [none]
          exact (List.append_nil _).symm
      next some =>
          obtain ⟨runs, remaining, reset⟩ :=
            wrapPatternSlicePass_eq pattern counts 0 state offset (.inl (Nat.zero_le _)) bounded
          rw [Nat.zero_min, Nat.sub_zero] at runs remaining reset
          have restart := reset (.inr ⟨inside, Nat.pos_of_ne_zero some⟩)
          dsimp only
          generalize wrapPatternSlicePass pattern 0 state = next at runs remaining restart ⊢
          rw [if_neg (by omega)]
          have room : (expandRuns next.runs).length + next.remaining ≤ u32Max := by
            rw [runs, List.length_append, List.length_take, List.length_drop]
            omega
          rw [ih next (by omega) (by omega) room (by omega), runs, restart, List.append_assoc]
          congr 1
          by_cases short : state.offset + state.remaining ≤ (expandRuns pattern).length
          · rw [show next.remaining = 0 by omega, cyclicTake_inside short]
            exact List.append_nil _
          · have split : state.remaining = ((expandRuns pattern).length - state.offset) + next.remaining := by omega
            have here : cyclicTake (expandRuns pattern) state.offset ((expandRuns pattern).length - state.offset) =
                (expandRuns pattern).drop state.offset := by
              rw [cyclicTake_inside (by omega), List.take_of_length_le (by rw [List.length_drop])]
            rw [split, cyclicTake_add, here]
            congr 1
            · exact List.take_of_length_le (by rw [List.length_drop]; omega)
            · rw [show state.offset + ((expandRuns pattern).length - state.offset) =
                0 + (expandRuns pattern).length by omega,
                cyclicTake_round]

theorem wrapPatternSlice_eq (pattern : List WrapRun) (counts : ∀ run ∈ pattern, 0 < run.2)
    (some : 0 < wrapRunsUnitSum pattern) (start : Nat) (bounded : count ≤ u32Max) :
    expandRuns (wrapPatternSlice pattern start count) =
      cyclicTake (expandRuns pattern) (start % wrapRunsUnitSum pattern) count := by
  have offset : start % wrapRunsUnitSum pattern < wrapRunsUnitSum pattern := Nat.mod_lt _ some
  have sum := wrapRunsUnitSum_eq pattern
  rw [wrapPatternSlice]
  split
  next none =>
      obtain rfl : count = 0 := by omega
      rfl
  next =>
      rw [wrapPatternSliceLoop_eq pattern counts]
      · rfl
      · dsimp only
        omega
      · dsimp only
        omega
      · simpa [expandRuns] using bounded
      · exact Nat.lt_succ_self _

/-- The phase is not lost when the period is cut to 32 bits. -/
def PhaseKept (pattern : List WrapRun) (phase : Nat) : Prop :=
  (expandRuns pattern).length ≤ u32Max ∨ phase < u32Max

theorem unitSum_pos {pattern : List WrapRun} (nonempty : pattern ≠ []) (counts : ∀ run ∈ pattern, 0 < run.2) :
    0 < wrapRunsUnitSum pattern := by
  obtain ⟨run, rest, rfl⟩ := List.exists_cons_of_ne_nil nonempty
  have := counts run List.mem_cons_self
  rw [wrapRunsUnitSum_eq, length_expandRuns, List.map_cons, List.sum_cons, u32Max_eq]
  omega

theorem wrapOccupancyRepeatingFrom_eq (positive : 0 < cols) {pattern : List WrapRun} (nonempty : pattern ≠ [])
    (counts : ∀ run ∈ pattern, 0 < run.2) {phase : Nat}
    (kept : PhaseKept pattern phase) (bounded : count ≤ u32Max) :
    wrapOccupancyRepeatingFrom pattern phase cols count =
      advanceAll cols 0 (cyclicTake (expandRuns pattern) phase count) := by
  have sum := wrapRunsUnitSum_eq pattern
  have some := unitSum_pos nonempty counts
  -- The phase within the period stands for the same unit.
  have same : cyclicTake (expandRuns pattern) (phase % wrapRunsUnitSum pattern) count =
      cyclicTake (expandRuns pattern) phase count := by
    by_cases fits : (expandRuns pattern).length ≤ u32Max
    · rw [sum, Nat.min_eq_left fits, cyclicTake_mod]
    · have small : phase < u32Max := kept.resolve_left fits
      rw [sum, Nat.min_eq_right (by omega), Nat.mod_eq_of_lt small]
  rw [wrapOccupancyRepeatingFrom]
  split
  next none => omega
  next =>
      split
      next zero => rw [wrapOccupancyRepeating_eq positive pattern some bounded, ← same, zero]
      next =>
          have turned := wrapPatternSlice_eq pattern counts some (phase % wrapRunsUnitSum pattern)
            (show wrapRunsUnitSum pattern ≤ u32Max by omega)
          rw [Nat.mod_mod] at turned
          have period : wrapRunsUnitSum
              (wrapPatternSlice pattern (phase % wrapRunsUnitSum pattern) (wrapRunsUnitSum pattern)) =
              wrapRunsUnitSum pattern := by
            rw [wrapRunsUnitSum_eq, turned, length_cyclicTake]
            omega
          rw [wrapOccupancyRepeating_eq positive _ (by rw [period]; exact some) bounded, turned,
            cyclicTake_cyclicTake some (by omega), same]

/-- Both loops return what the walk over single units gives. -/
theorem wrapOccupancy_walks :
    (∀ cols used width count : Nat, 1 ≤ cols → used < cols →
      LoopEnds (runLoop cols width).step (2 * count + 1) ⟨used, count, (runLoop cols width).fresh⟩
          ((fun used => wrapAdvance used cols width)^[count] used) ∧
        wrapOccupancyRun used cols width count = (fun used => wrapAdvance used cols width)^[count] used) ∧
      ∀ (pattern : List WrapRun) (phase cols count : Nat), pattern ≠ [] → (∀ run ∈ pattern, 0 < run.2) → 1 ≤ cols →
        count ≤ u32Max →
          LoopEnds (repeatLoop pattern (wrapRunsUnitSum pattern) cols).step (2 * count + 1)
              ⟨0, count, (repeatLoop pattern (wrapRunsUnitSum pattern) cols).fresh⟩
              (advanceAll cols 0 (cyclicTake (expandRuns pattern) 0 count)) ∧
            (PhaseKept pattern phase →
              wrapOccupancyRepeatingFrom pattern phase cols count =
                advanceAll cols 0 (cyclicTake (expandRuns pattern) phase count)) := by
  refine ⟨?_, ?_⟩
  · intro cols used width count _ inside
    refine ⟨runLoop_ends inside width count, ?_⟩
    rw [wrapOccupancyRun_eq inside, advanceAll_replicate]
  · intro pattern phase cols count nonempty counts positive bounded
    have some := unitSum_pos nonempty counts
    exact ⟨repeatLoop_ends positive pattern some count (unitSum_whole pattern bounded),
      fun kept => wrapOccupancyRepeatingFrom_eq positive nonempty counts kept bounded⟩

/-- An ideograph and two letters, read from the second letter on. -/
theorem wrapOccupancy_walks_turned :
    wrapOccupancyRun 3 5 2 7 = (fun used => wrapAdvance used 5 2)^[7] 3 ∧ PhaseKept [(2, 1), (1, 2)] 2 ∧
      wrapOccupancyRepeatingFrom [(2, 1), (1, 2)] 2 5 9 =
        advanceAll 5 0 (cyclicTake (expandRuns [(2, 1), (1, 2)]) 2 9) := by
  have kept : PhaseKept [(2, 1), (1, 2)] 2 := .inr (by decide)
  exact ⟨(wrapOccupancy_walks.1 5 3 2 7 (by decide) (by decide)).2, kept,
    (wrapOccupancy_walks.2 [(2, 1), (1, 2)] 2 5 9 (by decide) (by decide) (by decide) (by decide)).2 kept⟩

/-- A pattern of `u32::MAX` letters and an ideograph has more units than its
period can say. Read from the ideograph on, it is read from the first letter. -/
theorem wrapOccupancyRepeatingFrom_loses_phase :
    wrapOccupancyRepeatingFrom [(1, u32Max), (2, 1)] u32Max 5 1 = 1 ∧
      advanceAll 5 0 (cyclicTake (expandRuns [(1, u32Max), (2, 1)]) u32Max 1) = 2 := by
  refine ⟨by decide +kernel, ?_⟩
  have length : (expandRuns [(1, u32Max), (2, 1)]).length = u32Max + 1 := length_expandRuns _
  have last : (expandRuns [(1, u32Max), (2, 1)]).getD u32Max 0 = 2 := by
    simp [expandRuns]
  have read : cyclicTake (expandRuns [(1, u32Max), (2, 1)]) u32Max 1 = [2] := by
    rw [cyclicTake, length]
    simpa using last
  rw [read]
  rfl

end Seyal.Terminal
