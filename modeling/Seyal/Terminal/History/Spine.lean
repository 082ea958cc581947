import Seyal.Terminal.History.Occupancy

namespace Seyal.Terminal

/-! The spine of a paragraph without a pattern: the column behind each of its
runs, kept in a byte. -/

/-- The runs that lie wholly within so many units. -/
def wholeRuns : Nat → List WrapRun → List WrapRun
  | _, [] => []
  | limit, run :: runs => if run.2 ≤ limit then run :: wholeRuns (limit - run.2) runs else []

/-- The column behind the last whole run. -/
def columnBehind (runs : List WrapRun) (cols limit : Nat) : Nat := advanceAll cols 0 (expandRuns (wholeRuns limit runs))

/-- How many units of the next run there are within the limit. -/
def unitsBehind (runs : List WrapRun) (limit : Nat) : Nat := limit - (expandRuns (wholeRuns limit runs)).length

/-- The column behind the last whole run fits a byte; or it is 256, is kept as 255, and then wide units of the next run
fill the row, which is of even length: the unit behind them begins a row from either column. -/
def ColumnFits (runs : List WrapRun) (cols limit : Nat) : Prop :=
  columnBehind runs cols limit ≤ 255 ∨
    columnBehind runs cols limit = 256 ∧ cols % 2 = 0 ∧
      (∃ count, runs[(wholeRuns limit runs).length]? = some (2, count)) ∧ cols - 256 < 2 * unitsBehind runs limit

/-- The stored spine is the one for the runs. -/
def WrapChain.SpineCurrent (chain : WrapChain) : Prop :=
  ∀ spine ∈ chain.spine, spine = buildSpine chain.runs spine.cols

theorem expandRuns_cons (width count : Nat) (runs : List WrapRun) :
    expandRuns ((width, count) :: runs) = List.replicate count width ++ expandRuns runs := rfl

theorem wholeRuns_split (limit : Nat) (runs : List WrapRun) :
    (expandRuns (wholeRuns limit runs)).length ≤ limit ∧
      (wholeRuns limit runs = runs ∨
        ∃ width count rest, runs = wholeRuns limit runs ++ (width, count) :: rest ∧
          limit < (expandRuns (wholeRuns limit runs)).length + count) := by
  induction runs generalizing limit with
  | nil => exact ⟨Nat.zero_le _, .inl rfl⟩
  | cons run runs ih =>
      obtain ⟨width, count⟩ := run
      rw [wholeRuns]
      split
      next fits =>
          obtain ⟨within, all | ⟨next, more, rest, split, beyond⟩⟩ := ih (limit - count)
          all_goals
            dsimp only at fits ⊢
            rw [expandRuns_cons, List.length_append, List.length_replicate]
            refine ⟨by omega, ?_⟩
          · exact .inl (by rw [all])
          · exact .inr ⟨next, more, rest, by rw [List.cons_append, ← split], by omega⟩
      next beyond => exact ⟨Nat.zero_le _, .inr ⟨width, count, runs, rfl, by simpa [expandRuns] using beyond⟩⟩

theorem buildSpineFrom_at {cols used : Nat} (inside : used < cols) (runs : List WrapRun) {total limit : Nat}
    (bounded : total + (expandRuns runs).length ≤ u32Max) (reached : total ≤ limit) :
    ((buildSpineFrom cols runs used total).2.takeWhile (· ≤ limit)).length = (wholeRuns (limit - total) runs).length ∧
      ∀ last, (wholeRuns (limit - total) runs).length = last + 1 →
        (buildSpineFrom cols runs used total).1.getD last 0 =
            min (advanceAll cols used (expandRuns (wholeRuns (limit - total) runs))) 255 ∧
          (buildSpineFrom cols runs used total).2.getD last 0 =
            total + (expandRuns (wholeRuns (limit - total) runs)).length := by
  induction runs generalizing used total with
  | nil => exact ⟨rfl, fun last none => by cases none⟩
  | cons run runs ih =>
      obtain ⟨width, count⟩ := run
      rw [expandRuns_cons, List.length_append, List.length_replicate] at bounded
      have sum : saturatingAdd 32 total count = total + count := by
        rw [saturatingAdd, ← u32Max_eq]
        omega
      have advanced := advanceAll_lt inside (List.replicate count width)
      rw [buildSpineFrom, wholeRuns]
      dsimp only
      rw [sum, wrapOccupancyRun_eq inside, Nat.min_eq_left (Nat.le_of_lt advanced)]
      split
      next fits =>
          have within : total + count ≤ limit := by omega
          obtain ⟨length, at_last⟩ := ih advanced (by omega) within
          rw [← Nat.sub_sub] at length at_last
          rw [List.takeWhile_cons_of_pos (by simpa using within), List.length_cons, List.length_cons, length]
          refine ⟨rfl, ?_⟩
          rintro last ⟨⟩
          rw [expandRuns_cons, advanceAll_append, List.length_append, List.length_replicate]
          cases whole : (wholeRuns (limit - total - count) runs).length with
          | zero =>
              rw [List.eq_nil_of_length_eq_zero whole]
              exact ⟨rfl, rfl⟩
          | succ last =>
              obtain ⟨column, units⟩ := at_last last whole
              rw [List.getD_cons_succ, List.getD_cons_succ, column, units, Nat.add_assoc]
              exact ⟨rfl, rfl⟩
      next beyond =>
          have beyond : ¬ total + count ≤ limit := by omega
          rw [List.takeWhile_cons_of_neg (by simpa using beyond)]
          exact ⟨rfl, fun last none => by cases none⟩

section Meets

variable {cols first second : Nat}

/-- The column on the cycle of the wide units that a column comes to. -/
def wideColumn (cols used : Nat) : Nat :=
  if cols % 2 = 0 then if used % 2 = 0 then used else if used + 1 = cols then 0 else used + 1
  else if used < 2 then cols - 1
  else if used % 2 = 0 then used
  else used - 1

theorem wrapAdvance_wide (long : 3 < cols) (inside : first < cols) :
    wrapAdvance first cols 2 = if first + 2 < cols then first + 2 else if first + 2 = cols then 0 else 2 := by
  unfold wrapAdvance
  simp only [show max 2 1 = 2 from rfl]
  split_ifs <;> omega

/-- Wide units move round one cycle of columns. -/
theorem wideColumn_wrapAdvance (long : 3 < cols) (inside : first < cols) :
    wideColumn cols first < cols ∧ wideColumn cols first % 2 = 0 ∧ (cols % 2 = 0 ∨ 0 < wideColumn cols first) ∧
      wideColumn cols (wrapAdvance first cols 2) =
      if wideColumn cols first + 2 < cols then wideColumn cols first + 2 else if cols % 2 = 0 then 0 else 2 := by
  rw [wrapAdvance_wide long inside]
  unfold wideColumn
  by_cases even : cols % 2 = 0
  · simp only [even, if_true, true_or, true_and]
    refine ⟨?_, ?_, ?_⟩ <;> split_ifs <;> omega
  · simp only [even, if_false, false_or]
    refine ⟨?_, ?_, ?_, ?_⟩ <;> split_ifs <;> omega

theorem advanceAll_wide_ne (long : 3 < cols) (one : first < cols) (two : second < cols)
    (apart : wideColumn cols first ≠ wideColumn cols second) (count : Nat) :
    advanceAll cols first (List.replicate count 2) ≠ advanceAll cols second (List.replicate count 2) := by
  induction count generalizing first second with
  | zero => exact fun same => apart (congrArg _ same)
  | succ count ih =>
      refine ih (wrapAdvance_lt (by omega) _ _) (wrapAdvance_lt (by omega) _ _) ?_
      obtain ⟨_, _, _, moved⟩ := wideColumn_wrapAdvance long one
      obtain ⟨_, _, _, movedToo⟩ := wideColumn_wrapAdvance long two
      rw [moved, movedToo]
      split_ifs <;> omega

theorem advanceAll_narrow_ne (long : 3 < cols) (one : first < cols) (two : second < cols) (apart : first ≠ second)
    (count : Nat) :
    advanceAll cols first (List.replicate count 1) ≠ advanceAll cols second (List.replicate count 1) := by
  induction count generalizing first second with
  | zero => exact apart
  | succ count ih =>
      refine ih (wrapAdvance_lt (by omega) _ _) (wrapAdvance_lt (by omega) _ _) ?_
      simp only [wrapAdvance, show max 1 1 = 1 from rfl]
      split_ifs <;> omega

theorem advanceAll_wide_row (long : 3 < cols) (count : Nat) (room : first + 2 * count < cols) :
    advanceAll cols first (List.replicate count 2) = first + 2 * count := by
  induction count generalizing first with
  | zero => rfl
  | succ count ih =>
      have next : wrapAdvance first cols 2 = first + 2 := by
        rw [wrapAdvance_wide long (by omega), if_pos (by omega)]
      rw [List.replicate_succ]
      change advanceAll cols (wrapAdvance first cols 2) _ = _
      rw [next, ih (by omega)]
      omega

/-- A byte keeps a column beyond 255 as 255. From there the same units come to the same column only if it was 256
and wide units fill the row, which is of even length. -/
theorem advanceAll_meets {width : Nat} (kind : width = 1 ∨ width = 2) (beyond : 255 < first) (inside : first < cols)
    (count : Nat) :
    advanceAll cols 255 (List.replicate count width) = advanceAll cols first (List.replicate count width) ↔
      first = 256 ∧ cols % 2 = 0 ∧ width = 2 ∧ cols - 256 < 2 * count := by
  have long : 3 < cols := by omega
  rcases kind with rfl | rfl
  · exact iff_of_false (advanceAll_narrow_ne long (by omega) inside (by omega) count) (by omega)
  by_cases meets : first = 256 ∧ cols % 2 = 0
  · obtain ⟨rfl, even⟩ := meets
    simp only [even, true_and]
    obtain ⟨half, rfl⟩ : ∃ half, cols = 258 + 2 * half := ⟨(cols - 258) / 2, by omega⟩
    have row := @advanceAll_wide_row (258 + 2 * half) 255 long
    have wideRow := @advanceAll_wide_row (258 + 2 * half) 256 long
    constructor
    · intro same
      by_contra early
      rw [row count (by omega)] at same
      cases count with
      | zero => cases same
      | succ count =>
          rw [List.replicate_succ', advanceAll_append, wideRow count (by omega)] at same
          change _ = wrapAdvance _ _ 2 at same
          rw [wrapAdvance_wide long (by omega)] at same
          split_ifs at same <;> omega
    · intro late
      obtain ⟨more, rfl⟩ : ∃ more, count = half + 2 + more := ⟨count - (half + 2), by omega⟩
      rw [List.replicate_add, List.replicate_add, advanceAll_append, advanceAll_append, advanceAll_append,
        advanceAll_append, row half (by omega), wideRow half (by omega)]
      congr 1
      change wrapAdvance (wrapAdvance _ _ 2) _ 2 = wrapAdvance (wrapAdvance _ _ 2) _ 2
      grind [wrapAdvance_wide]
  · refine iff_of_false (advanceAll_wide_ne long (by omega) inside ?_ count) (by omega)
    unfold wideColumn
    split_ifs <;> omega

end Meets

/-- What lies behind the whole runs: units of one width. -/
def cutUnits (runs : List WrapRun) (limit : Nat) : List Nat :=
  match runs[(wholeRuns limit runs).length]? with
  | some (width, _) => List.replicate (unitsBehind runs limit) width
  | none => []

theorem take_expandRuns (runs : List WrapRun) (limit : Nat) :
    (expandRuns runs).take limit = expandRuns (wholeRuns limit runs) ++ cutUnits runs limit := by
  unfold cutUnits unitsBehind
  obtain ⟨within, all | ⟨width, count, rest, whole, beyond⟩⟩ := wholeRuns_split limit runs
  · rw [all] at within ⊢
    rw [List.take_of_length_le within, List.getElem?_eq_none (Nat.le_refl _), List.append_nil]
  · generalize wholeRuns limit runs = front at whole within beyond ⊢
    have next : runs[front.length]? = some (width, count) := by
      rw [whole]
      simp
    rw [next, whole, expandRuns_append, expandRuns_cons, List.take_append, List.take_of_length_le within,
      List.take_append_of_le_length (by rw [List.length_replicate]; omega), List.take_replicate,
      Nat.min_eq_left (by omega)]

theorem spineOccupancy_eq {cols limit : Nat} (positive : 1 ≤ cols) {runs : List WrapRun}
    (bounded : (expandRuns runs).length ≤ u32Max) :
    spineOccupancy (buildSpine runs cols) runs cols limit =
      advanceAll cols (min (columnBehind runs cols limit) 255) (cutUnits runs limit) := by
  have inside : 0 < cols := positive
  obtain ⟨length, at_last⟩ := buildSpineFrom_at inside runs (show 0 + _ ≤ u32Max by omega) (Nat.zero_le limit)
  rw [Nat.sub_zero] at length at_last
  have column : (if (wholeRuns limit runs).length = 0 then 0
      else (buildSpine runs cols).afterRun.getD ((wholeRuns limit runs).length - 1) 0) =
      min (columnBehind runs cols limit) 255 := by
    split
    next none => rw [columnBehind, List.eq_nil_of_length_eq_zero none]; rfl
    next some => exact (at_last _ (by omega)).1
  have consumed : (if (wholeRuns limit runs).length = 0 then 0
      else (buildSpine runs cols).unitsAfter.getD ((wholeRuns limit runs).length - 1) 0) =
      (expandRuns (wholeRuns limit runs)).length := by
    split
    next none => rw [List.eq_nil_of_length_eq_zero none]; rfl
    next some => exact (at_last _ (by omega)).2.trans (Nat.zero_add _)
  have left : min (columnBehind runs cols limit) 255 < cols :=
    (Nat.min_le_left _ _).trans_lt (advanceAll_lt inside (expandRuns (wholeRuns limit runs)))
  have bare (none : unitsBehind runs limit = 0) : cutUnits runs limit = [] := by
    unfold cutUnits
    split
    · rw [none]
      rfl
    · rfl
  rw [spineOccupancy]
  split
  next none =>
      obtain rfl : limit = 0 := by omega
      have start : columnBehind runs cols 0 = 0 := by
        have empty := (wholeRuns_split 0 runs).1
        rw [columnBehind, List.eq_nil_of_length_eq_zero (Nat.le_zero.mp empty)]
        rfl
      rw [bare (Nat.zero_sub _), start]
      rfl
  next =>
      dsimp only
      rw [show ((buildSpine runs cols).unitsAfter.takeWhile fun units => units ≤ limit).length =
        (wholeRuns limit runs).length from length, column, consumed]
      split
      next done =>
          rw [bare (Nat.sub_eq_zero_of_le done)]
          exact Nat.min_eq_left (Nat.le_of_lt left)
      next =>
          unfold cutUnits
          obtain ⟨within, all | ⟨width, count, rest, whole, beyond⟩⟩ := wholeRuns_split limit runs
          · rw [List.getElem?_eq_none (by rw [all])]
            exact Nat.min_eq_left (Nat.le_of_lt left)
          · have next : runs[(wholeRuns limit runs).length]? = some (width, count) := by
              generalize wholeRuns limit runs = front at whole
              rw [whole]
              simp
            rw [next]
            dsimp only
            have part : min count (limit - (expandRuns (wholeRuns limit runs)).length) = unitsBehind runs limit :=
              Nat.min_eq_right (by omega)
            rw [wrapOccupancyRun_eq left, part, Nat.min_eq_left (Nat.le_of_lt (advanceAll_lt left _))]

/-- The byte of the last whole run is enough exactly under the condition. -/
theorem spineOccupancy_eq_iff {cols limit : Nat} (positive : 1 ≤ cols) {runs : List WrapRun}
    (widths : ∀ run ∈ runs, run.1 = 1 ∨ run.1 = 2) (bounded : (expandRuns runs).length ≤ u32Max) :
    spineOccupancy (buildSpine runs cols) runs cols limit = advanceAll cols 0 ((expandRuns runs).take limit) ↔
      ColumnFits runs cols limit := by
  have inside : columnBehind runs cols limit < cols := advanceAll_lt positive _
  rw [spineOccupancy_eq positive bounded, take_expandRuns, advanceAll_append, ← columnBehind, ColumnFits]
  rcases Nat.lt_or_ge 255 (columnBehind runs cols limit) with beyond | fits
  · rw [Nat.min_eq_right (Nat.le_of_lt beyond), or_iff_right (by omega), cutUnits]
    split
    next width count found =>
        rw [advanceAll_meets (widths _ (List.mem_of_getElem? found)) beyond inside, found]
        simp only [Option.some.injEq, Prod.mk.injEq, exists_and_left, exists_eq', and_true]
    next none =>
        rw [none]
        simp only [reduceCtorEq, exists_false, false_and, and_false, iff_false]
        exact Nat.ne_of_lt beyond
  · rw [Nat.min_eq_left fits]
    exact iff_of_true rfl (.inl fits)

variable {chain : WrapChain}

theorem ensureAperiodicSpine_eq (current : chain.SpineCurrent) (cols : Nat) :
    ensureAperiodicSpine chain cols = buildSpine chain.runs cols := by
  unfold ensureAperiodicSpine
  split
  next existing found =>
      split
      next same =>
          have built := current existing found
          rw [same.1] at built
          exact built
      next => rfl
  next => rfl

/-! A chain of the index drops its spine whenever its runs change. -/

theorem WrapChain.SpineCurrent.of_none (none : chain.spine = none) : chain.SpineCurrent := by
  intro spine found
  rw [none] at found
  cases found

theorem WrapChain.SpineCurrent.fragments (current : chain.SpineCurrent) (fragments : List WrapFragment) :
    { chain with fragments }.SpineCurrent := current

theorem WrapChain.SpineCurrent.opened (current : chain.SpineCurrent) («open» : Bool) :
    { chain with «open» }.SpineCurrent := current

theorem spine_noteAppendedWrapRun (chain : WrapChain) (pushedNew : Bool) :
    (noteAppendedWrapRun chain pushedNew).spine = none := by
  unfold noteAppendedWrapRun
  dsimp only
  repeat' split
  all_goals rfl

theorem spineCurrent_appendWrapUnits (current : chain.SpineCurrent) (units : List HistoryUnit) :
    (units.foldl appendWrapUnit chain).SpineCurrent := by
  induction units generalizing chain with
  | nil => exact current
  | cons unit units ih => exact ih (.of_none (spine_noteAppendedWrapRun _ _))

theorem spineCurrent_compactRepeatingWrapRuns (current : chain.SpineCurrent) :
    (compactRepeatingWrapRuns chain).SpineCurrent := by
  unfold compactRepeatingWrapRuns
  split
  · exact .of_none rfl
  · exact current

theorem spineCurrent_appendCompactedWrapRuns (current : chain.SpineCurrent) (prefixUnits : Nat)
    (units : List HistoryUnit) (index : Nat) :
    (appendCompactedWrapRuns chain prefixUnits units index).SpineCurrent := by
  induction units generalizing index with
  | nil => exact current
  | cons unit units ih =>
      rw [appendCompactedWrapRuns]
      dsimp only
      split
      · exact ih (index + 1)
      · exact .of_none rfl

theorem spineCurrent_extendWrapChain (current : chain.SpineCurrent) (line : HistoryLine) :
    (extendWrapChain chain line).SpineCurrent := by
  unfold extendWrapChain
  dsimp only
  refine WrapChain.SpineCurrent.opened ?_ _
  split
  · exact spineCurrent_appendCompactedWrapRuns (current.fragments _) _ _ _
  · exact spineCurrent_compactRepeatingWrapRuns (spineCurrent_appendWrapUnits (current.fragments _) _)

theorem spineCurrent_trimWrapChainSuffix (current : chain.SpineCurrent) (cut : HistoryAnchor) :
    (trimWrapChainSuffix chain cut).SpineCurrent := by
  unfold trimWrapChainSuffix
  dsimp only
  split
  · exact current
  · refine WrapChain.SpineCurrent.opened ?_ _
    split
    · split
      · exact .of_none rfl
      · exact current.fragments _
    · exact .of_none rfl

theorem spineCurrent_trimWrapChainPrefix (chain : WrapChain) (keep : HistoryAnchor) :
    (trimWrapChainPrefix chain keep).SpineCurrent := by
  unfold trimWrapChainPrefix
  dsimp only
  repeat' split
  all_goals exact .of_none rfl

theorem spineCurrent_wrapOccupancyIndexed (current : chain.SpineCurrent) (cols units : Nat) :
    (wrapOccupancyIndexed chain cols units).2.SpineCurrent := by
  unfold wrapOccupancyIndexed
  split
  · exact current
  · unfold wrapOccupancyAperiodic
    split
    · exact current
    · split
      · rintro spine ⟨⟩
        rw [ensureAperiodicSpine_eq current]
        rfl
      · exact current

/-- The chains of the index: a paragraph is opened, takes its lines, is cut at
either end, closed and asked for columns. -/
inductive WrapChain.Indexed : WrapChain → Prop
  | empty : Indexed {}
  | extended {chain : WrapChain} (line : HistoryLine) : chain.Indexed → Indexed (extendWrapChain chain line)
  | closed {chain : WrapChain} : chain.Indexed → Indexed { chain with «open» := false }
  | compacted {chain : WrapChain} : chain.Indexed → Indexed (compactRepeatingWrapRuns chain)
  | cutBehind {chain : WrapChain} (cut : HistoryAnchor) : chain.Indexed → Indexed (trimWrapChainSuffix chain cut)
  | cutBefore {chain : WrapChain} (keep : HistoryAnchor) : chain.Indexed → Indexed (trimWrapChainPrefix chain keep)
  | asked {chain : WrapChain} (cols units : Nat) : chain.Indexed → Indexed (wrapOccupancyIndexed chain cols units).2

theorem WrapChain.Indexed.spineCurrent (indexed : chain.Indexed) : chain.SpineCurrent := by
  induction indexed with
  | empty => exact .of_none rfl
  | extended line _ ih => exact spineCurrent_extendWrapChain ih line
  | closed _ ih => exact ih.opened false
  | compacted _ ih => exact spineCurrent_compactRepeatingWrapRuns ih
  | cutBehind cut _ ih => exact spineCurrent_trimWrapChainSuffix ih cut
  | cutBefore keep _ _ => exact spineCurrent_trimWrapChainPrefix _ keep
  | asked cols units _ ih => exact spineCurrent_wrapOccupancyIndexed ih cols units

/-- The spine, kept or built for the occasion, gives the column of the walk
exactly if the byte for the column behind the last whole run is enough. -/
theorem spine_agrees (runs : List WrapRun) (cols limit : Nat) (widths : ∀ run ∈ runs, run.1 = 1 ∨ run.1 = 2)
    (total : (runs.map (·.2)).sum ≤ u32Max) (positive : 1 ≤ cols) :
    (wrapOccupancyWithEphemeralSpine runs cols limit = wrapOccupancyRuns runs cols limit ↔
        ColumnFits runs cols limit) ∧
      ∀ chain : WrapChain, chain.runs = runs → chain.spine = none ∨ chain.Indexed →
        (spineOccupancy (ensureAperiodicSpine chain cols) runs cols limit = wrapOccupancyRuns runs cols limit ↔
          ColumnFits runs cols limit) := by
  have bounded : (expandRuns runs).length ≤ u32Max := by
    rw [length_expandRuns]
    exact total
  have plain : wrapOccupancyRuns runs cols limit = advanceAll cols 0 ((expandRuns runs).take limit) :=
    wrapOccupancyRunsFrom_eq positive runs limit
  have spine := @spineOccupancy_eq_iff cols limit positive runs widths bounded
  rw [← plain] at spine
  refine ⟨?_, ?_⟩
  · have same : wrapOccupancyWithEphemeralSpine runs cols limit =
        spineOccupancy (buildSpine runs cols) runs cols limit := by
      rw [wrapOccupancyWithEphemeralSpine]
      split
      next none =>
          obtain zero | zero | empty := none
          · omega
          · rw [spineOccupancy, if_pos (.inl zero)]
          · rw [List.isEmpty_iff.mp empty, spineOccupancy_eq positive (by simp [expandRuns])]
            rfl
      next => rfl
    rw [same]
    exact spine
  · intro chain held reached
    have current : chain.SpineCurrent := reached.elim .of_none WrapChain.Indexed.spineCurrent
    rw [ensureAperiodicSpine_eq current, held]
    exact spine

/-- Two hundred and fifty-six letters and ideographs behind them: on three hundred columns the byte is wrong by one,
and from the ideograph that begins the next row on nothing of that is left. -/
theorem spine_agrees_mixed :
    ColumnFits [(1, 256), (2, 40)] 300 280 ∧ ¬ ColumnFits [(1, 256), (2, 40)] 300 260 ∧
      wrapOccupancyWithEphemeralSpine [(1, 256), (2, 40)] 300 280 = wrapOccupancyRuns [(1, 256), (2, 40)] 300 280 ∧
      wrapOccupancyWithEphemeralSpine [(1, 256), (2, 40)] 300 260 ≠
        wrapOccupancyRuns [(1, 256), (2, 40)] 300 260 := by
  have agrees (limit : Nat) := (spine_agrees [(1, 256), (2, 40)] 300 limit (by decide) (by decide) (by decide)).1
  have fits : ColumnFits [(1, 256), (2, 40)] 300 280 := .inr ⟨by decide +kernel, rfl, ⟨40, rfl⟩, by decide +kernel⟩
  have misses : ¬ ColumnFits [(1, 256), (2, 40)] 300 260 := by
    rintro (small | ⟨_, _, _, late⟩)
    · exact absurd small (by decide +kernel)
    · exact absurd late (by decide +kernel)
  exact ⟨fits, misses, (agrees 280).mpr fits, mt (agrees 260).mp misses⟩

/-- A run that ends behind column 255 is recorded as ending there. -/
theorem spine_saturates :
    wrapOccupancyWithEphemeralSpine [(1, 260)] 300 260 = 255 ∧
      spineOccupancy (ensureAperiodicSpine { runs := [(1, 260)] } 300) [(1, 260)] 300 260 = 255 ∧
      wrapOccupancyRuns [(1, 260)] 300 260 = 260 := by
  have spine : spineOccupancy (buildSpine [(1, 260)] 300) [(1, 260)] 300 260 = 255 :=
    (spineOccupancy_eq (by decide) (by decide +kernel)).trans (by decide +kernel)
  have walk := wrapOccupancyRunsFrom_eq (show 0 < 300 by decide) [(1, 260)] 260
  refine ⟨?_, ?_, walk.trans (by decide +kernel)⟩
  · rw [wrapOccupancyWithEphemeralSpine, if_neg (by decide), spine]
  · rw [ensureAperiodicSpine_eq (.of_none rfl), spine]

end Seyal.Terminal
