import Seyal.Terminal.History.Types

namespace Seyal.Terminal

open Program

/-! Width runs of soft-wrapped paragraphs and the column they end in. -/

abbrev WrapRun := Nat × Nat

structure WrapFragment where
  lineId : LineId
  startOffset : Nat
  unitCount : Nat
  prefixUnits : Nat
  deriving Repr, DecidableEq

def WrapFragment.anchor (fragment : WrapFragment) : HistoryAnchor :=
  ⟨fragment.lineId, fragment.startOffset⟩

structure WrapOccupancySpine where
  cols : Nat
  runLen : Nat
  afterRun : List Nat
  unitsAfter : List Nat
  deriving Repr, DecidableEq

/-- One paragraph of the index. `patternLen` from two up is the length of the
repeating template that `runs` starts with; `patternPhase` units of it have been
dropped from the front. -/
structure WrapChain where
  fragments : List WrapFragment := []
  runs : List WrapRun := []
  patternLen : Nat := 0
  patternPhase : Nat := 0
  «open» : Bool := false
  spine : Option WrapOccupancySpine := none
  deriving Repr, DecidableEq

def wrapPatternMax : Nat := 8

def aperiodicInlineRunBound : Nat := 64

def WrapChain.invalidateSpine (chain : WrapChain) : WrapChain := { chain with spine := none }

def WrapChain.unitsBefore (chain : WrapChain) (position : HistoryAnchor) : Nat :=
  match chain.fragments.find? fun fragment => fragment.anchor = position with
  | some fragment => fragment.prefixUnits
  | none =>
      match (chain.fragments.takeWhile fun fragment => fragment.anchor < position).getLast? with
      | none => 0
      | some previous =>
          if previous.lineId = position.lineId ∧ position.unitOffset > previous.startOffset then
            saturatingAdd 32 previous.prefixUnits
              (min (position.unitOffset - previous.startOffset) previous.unitCount)
          else if previous.lineId < position.lineId then
            saturatingAdd 32 previous.prefixUnits previous.unitCount
          else 0

def wrapRunsUnitSum (runs : List WrapRun) : Nat :=
  runs.foldl (fun total run => saturatingAdd 32 total run.2) 0

def wrapChainPattern (chain : WrapChain) : Option (List WrapRun) :=
  if chain.patternLen ≥ 2 ∧ chain.runs.length ≥ chain.patternLen then
    some (chain.runs.take chain.patternLen)
  else none

def wrapPatternPeriodUnits (chain : WrapChain) : Nat :=
  match wrapChainPattern chain with
  | none => 0
  | some pattern => wrapRunsUnitSum pattern

def wrapChainIsCompacted (chain : WrapChain) (runUnits virtualUnits : Nat) : Bool :=
  chain.patternLen ≥ 2 && chain.runs.length ≤ chain.patternLen && runUnits < virtualUnits

def compactRepeatingWrapRuns (chain : WrapChain) : WrapChain :=
  if chain.patternLen ≥ 2 ∧ chain.runs.length > chain.patternLen then
    { chain.invalidateSpine with runs := chain.runs.take chain.patternLen }
  else chain

/-- One more run at the end, merged with the last one when the width is the same. -/
def extendRuns (runs : List WrapRun) (width count : Nat) : List WrapRun :=
  match runs.getLast? with
  | none => [(width, count)]
  | some (lastWidth, lastCount) =>
      if lastWidth = width then runs.dropLast ++ [(width, saturatingAdd 32 lastCount count)]
      else runs ++ [(width, count)]

def wrapPatternWidthFrom : List WrapRun → Nat → Option Nat
  | [], _ => none
  | (width, count) :: rest, index =>
      if index < count then some width else wrapPatternWidthFrom rest (index - count)

def wrapPatternWidthAt (pattern : List WrapRun) (index : Nat) : Option Nat :=
  let period := wrapRunsUnitSum pattern
  if period = 0 then none else wrapPatternWidthFrom pattern (index % period)

structure PatternSlice where
  offset : Nat
  remaining : Nat
  runs : List WrapRun

/-- One pass over the template: runs in front of the offset are skipped. -/
def wrapPatternSlicePass : List WrapRun → Nat → PatternSlice → PatternSlice
  | [], _, state => state
  | (width, runCount) :: rest, index, state =>
      if state.remaining = 0 then state
      else
        let runEnd := saturatingAdd 32 index runCount
        if state.offset ≥ runEnd then wrapPatternSlicePass rest runEnd state
        else
          let taken := min (runCount - (state.offset - index)) state.remaining
          if taken > 0 then
            wrapPatternSlicePass rest runEnd
              { offset := 0
                remaining := state.remaining - taken
                runs := extendRuns state.runs width taken }
          else wrapPatternSlicePass rest runEnd state

/-- Every pass takes at least one unit or is the last. -/
def wrapPatternSliceLoop (pattern : List WrapRun) : Nat → PatternSlice → List WrapRun
  | 0, state => state.runs
  | fuel + 1, state =>
      if state.remaining = 0 then state.runs
      else
        let next := wrapPatternSlicePass pattern 0 state
        if next.remaining = state.remaining then next.runs else wrapPatternSliceLoop pattern fuel next

def wrapPatternSlice (pattern : List WrapRun) (start count : Nat) : List WrapRun :=
  let period := wrapRunsUnitSum pattern
  if period = 0 ∨ count = 0 then []
  else wrapPatternSliceLoop pattern (count + 1) { offset := start % period, remaining := count, runs := [] }

/-- Units that follow the template leave it alone; the first that does not
turns the chain back into plain runs. -/
def appendCompactedWrapRuns (chain : WrapChain) (prefixUnits : Nat) : List HistoryUnit → Nat → WrapChain
  | [], _ => chain
  | unit :: rest, index =>
      let width := max unit.width 1
      let unitIndex := saturatingAdd 32 (saturatingAdd 32 chain.patternPhase prefixUnits) (index % 2 ^ 32)
      if wrapPatternWidthAt chain.runs unitIndex = some width then
        appendCompactedWrapRuns chain prefixUnits rest (index + 1)
      else
        { chain.invalidateSpine with
          runs := (unit :: rest).foldl (fun runs unit => extendRuns runs (max unit.width 1) 1)
            (wrapPatternSlice chain.runs chain.patternPhase
              (saturatingAdd 32 prefixUnits (index % 2 ^ 32)))
          patternPhase := 0
          patternLen := 0 }

def wrapRunExtendsPattern (runs : List WrapRun) (period : Nat) (pushedNew : Bool) : Bool :=
  let count := runs.length
  if period = 0 ∨ count ≤ period then true
  else if pushedNew ∧ runs[count - 2]? ≠ runs[(count - 2) % period]? then false
  else
    match runs[(count - 1) % period]?, runs[count - 1]? with
    | some template, some run => run.1 = template.1 && run.2 ≤ template.2
    | _, _ => false

def noteAppendedWrapRun (chain : WrapChain) (pushedNew : Bool) : WrapChain :=
  let chain := chain.invalidateSpine
  let count := chain.runs.length
  if count ≤ 1 then { chain with patternLen := count }
  else if chain.patternLen ≥ 2 then
    if count ≤ chain.patternLen then chain
    else if wrapRunExtendsPattern chain.runs chain.patternLen pushedNew then chain
    else { chain with patternLen := if count ≤ wrapPatternMax then count else 0 }
  else if count ≤ wrapPatternMax then { chain with patternLen := count }
  else chain

def notePatternAfterSuffixTrim (chain : WrapChain) : WrapChain :=
  let count := chain.runs.length
  if count ≤ 1 then { chain with patternLen := count }
  else if chain.patternLen ≥ 2 then
    if count ≤ chain.patternLen then { chain with patternLen := count }
    else
      match chain.runs[(count - 1) % chain.patternLen]?, chain.runs[count - 1]? with
      | some template, some run =>
          if run.1 ≠ template.1 ∨ run.2 > template.2 then
            { chain with patternLen := if count ≤ wrapPatternMax then count else 0 }
          else chain
      | _, _ => chain
  else if count ≤ wrapPatternMax then { chain with patternLen := count }
  else chain

def notePatternAfterPrefixTrim (chain : WrapChain) (dropUnits periodUnits : Nat) : WrapChain :=
  let count := chain.runs.length
  if count ≤ 1 then { chain with patternLen := count }
  else if count ≤ wrapPatternMax ∧ count ≤ chain.patternLen then { chain with patternLen := count }
  else if chain.patternLen ≥ 2 ∧ periodUnits > 0 ∧ dropUnits % periodUnits = 0 then chain
  else { chain with patternLen := 0 }

/-- Drops units from the front of the runs. -/
def dropPrefixWrapRuns : List WrapRun → Nat → List WrapRun
  | [], _ => []
  | (width, count) :: rest, remaining =>
      if remaining = 0 then (width, count) :: rest
      else if count ≤ remaining then dropPrefixWrapRuns rest (remaining - count)
      else (width, count - remaining) :: rest

/-- Drops units from the back of the runs. -/
def dropSuffixWrapRuns (runs : List WrapRun) (dropUnits : Nat) : List WrapRun :=
  (dropPrefixWrapRuns runs.reverse dropUnits).reverse

def wrapAdvance (used cols unitWidth : Nat) : Nat :=
  let unitWidth := max unitWidth 1
  let used := if used > 0 ∧ used + unitWidth > cols then 0 else used
  if unitWidth > cols then 0
  else if used + unitWidth ≥ cols then 0
  else used + unitWidth

/-- Advances `remaining` units of one width. `seen` remembers, per column, how
many units were left there, so that a repeated column gives the cycle. -/
def wrapOccupancyRunLoop (cols unitWidth : Nat) : Nat → Nat → Nat → List (Option Nat) → Nat
  | 0, used, _, _ => min used cols
  | fuel + 1, used, remaining, seen =>
      if remaining = 0 then min used cols
      else
        match if used ≤ cols then seen[used]?.join else none with
        | some remainingThen =>
            let cycle := remainingThen - remaining
            if cycle > 0 then
              if remaining % cycle = 0 then min used cols
              else wrapOccupancyRunLoop cols unitWidth fuel used (remaining % cycle)
                (List.replicate (cols + 1) none)
            else wrapOccupancyRunLoop cols unitWidth fuel (wrapAdvance used cols unitWidth)
              (remaining - 1) seen
        | none =>
            wrapOccupancyRunLoop cols unitWidth fuel (wrapAdvance used cols unitWidth) (remaining - 1)
              (if used ≤ cols then seen.set used (some remaining) else seen)

def wrapOccupancyRun (used cols unitWidth count : Nat) : Nat :=
  if cols = 0 then 0
  else if count = 0 then min used cols
  else wrapOccupancyRunLoop cols unitWidth (2 * count + 1) used count (List.replicate (cols + 1) none)

def wrapOccupancyRunsFrom (cols : Nat) : List WrapRun → Nat → Nat → Nat
  | [], used, _ => min used cols
  | (width, count) :: rest, used, left =>
      if left = 0 then min used cols
      else
        let taken := min count left
        wrapOccupancyRunsFrom cols rest (wrapOccupancyRun used cols width taken) (left - taken)

def wrapOccupancyRuns (runs : List WrapRun) (cols unitLimit : Nat) : Nat :=
  wrapOccupancyRunsFrom cols runs 0 unitLimit

def wrapOccupancyPatternOnce (used : Nat) (pattern : List WrapRun) (cols unitLimit : Nat) : Nat :=
  wrapOccupancyRunsFrom cols pattern used unitLimit

/-- The same cycle search over whole periods of a template. -/
def wrapOccupancyRepeatingLoop (pattern : List WrapRun) (patternUnits cols : Nat) :
    Nat → Nat → Nat → List (Option Nat) → Nat
  | 0, used, _, _ => min used cols
  | fuel + 1, used, remaining, seen =>
      if remaining = 0 then min used cols
      else
        let taken := min remaining patternUnits
        match if used ≤ cols then seen[used]?.join else none with
        | some remainingThen =>
            let cycle := remainingThen - remaining
            if cycle > 0 then
              wrapOccupancyRepeatingLoop pattern patternUnits cols fuel used (remaining % cycle)
                (List.replicate (cols + 1) none)
            else wrapOccupancyRepeatingLoop pattern patternUnits cols fuel
              (wrapOccupancyPatternOnce used pattern cols taken) (remaining - taken) seen
        | none =>
            wrapOccupancyRepeatingLoop pattern patternUnits cols fuel
              (wrapOccupancyPatternOnce used pattern cols taken) (remaining - taken)
              (if used ≤ cols then seen.set used (some remaining) else seen)

def wrapOccupancyRepeating (pattern : List WrapRun) (cols unitLimit : Nat) : Nat :=
  let patternUnits := wrapRunsUnitSum pattern
  if cols = 0 ∨ patternUnits = 0 ∨ unitLimit = 0 then 0
  else wrapOccupancyRepeatingLoop pattern patternUnits cols (2 * unitLimit + 1) 0 unitLimit
    (List.replicate (cols + 1) none)

def wrapOccupancyRepeatingFrom (pattern : List WrapRun) (phase cols units : Nat) : Nat :=
  let period := wrapRunsUnitSum pattern
  if period = 0 then 0
  else if phase % period = 0 then wrapOccupancyRepeating pattern cols units
  else wrapOccupancyRepeating (wrapPatternSlice pattern (phase % period) period) cols units

def wrapRunsMatchPeriod (runs : List WrapRun) (period : Nat) : Bool :=
  2 ≤ period && period ≤ runs.length &&
    (List.range' period (runs.length - period)).all fun index =>
      match runs[index]?, runs[index % period]? with
      | some run, some template =>
          run.1 = template.1 &&
            (if index + 1 = runs.length then decide (run.2 ≤ template.2) else decide (run.2 = template.2))
      | _, _ => false

def wrapRepeatingPeriod (runs : List WrapRun) : Option Nat :=
  if runs.length < 2 then none
  else (List.range' 2 (min runs.length wrapPatternMax - 1)).find? fun period =>
    runs.length > period && wrapRunsMatchPeriod runs period

def buildSpineFrom (width : Nat) : List WrapRun → Nat → Nat → List Nat × List Nat
  | [], _, _ => ([], [])
  | (unitWidth, count) :: rest, used, totalUnits =>
      let used := wrapOccupancyRun used width unitWidth count
      let totalUnits := saturatingAdd 32 totalUnits count
      let (afterRun, unitsAfter) := buildSpineFrom width rest used totalUnits
      (min (min used width) 255 :: afterRun, totalUnits :: unitsAfter)

def buildSpine (runs : List WrapRun) (cols : Nat) : WrapOccupancySpine :=
  let (afterRun, unitsAfter) := buildSpineFrom cols runs 0 0
  { cols, runLen := runs.length, afterRun, unitsAfter }

def spineOccupancy (spine : WrapOccupancySpine) (runs : List WrapRun) (cols unitLimit : Nat) : Nat :=
  if unitLimit = 0 ∨ cols = 0 then 0
  else
    let fully := (spine.unitsAfter.takeWhile fun units => units ≤ unitLimit).length
    let used := if fully = 0 then 0 else spine.afterRun.getD (fully - 1) 0
    let consumed := if fully = 0 then 0 else spine.unitsAfter.getD (fully - 1) 0
    if consumed ≥ unitLimit then min used cols
    else
      match runs[fully]? with
      | some (width, count) => min (wrapOccupancyRun used cols width (min count (unitLimit - consumed))) cols
      | none => min used cols

def wrapOccupancyWithEphemeralSpine (runs : List WrapRun) (cols unitLimit : Nat) : Nat :=
  if cols = 0 ∨ unitLimit = 0 ∨ runs.isEmpty then 0
  else spineOccupancy (buildSpine runs cols) runs cols unitLimit

def wrapOccupancyForRuns (runs : List WrapRun) (cols unitLimit : Nat) : Nat :=
  match wrapRepeatingPeriod runs with
  | some period => wrapOccupancyRepeating (runs.take period) cols unitLimit
  | none =>
      if runs.length > aperiodicInlineRunBound then wrapOccupancyWithEphemeralSpine runs cols unitLimit
      else wrapOccupancyRuns runs cols unitLimit

/-- The spine is kept with the chain until its runs change. -/
def ensureAperiodicSpine (chain : WrapChain) (cols : Nat) : WrapOccupancySpine :=
  match chain.spine with
  | some existing =>
      if existing.cols = cols ∧ existing.runLen = chain.runs.length then existing
      else buildSpine chain.runs cols
  | none => buildSpine chain.runs cols

def wrapOccupancyAperiodic (chain : WrapChain) (cols units : Nat) : Nat × WrapChain :=
  if cols = 0 ∨ units = 0 ∨ chain.runs.isEmpty then (0, chain)
  else if chain.runs.length > aperiodicInlineRunBound then
    let spine := ensureAperiodicSpine chain (min cols (2 ^ 16 - 1))
    (spineOccupancy spine chain.runs cols units, { chain with spine := some spine })
  else (wrapOccupancyForRuns chain.runs cols units, chain)

/-- The column after `units` units of the chain, and the chain with its spine. -/
def wrapOccupancyIndexed (chain : WrapChain) (cols units : Nat) : Nat × WrapChain :=
  match wrapChainPattern chain with
  | some pattern => (wrapOccupancyRepeatingFrom pattern chain.patternPhase cols units, chain)
  | none => wrapOccupancyAperiodic chain cols units

def appendWrapUnit (chain : WrapChain) (unit : HistoryUnit) : WrapChain :=
  let width := max unit.width 1
  let runs := extendRuns chain.runs width 1
  noteAppendedWrapRun { chain with runs } (runs.length > chain.runs.length)

def extendWrapChain (chain : WrapChain) (line : HistoryLine) : WrapChain :=
  let prefixUnits := (chain.fragments.getLast?).elim 0 fun fragment =>
    saturatingAdd 32 fragment.prefixUnits fragment.unitCount
  let fragment : WrapFragment :=
    { lineId := line.lineId
      startOffset := line.startOffset
      unitCount := min line.units.length u32Max
      prefixUnits }
  let chain := { chain with fragments := chain.fragments ++ [fragment] }
  let chain :=
    if wrapChainIsCompacted chain (wrapRunsUnitSum chain.runs) prefixUnits then
      appendCompactedWrapRuns chain prefixUnits line.units 0
    else compactRepeatingWrapRuns (line.units.foldl appendWrapUnit chain)
  { chain with «open» := line.breakAfter = .softWrap }

def trimWrapChainSuffix (chain : WrapChain) (cut : HistoryAnchor) : WrapChain :=
  let keepUnits := chain.unitsBefore cut
  let total := (chain.fragments.getLast?).elim 0 fun fragment =>
    saturatingAdd 32 fragment.prefixUnits fragment.unitCount
  if keepUnits ≥ total then chain
  else
    let kept := chain.fragments.takeWhile fun fragment => fragment.anchor < cut
    let fragments := kept.modifyLast fun last =>
      if last.lineId = cut.lineId ∧ last.startOffset < cut.unitOffset then
        { last with unitCount := min (cut.unitOffset - last.startOffset) last.unitCount }
      else last
    let chain := { chain with fragments }
    let chain :=
      if wrapChainIsCompacted chain (wrapRunsUnitSum chain.runs) total then
        if keepUnits = 0 then
          { chain.invalidateSpine with runs := [], patternLen := 0, patternPhase := 0 }
        else chain
      else
        (notePatternAfterSuffixTrim
          { chain with runs := dropSuffixWrapRuns chain.runs (total - keepUnits) }).invalidateSpine
    { chain with «open» := true }

def renumberFragments : Nat → List WrapFragment → List WrapFragment
  | _, [] => []
  | prefixUnits, fragment :: rest =>
      { fragment with prefixUnits } :: renumberFragments (saturatingAdd 32 prefixUnits fragment.unitCount) rest

def trimWrapChainPrefix (chain : WrapChain) (keep : HistoryAnchor) : WrapChain :=
  let dropUnits := chain.unitsBefore keep
  let fragments := renumberFragments 0 (chain.fragments.dropWhile fun fragment => fragment.anchor < keep)
  let total := (fragments.getLast?).elim 0 fun fragment =>
    saturatingAdd 32 fragment.prefixUnits fragment.unitCount
  let chain := { chain with fragments }
  if wrapChainIsCompacted chain (wrapRunsUnitSum chain.runs) (saturatingAdd 32 dropUnits total) then
    if total = 0 then { chain.invalidateSpine with runs := [], patternLen := 0, patternPhase := 0 }
    else { chain.invalidateSpine with patternPhase := saturatingAdd 32 chain.patternPhase dropUnits }
  else
    (notePatternAfterPrefixTrim { chain with runs := dropPrefixWrapRuns chain.runs dropUnits } dropUnits
      (wrapPatternPeriodUnits chain)).invalidateSpine

end Seyal.Terminal
