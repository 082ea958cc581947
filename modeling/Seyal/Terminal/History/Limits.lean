import Seyal.Terminal.History.Paragraphs

namespace Seyal.Terminal

open Program Reflow

/-! A reflow with a limit on its rows, against the whole one. -/

/-- Lines up to a hard break fill exactly so many rows, the last of them with a
unit that is wider than a row. -/
def LimitAtWideEnd [Unicode] (cols : Nat) (lines : List HistoryLine) (limit : Nat) : Prop :=
  ∃ front line behind, lines = front ++ line :: behind ∧ line.breakAfter = .hardBreak ∧
    (∃ units ∈ (paragraphs (front ++ [line])).getLast?, EndsWide cols units) ∧
    (layRows cols [] {} (front ++ [line])).length = limit

theorem fillUnits_append (cols : Nat) (held units : List PlacedUnit) :
    fillUnits cols (fillUnits cols {} held) units = fillUnits cols {} (held ++ units) :=
  (List.foldl_append ..).symm

theorem hardPieces_getLast? {front : List HistoryLine} {line : HistoryLine} (hard : line.breakAfter = .hardBreak)
    (units held : List PlacedUnit) :
    (units :: hardPieces (·.breakAfter = .hardBreak) HistoryLine.anchoredUnits held (front ++ [line])).getLast? =
      (hardPieces (·.breakAfter = .hardBreak) HistoryLine.anchoredUnits held (front ++ [line])).getLast? := by
  have nonempty : hardPieces (·.breakAfter = .hardBreak) HistoryLine.anchoredUnits held (front ++ [line]) ≠ [] := by
    intro empty
    have none := congrArg List.length empty
    rw [length_hardPieces] at none
    simp [hard] at none
  obtain ⟨first, rest, whole⟩ := List.exists_cons_of_ne_nil nonempty
  rw [whole, List.getLast?_cons_cons]

theorem endsWide_of_bare {cols : Nat} {units : List PlacedUnit} (bare : (fillUnits cols {} units).current = [])
    (nonempty : (fillUnits cols {} units).done ≠ []) : EndsWide cols units := by
  have flat : (fillUnits cols {} units).rows.flatten = units := Fill.flatten_places {} units
  obtain ⟨front, last, whole⟩ := (List.eq_nil_or_concat' _).resolve_left nonempty
  have shaped : (fillUnits cols {} units).Shaped PlacedUnit.columns cols := (Fill.Shaped.start 0).places units
  obtain ⟨unit, rfl, wide⟩ := shaped.alone bare last (by rw [whole, List.getLast?_concat]; rfl)
  refine ⟨unit, ?_, wide⟩
  rw [← flat, Fill.rows_of_bare bare, whole, List.flatten_append, List.flatten_singleton, List.getLast?_concat]
  rfl

section Limits

variable [Unicode] {cols limit : Nat} {before rows : List ReflowRow} {held : List PlacedUnit}

/-- The same for the lines that are still to come, behind the held units. -/
def Spares (cols limit : Nat) (before : List ReflowRow) (held : List PlacedUnit) (lines : List HistoryLine) : Prop :=
  ∀ front line behind, lines = front ++ line :: behind → line.breakAfter = .hardBreak →
    (∃ units ∈ (hardPieces (·.breakAfter = .hardBreak) HistoryLine.anchoredUnits held (front ++ [line])).getLast?,
      EndsWide cols units) →
    (layRows cols before (fillUnits cols {} held) (front ++ [line])).length ≠ limit

variable {line : HistoryLine} {lines : List HistoryLine}

theorem Spares.soft (spares : Spares cols limit before held (line :: lines)) (soft : line.breakAfter ≠ .hardBreak) :
    Spares cols limit before (held ++ line.anchoredUnits) lines := by
  intro front last behind split hard wide
  have whole := spares (line :: front) last behind (by rw [split]; rfl) hard
  rw [List.cons_append, hardPieces, if_neg (by simpa using soft), layRows_soft soft, fillUnits_append] at whole
  exact whole wide

theorem Spares.hard (spares : Spares cols limit before held (line :: lines)) (hard : line.breakAfter = .hardBreak) :
    Spares cols limit
      (closeRows cols before (fillUnits cols {} (held ++ line.anchoredUnits)).rows line.lineId) [] lines := by
  intro front last behind split lastHard wide
  have whole := spares (line :: front) last behind (by rw [split]; rfl) lastHard
  rw [List.cons_append, hardPieces, if_pos (by simpa using hard), hardPieces_getLast? lastHard,
    layRows_hard hard, fillUnits_append] at whole
  exact whole wide

theorem Spares.here (spares : Spares cols limit before held (line :: lines)) (hard : line.breakAfter = .hardBreak)
    (wide : EndsWide cols (held ++ line.anchoredUnits)) :
    (closeRows cols before (fillUnits cols {} (held ++ line.anchoredUnits)).rows line.lineId).length ≠ limit := by
  have whole := spares [] line lines rfl hard
  rw [List.nil_append, hardPieces, if_pos (by simpa using hard), layRows_hard hard, fillUnits_append] at whole
  have rows := whole ⟨_, rfl, wide⟩
  rw [layRows, paragraphRows_soft] at rows
  simpa [Fill.rows] using rows

theorem prefix_closeRows (groups : List (List PlacedUnit)) (lineId : LineId) :
    before <+: closeRows cols before groups lineId := by
  unfold closeRows
  split
  · split
    · exact List.prefix_rfl
    · exact List.prefix_append _ _
  · exact List.prefix_append _ _

theorem prefix_layRows (fill : Fill PlacedUnit) (lines : List HistoryLine) :
    before <+: layRows cols before fill lines := by
  induction lines generalizing before fill with
  | nil => exact List.prefix_append _ _
  | cons line lines ih =>
      by_cases hard : line.breakAfter = .hardBreak
      · rw [layRows_hard hard]
        exact (prefix_closeRows _ _).trans (ih _)
      · rw [layRows_soft hard]
        exact ih _

theorem prefix_of_closed (spares : Spares cols limit before held (line :: lines))
    (hard : line.breakAfter = .hardBreak)
    {first more : List (List PlacedUnit)}
    (done : (fillUnits cols {} (held ++ line.anchoredUnits)).done = first ++ more)
    (reached : before.length + first.length = limit) :
    before ++ first.map (rowOf cols (some .softWrap)) <+:
      closeRows cols before (fillUnits cols {} (held ++ line.anchoredUnits)).rows line.lineId := by
  have rows : ∃ rest, (fillUnits cols {} (held ++ line.anchoredUnits)).rows = first ++ rest := by
    by_cases bare : (fillUnits cols {} (held ++ line.anchoredUnits)).current = []
    · exact ⟨more, (Fill.rows_of_bare bare).trans done⟩
    · exact ⟨more ++ [_], by rw [Fill.rows_of_current bare, done, List.append_assoc]⟩
  obtain ⟨rest, rows⟩ := rows
  rcases rest.eq_nil_or_concat' with rfl | ⟨front, last, rfl⟩
  · by_cases empty : first = []
    · rw [empty, List.map_nil, List.append_nil]
      exact prefix_closeRows _ _
    -- The paragraph is at its end, and its last row is already finished.
    · rw [List.append_nil] at rows
      have bare : (fillUnits cols {} (held ++ line.anchoredUnits)).current = [] := by
        by_contra open_
        have lengths := congrArg List.length rows
        rw [Fill.rows_of_current open_, done] at lengths
        simp only [List.length_append, List.length_singleton] at lengths
        omega
      have wide := endsWide_of_bare bare (by rw [done]; simp [empty])
      refine absurd ?_ (spares.here hard wide)
      obtain ⟨front, last, rfl⟩ := (List.eq_nil_or_concat' _).resolve_left empty
      rw [rows, closeRows_concat]
      simpa [Nat.add_assoc] using reached
  · rw [rows, ← List.append_assoc, closeRows_concat, List.map_append]
    exact ⟨front.map (rowOf cols (some .softWrap)) ++ [rowOf cols (some .hardBreak) last], by simp⟩

theorem prefix_of_done (lines : List HistoryLine) (spares : Spares cols limit before held lines)
    {first more : List (List PlacedUnit)} (done : (fillUnits cols {} held).done = first ++ more)
    (reached : before.length + first.length = limit) :
    before ++ first.map (rowOf cols (some .softWrap)) <+: layRows cols before (fillUnits cols {} held) lines := by
  induction lines generalizing held more with
  | nil =>
      rw [layRows, paragraphRows_soft]
      by_cases bare : (fillUnits cols {} held).current = []
      · rw [Fill.rows_of_bare bare, done]
        simp
      · rw [Fill.rows_of_current bare, done]
        simp
  | cons line lines ih =>
      obtain ⟨later, grown⟩ : ∃ later, (fillUnits cols {} (held ++ line.anchoredUnits)).done = first ++ later := by
        obtain ⟨extra, placed⟩ := Fill.done_places (fillUnits cols {} held) line.anchoredUnits
        rw [← fillUnits_append]
        exact ⟨more ++ extra, by rw [placed, done, List.append_assoc]⟩
      by_cases hard : line.breakAfter = .hardBreak
      · rw [layRows_hard hard, fillUnits_append]
        exact (prefix_of_closed spares hard grown reached).trans (prefix_layRows _ _)
      · rw [layRows_soft hard, fillUnits_append]
        exact ih (spares.soft hard) grown

theorem prefix_of_halted (spares : Spares cols limit before held lines)
    (halted : Halted cols (some limit) before (fillUnits cols {} held) lines rows) :
    rows <+: layRows cols before (fillUnits cols {} held) lines := by
  induction lines generalizing before held with
  | nil => cases halted
  | cons line lines ih =>
      have reached := Option.some.inj halted.limit
      by_cases hard : line.breakAfter = .hardBreak
      · rw [layRows_hard hard, fillUnits_append]
        cases halted with
        | inside stopped =>
            obtain ⟨_, first, more, done, _, rfl⟩ := stopped
            rw [fillUnits_append] at done
            rw [List.length_append, List.length_map] at reached
            exact (prefix_of_closed spares hard done reached.symm).trans (prefix_layRows _ _)
        | behind _ closed _ _ =>
            rw [closed, fillUnits_append]
            exact prefix_layRows _ _
        | soft soft _ => exact absurd hard soft
        | hard _ later =>
            rw [fillUnits_append] at later
            exact ih (spares.hard hard) later
      · rw [layRows_soft hard, fillUnits_append]
        cases halted with
        | inside stopped =>
            obtain ⟨_, first, more, done, _, rfl⟩ := stopped
            rw [fillUnits_append] at done
            rw [List.length_append, List.length_map] at reached
            exact prefix_of_done lines (spares.soft hard) done reached.symm
        | behind closed _ _ _ => exact absurd closed hard
        | soft _ later =>
            rw [fillUnits_append] at later
            exact ih (spares.soft hard) later
        | hard closed _ => exact absurd closed hard

theorem endsHard_closeRows (ended : EndsHard before) (units : List PlacedUnit) (lineId : LineId) :
    EndsHard (closeRows cols before (fillUnits cols {} units).rows lineId) := by
  by_cases lost : units = [] ∧ before.getLast?.any (·.unavailable) = true
  · rw [lost.1, show (fillUnits cols {} []).rows = [] from rfl, closeRows_nil_unavailable lost.2]
    exact ended
  · exact (hardRowAnchors_closeRows ended lineId fun empty => by simpa [empty] using lost).2.1

/-- The row of a unit that is wider than a row and ends a hard-broken line. -/
def WideRow (row : ReflowRow) : Prop := row.breakAfter = some .hardBreak ∧ row.unavailable = true

theorem layRows_wideEnd {front : List HistoryLine} (ended : EndsHard before) (hard : line.breakAfter = .hardBreak)
    (wide : ∃ units ∈ (hardPieces (·.breakAfter = .hardBreak) HistoryLine.anchoredUnits held (front ++ [line])).getLast?,
      EndsWide cols units) :
    ∃ row ∈ (layRows cols before (fillUnits cols {} held) (front ++ [line])).getLast?, WideRow row := by
  induction front generalizing before held with
  | nil =>
      rw [List.nil_append, hardPieces, if_pos (by simpa using hard)] at wide
      obtain ⟨units, last, wide⟩ := wide
      obtain rfl := Option.some.inj last
      have apart : held ++ line.anchoredUnits = [] → before.getLast?.any (·.unavailable) = false := by
        intro empty
        obtain ⟨unit, final, _⟩ := wide
        rw [empty] at final
        cases final
      obtain ⟨_, hardEnd, unavailable⟩ := hardRowAnchors_closeRows ended line.lineId apart
      obtain ⟨row, last, unavailable⟩ := (Option.any_eq_true _ _).mp (unavailable.mpr wide)
      rw [List.nil_append, layRows_hard hard, fillUnits_append, layRows, paragraphRows_soft]
      exact ⟨row, by simpa [Fill.rows] using last, hardEnd row last, unavailable⟩
  | cons first front ih =>
      rw [List.cons_append] at wide ⊢
      rw [hardPieces] at wide
      by_cases closes : first.breakAfter = .hardBreak
      · rw [if_pos (by simpa using closes), hardPieces_getLast? hard] at wide
        rw [layRows_hard closes, fillUnits_append]
        exact ih (endsHard_closeRows ended _ _) wide
      · rw [if_neg (by simpa using closes)] at wide
        rw [layRows_soft closes, fillUnits_append]
        exact ih ended wide

theorem prefix_layRows_append {line : HistoryLine} (hard : line.breakAfter = .hardBreak) (front behind : List HistoryLine)
    (fill : Fill PlacedUnit) :
    layRows cols before fill (front ++ [line]) <+: layRows cols before fill (front ++ line :: behind) := by
  induction front generalizing before fill with
  | nil =>
      rw [List.nil_append, List.nil_append, layRows_hard hard, layRows_hard hard, layRows]
      simpa [paragraphRows, Fill.rows] using prefix_layRows _ _
  | cons first front ih =>
      rw [List.cons_append, List.cons_append]
      by_cases closes : first.breakAfter = .hardBreak
      · rw [layRows_hard closes, layRows_hard closes]
        exact ih _
      · rw [layRows_soft closes, layRows_soft closes]
        exact ih _

theorem not_wideRow_of_grown {units : List PlacedUnit} {lineId : LineId}
    (grown : before.length + (fillUnits cols {} units).done.length <
      (closeRows cols before (fillUnits cols {} units).rows lineId).length) :
    ∀ row ∈ (closeRows cols before (fillUnits cols {} units).rows lineId).getLast?, ¬ WideRow row := by
  intro row last wide
  by_cases bare : (fillUnits cols {} units).current = []
  · rw [Fill.rows_of_bare bare] at grown last
    rcases (fillUnits cols {} units).done.eq_nil_or_concat' with empty | ⟨front, final, whole⟩
    · rw [empty] at grown last
      by_cases unavailable : before.getLast?.any (·.unavailable) = true
      · rw [closeRows_nil_unavailable unavailable] at grown
        exact absurd grown (Nat.lt_irrefl _)
      · rw [closeRows_nil (by simpa using unavailable), List.getLast?_concat] at last
        obtain rfl := Option.some.inj last
        cases wide.2
    · rw [whole, closeRows_concat] at grown
      simp only [List.length_append, List.length_map, List.length_singleton] at grown
      omega
  · rw [Fill.rows_of_current bare, closeRows_concat, List.getLast?_concat] at last
    obtain rfl := Option.some.inj last
    have shaped : (fillUnits cols {} units).Shaped PlacedUnit.columns cols := (Fill.Shaped.start 0).places units
    rw [WideRow, rowOf_narrow shaped.narrow] at wide
    cases wide.2

/-- The loop never returns early with the row of such a unit marked as hard-broken. -/
theorem not_wideRow_of_halted {lines : List HistoryLine}
    (halted : Halted cols (some limit) before (fillUnits cols {} held) lines rows) :
    ∀ row ∈ rows.getLast?, ¬ WideRow row := by
  induction lines generalizing before held with
  | nil => cases halted
  | cons line lines ih =>
      cases halted with
      | inside stopped =>
          obtain ⟨_, first, more, _, nonempty, rfl⟩ := stopped
          obtain ⟨front, last, rfl⟩ := (List.eq_nil_or_concat' _).resolve_left nonempty
          intro row final wide
          rw [List.map_append, ← List.append_assoc] at final
          obtain rfl := Option.some.inj ((List.getLast?_concat ..).symm.trans final)
          cases wide.1
      | behind _ closed _ grown =>
          rw [fillUnits_append] at closed grown
          rw [closed] at grown ⊢
          exact not_wideRow_of_grown grown
      | soft _ later =>
          rw [fillUnits_append] at later
          exact ih later
      | hard _ later => exact ih (show Halted _ _ _ (fillUnits cols {} []) _ _ from later)

end Limits

theorem finishWithin_le {state : Reflow} {limit : Nat} (below : Below (some limit) state.rows) :
    (state.finishWithin (some limit)).length ≤ limit := by
  have room : state.rows.length < limit := by simpa [Below, limitReached] using below
  unfold finishWithin
  split
  · simp only [push, List.length_append, List.length_singleton]
    omega
  · exact room.le

/-- Such a row is finished inside its paragraph, so the loop has returned before it is marked. -/
theorem halted_of_wideEnd [Unicode] {cols limit : Nat} {lines : List HistoryLine} {row : ReflowRow}
    (below : Below (some limit) []) (last : row ∈ (layRows cols [] {} lines).getLast?) (wide : WideRow row)
    (length : (layRows cols [] {} lines).length = limit) :
    ∃ rows, lines.foldlM (placeLineWithin cols (some limit)) {} = .error rows ∧
      Halted cols (some limit) [] {} lines rows := by
  have ends := placeLinesWithin_ends (atLine_start cols 0) below lines
  cases outcome : lines.foldlM (placeLineWithin cols (some limit)) {} with
  | error rows => exact ⟨rows, rfl, by rwa [outcome] at ends⟩
  | ok state =>
      rw [outcome] at ends
      obtain ⟨still, shown, filled, at_line, whole⟩ := ends
      rw [paragraphRows_soft] at whole
      rcases filled.rows.eq_nil_or_concat' with empty | ⟨front, final, split⟩
      · have rows := congrArg List.length at_line.rows
        have room : state.rows.length < limit := by simpa [Below, limitReached] using still
        rw [whole, empty, List.map_nil, List.append_nil] at length
        rw [List.length_append] at rows
        omega
      · rw [whole, split, List.map_append, ← List.append_assoc] at last
        obtain rfl := Option.some.inj ((List.getLast?_concat ..).symm.trans last)
        cases wide.1

/-- A limit cuts the reflow off, exactly if it does not fall on the row of a unit
wider than a row that ends a hard-broken line. -/
theorem reflowUncached_limit [Unicode] (store : HistoryStore) (cols limit : Nat) (positive : 1 ≤ cols) :
    store.reflowUncached cols (some limit) = (store.reflowUncached cols none).take limit ↔
      ¬ LimitAtWideEnd cols store.entries limit := by
  rw [reflowUncached_eq store positive]
  unfold HistoryStore.reflowUncached HistoryStore.reflowUncachedFrom reflowUncachedFrom
  have wideRow : ∀ front line, line.breakAfter = .hardBreak →
      (∃ units ∈ (paragraphs (front ++ [line])).getLast?, EndsWide cols units) →
      ∃ row ∈ (layRows cols [] {} (front ++ [line])).getLast?, WideRow row :=
    fun front line hard wide => layRows_wideEnd (by simp [EndsHard]) hard wide
  by_cases zero : limit = 0
  · rw [zero, if_pos (.inr rfl), List.take_zero, eq_self, true_iff]
    rintro ⟨front, line, _, _, hard, wide, length⟩
    obtain ⟨row, last, _⟩ := wideRow front line hard wide
    rw [List.length_eq_zero_iff.mp length] at last
    cases last
  have below : Below (some limit) [] := by simpa [Below, limitReached] using zero
  have nonzero : ¬ (cols = 0 ∨ some limit = some 0) := by simp [zero]; omega
  rw [if_neg nonzero, Nat.zero_min]
  constructor
  · rintro same ⟨front, line, behind, split, hard, wide, length⟩
    obtain ⟨row, last, wideEnd⟩ := wideRow front line hard wide
    obtain ⟨rows, stopped, halted⟩ := halted_of_wideEnd below last wideEnd length
    have begins := @prefix_layRows_append _ cols [] _ hard front behind {}
    rw [List.prefix_iff_eq_take, length, ← split] at begins
    rw [show store.entries = (front ++ [line]) ++ behind by simp [split], List.foldlM_append, stopped] at same
    rw [show rows = _ from same, ← List.append_cons, ← split, ← begins] at halted
    exact @not_wideRow_of_halted _ _ _ _ _ [] _ halted row last wideEnd
  intro spared
  have ends := placeLinesWithin_ends (atLine_start cols 0) below store.entries
  split
  next rows stopped =>
      rw [stopped] at ends
      have spares : Spares cols limit [] [] store.entries := by
        intro front line behind split hard wide length
        exact spared ⟨front, line, behind, split, hard, wide, length⟩
      have begins := prefix_of_halted spares ends
      rw [List.prefix_iff_eq_take, ← Option.some.inj (Halted.limit ends)] at begins
      exact begins
  next state done =>
      rw [done] at ends
      obtain ⟨still, _, _, at_line, whole⟩ := ends
      rw [whole, ← finishWithin_eq at_line still, List.take_of_length_le (finishWithin_le still)]

/-- The limit falls on an ideograph in one column that a letter follows. -/
theorem reflowUncached_limit_wide :
    ¬ @LimitAtWideEnd Unicode.sample 1 [sampleLine 5 [2, 1] .hardBreak] 1 ∧
      @HistoryStore.reflowUncached Unicode.sample { tail := [sampleLine 5 [2, 1] .hardBreak] } 1 (some 1) =
        (@HistoryStore.reflowUncached Unicode.sample { tail := [sampleLine 5 [2, 1] .hardBreak] } 1 none).take 1 := by
  have spared : ¬ @LimitAtWideEnd Unicode.sample 1 [sampleLine 5 [2, 1] .hardBreak] 1 := by
    rintro ⟨front, line, behind, split, _, ⟨units, last, unit, final, wide⟩, _⟩
    cases front with
    | nil =>
        obtain ⟨rfl, _⟩ := List.cons.inj split
        obtain rfl := Option.some.inj last
        obtain rfl := Option.some.inj final
        exact absurd wide (by decide)
    | cons first front =>
        obtain ⟨_, rest⟩ := List.cons.inj split
        cases front <;> cases rest
  exact ⟨spared, @reflowUncached_limit Unicode.sample { tail := [sampleLine 5 [2, 1] .hardBreak] } 1 1
    (Nat.le_refl 1) |>.mpr spared⟩

/-- The loop returns before the hard break is put on the row of the ideograph. -/
theorem reflowUncached_limit_softens :
    (@HistoryStore.reflowUncached Unicode.sample { tail := [sampleLine 5 [2] .hardBreak] } 1 (some 1)).map
        (·.breakAfter) = [some .softWrap] ∧
      ((@HistoryStore.reflowUncached Unicode.sample { tail := [sampleLine 5 [2] .hardBreak] } 1 none).take 1).map
        (·.breakAfter) = [some .hardBreak] := by
  exact ⟨rfl, rfl⟩

end Seyal.Terminal
