import Seyal.Terminal.History.Paragraphs
import Seyal.Terminal.History.Wrap

namespace Seyal.Terminal

open Program HistoryLine

/-! A reflow of the end of a paragraph from the column where its beginning stops. -/

/-- The column behind some units, by the accounting of the wrap index. -/
def wrapColumn (cols : Nat) (units : List PlacedUnit) : Nat :=
  units.foldl (fun used unit => wrapAdvance used cols unit.2.width) 0

/-- Lines of one paragraph: soft wraps between them. -/
def SoftChain (lines : List HistoryLine) : Prop := ∀ line ∈ lines.dropLast, line.breakAfter = .softWrap

theorem columns_pos (unit : PlacedUnit) : 0 < unit.columns := Nat.lt_of_lt_of_le Nat.zero_lt_one (Nat.le_max_right _ _)

theorem wrapAdvance_eq (used cols : Nat) (unit : PlacedUnit) :
    wrapAdvance used cols unit.2.width =
      if cols < unit.columns then 0
      else
        (if (if used > 0 ∧ used + unit.columns > cols then 0 else used) + unit.columns ≥ cols then 0
        else (if used > 0 ∧ used + unit.columns > cols then 0 else used) + unit.columns) := rfl

/-- A full row is left at once by the one accounting and with the next unit by
the other. -/
theorem column_place {cols : Nat} {fill : Fill PlacedUnit} (snug : fill.Snug PlacedUnit.columns cols)
    (unit : PlacedUnit) :
    (fill.place PlacedUnit.columns cols unit).column cols = wrapAdvance (fill.column cols) cols unit.2.width := by
  have bound := snug.used_le
  have wide := columns_pos unit
  rw [wrapAdvance_eq]
  unfold Fill.column
  obtain alone | ⟨narrow, started, full⟩ | ⟨narrow, room⟩ := Fill.place_cases PlacedUnit.columns cols fill unit
  · rw [Fill.place_wide alone, if_pos alone]
    exact ite_self _
  · rw [Fill.place_next narrow started full, if_neg (Nat.not_lt.mpr narrow)]
    dsimp only
    split_ifs <;> omega
  · rw [Fill.place_here narrow room, if_neg (Nat.not_lt.mpr narrow)]
    dsimp only
    split_ifs <;> omega

theorem column_places {cols : Nat} {fill : Fill PlacedUnit} (snug : fill.Snug PlacedUnit.columns cols)
    (units : List PlacedUnit) :
    (fillUnits cols fill units).column cols =
      units.foldl (fun used unit => wrapAdvance used cols unit.2.width) (fill.column cols) := by
  induction units generalizing fill with
  | nil => rfl
  | cons unit units ih => rw [List.foldl_cons, ← column_place snug, ← ih (snug.place unit)]; rfl

theorem column_fillUnits (cols : Nat) (units : List PlacedUnit) :
    (fillUnits cols {} units).column cols = wrapColumn cols units := by
  rw [column_places .empty]
  congr 1
  exact ite_self _

section Rows

variable [Unicode] {cols : Nat} {before : List ReflowRow}

theorem anchors_paragraphRows (breakAfter : HistoryBreakAfter) (rows : List (List PlacedUnit)) :
    (paragraphRows cols breakAfter rows).map (·.anchors) = rows.map (·.map (·.1)) := by
  rcases rows.eq_nil_or_concat' with rfl | ⟨front, last, rfl⟩
  · rfl
  · rw [paragraphRows_concat]
    simp [rowOf]

theorem anchors_closeRows {rows : List (List PlacedUnit)} (nonempty : rows ≠ []) (lineId : LineId) :
    (closeRows cols [] rows lineId).map (·.anchors) = rows.map (·.map (·.1)) := by
  rw [closeRows, if_neg (by simpa using nonempty), List.nil_append, anchors_paragraphRows]

theorem anchors_layRows {lines : List HistoryLine} (chain : SoftChain lines) (fill : Fill PlacedUnit)
    (nonempty : (fillUnits cols fill (lines.flatMap anchoredUnits)).rows ≠ []) :
    (layRows cols [] fill lines).map (·.anchors) =
      (fillUnits cols fill (lines.flatMap anchoredUnits)).rows.map (·.map (·.1)) := by
  induction lines generalizing fill with
  | nil => exact anchors_paragraphRows .softWrap fill.rows
  | cons line lines ih =>
      have filled : fillUnits cols fill ((line :: lines).flatMap anchoredUnits) =
          fillUnits cols (fillUnits cols fill line.anchoredUnits) (lines.flatMap anchoredUnits) := by
        rw [List.flatMap_cons]
        exact List.foldl_append ..
      rw [filled] at nonempty ⊢
      by_cases hard : line.breakAfter = .hardBreak
      · rw [Reflow.layRows_hard hard]
        cases lines with
        | nil =>
            have none : ({} : Fill PlacedUnit).rows = [] := rfl
            rw [layRows, paragraphRows_soft, none, List.map_nil, List.append_nil]
            exact anchors_closeRows nonempty line.lineId
        | cons next lines =>
            have soft := chain line (by simp)
            rw [hard] at soft
            cases soft
      · rw [Reflow.layRows_soft hard]
        refine ih ?_ _ nonempty
        intro other member
        cases lines with
        | nil => cases member
        | cons next lines => exact chain other (List.mem_cons_of_mem _ member)

end Rows

theorem boundary_fillUnits {cols : Nat} (positive : 1 ≤ cols) (front : List PlacedUnit) (unit : PlacedUnit)
    (units : List PlacedUnit) :
    (∀ position, 0 < position →
      (Boundary (fillUnits cols { used := wrapColumn cols front } (unit :: units)).rows position ↔
        Boundary (fillUnits cols {} (front ++ unit :: units)).rows (front.length + position))) ∧
      (Boundary (fillUnits cols {} (front ++ unit :: units)).rows front.length ↔
        wrapColumn cols front = 0 ∨ cols < wrapColumn cols front + unit.columns) := by
  have snug : (fillUnits cols {} front).Snug PlacedUnit.columns cols := Fill.Snug.empty.places front
  have flat : (fillUnits cols {} front).rows.flatten = front := Fill.flatten_places {} front
  have filled : fillUnits cols {} (front ++ unit :: units) =
      fillUnits cols (fillUnits cols {} front) (unit :: units) := List.foldl_append ..
  rw [filled, ← column_fillUnits]
  by_cases apart : (fillUnits cols {} front).column cols = 0 ∨
      cols < (fillUnits cols {} front).column cols + unit.columns
  · have rows := Fill.places_apart positive columns_pos snug unit units apart
    have length : front.length = (fillUnits cols {} front).rows.flatten.length := by rw [flat]
    rw [rows, length]
    refine ⟨fun position inside => (boundary_behind inside).symm, fun _ => apart, fun _ => ?_⟩
    exact ⟨_, _, rfl, rfl⟩
  · obtain ⟨started, room⟩ := not_or.mp apart
    obtain ⟨first, rest, some, suffix, whole⟩ := Fill.places_continued unit units (Nat.pos_of_ne_zero started)
      (Nat.le_of_not_lt room)
    have current : (fillUnits cols {} front).current ≠ [] := by
      intro bare
      have none := snug.used_eq
      rw [bare, Fill.total_nil] at none
      refine started ?_
      rw [Fill.column, none]
      exact ite_self _
    have length : front.length =
        (fillUnits cols {} front).done.flatten.length + (fillUnits cols {} front).current.length := by
      rw [← List.length_append, ← List.flatten_concat, ← Fill.rows_of_current current, flat]
    rw [suffix, whole, length]
    exact ⟨fun position inside => (boundary_joined inside).symm,
      fun boundary => absurd boundary (not_boundary_joined current some), fun other => absurd other apart⟩

/-- Row boundaries inside the end of a paragraph are the same when only the end
is reflowed, from the column that the wrap index gives. Its first row goes on the
row before it when that column is not the first and the first unit fits behind it. -/
theorem reflowUncachedFrom_continues [Unicode] (whole suffix : HistoryStore) (front : List HistoryLine) (cols : Nat)
    (positive : 1 ≤ cols) (entries : whole.entries = front ++ suffix.entries)
    (soft : ∀ line ∈ front, line.breakAfter = .softWrap) (chain : SoftChain suffix.entries) :
    (∀ position, 0 < position → position < (suffix.entries.flatMap anchoredUnits).length →
      (Boundary ((suffix.reflowUncachedFrom cols none
          (wrapColumn cols (front.flatMap anchoredUnits))).map (·.anchors)) position ↔
        Boundary ((whole.reflowUncached cols none).map (·.anchors))
          ((front.flatMap anchoredUnits).length + position))) ∧
      ∀ unit ∈ (suffix.entries.flatMap anchoredUnits).head?,
        (Boundary ((whole.reflowUncached cols none).map (·.anchors))
            (front.flatMap anchoredUnits).length ↔
          wrapColumn cols (front.flatMap anchoredUnits) = 0 ∨
            cols < wrapColumn cols (front.flatMap anchoredUnits) + PlacedUnit.columns unit) := by
  cases units : suffix.entries.flatMap anchoredUnits with
  | nil => exact ⟨fun position _ inside => absurd inside (Nat.not_lt_zero _), by simp⟩
  | cons unit rest =>
      have bounded : wrapColumn cols (front.flatMap anchoredUnits) ≤ cols := by
        rw [← column_fillUnits, Fill.column]
        split <;> omega
      have some : suffix.entries ≠ [] := by
        intro empty
        rw [empty] at units
        cases units
      have whole_chain : SoftChain (front ++ suffix.entries) := by
        intro line member
        rw [List.dropLast_append_of_ne_nil some] at member
        exact (List.mem_append.mp member).elim (soft line) (chain line)
      have whole_units : (front ++ suffix.entries).flatMap anchoredUnits =
          front.flatMap anchoredUnits ++ unit :: rest := by rw [List.flatMap_append, units]
      have whole_rows : (whole.reflowUncached cols none).map (·.anchors) =
          (fillUnits cols {} (front.flatMap anchoredUnits ++ unit :: rest)).rows.map (·.map (·.1)) := by
        rw [reflowUncached_eq whole positive, entries, ← whole_units]
        exact anchors_layRows whole_chain {} (Fill.rows_places_ne_nil _ (by simp [whole_units]))
      have suffix_rows : (suffix.reflowUncachedFrom cols none
          (wrapColumn cols (front.flatMap anchoredUnits))).map (·.anchors) =
          (fillUnits cols { used := wrapColumn cols (front.flatMap anchoredUnits) }
            (unit :: rest)).rows.map (·.map (·.1)) := by
        rw [HistoryStore.reflowUncachedFrom, reflowUncachedFrom_eq _ (by omega), Nat.min_eq_left bounded, ← units]
        exact anchors_layRows chain _ (Fill.rows_places_ne_nil _ (by simp [units]))
      obtain ⟨inner, seam⟩ := boundary_fillUnits positive (front.flatMap anchoredUnits) unit rest
      rw [whole_rows, suffix_rows]
      refine ⟨?_, ?_⟩
      · intro position inside _
        rw [boundary_map, boundary_map]
        exact inner position inside
      · rintro _ ⟨⟩
        rw [boundary_map]
        exact seam

/-- Three letters of a paragraph, then a letter and an ideograph, on four columns. -/
theorem reflowUncachedFrom_continues_letter :
    SoftChain [sampleLine 6 [1, 2] .hardBreak] ∧
      (Boundary ((@HistoryStore.reflowUncachedFrom Unicode.sample { tail := [sampleLine 6 [1, 2] .hardBreak] } 4 none
          3).map (·.anchors)) 1 ↔
        Boundary ((@HistoryStore.reflowUncached Unicode.sample
          { tail := [sampleLine 5 [1, 1, 1] .softWrap, sampleLine 6 [1, 2] .hardBreak] } 4 none).map (·.anchors))
          4) := by
  have chain : SoftChain [sampleLine 6 [1, 2] .hardBreak] := by simp [SoftChain]
  refine ⟨chain, ?_⟩
  exact (@reflowUncachedFrom_continues Unicode.sample
    { tail := [sampleLine 5 [1, 1, 1] .softWrap, sampleLine 6 [1, 2] .hardBreak] }
    { tail := [sampleLine 6 [1, 2] .hardBreak] } [sampleLine 5 [1, 1, 1] .softWrap] 4 (by decide) rfl
    (by simp [sampleLine]) chain).1 1 (by decide) (by decide)

/-- An ideograph behind three letters on four columns does not fit there. It
starts a row although the letters stop in column three. -/
theorem reflowUncachedFrom_starts_row :
    wrapColumn 4 (sampleLine 5 [1, 1, 1] .softWrap).anchoredUnits = 3 ∧
      (@HistoryStore.reflowUncached Unicode.sample
          { tail := [sampleLine 5 [1, 1, 1] .softWrap, sampleLine 6 [2] .hardBreak] } 4 none).map (·.anchors) =
        [[⟨5, 0⟩, ⟨5, 1⟩, ⟨5, 2⟩], [⟨6, 0⟩]] ∧
      (@HistoryStore.reflowUncachedFrom Unicode.sample { tail := [sampleLine 6 [2] .hardBreak] } 4 none 3).map
          (·.anchors) = [[⟨6, 0⟩]] := by
  exact ⟨rfl, rfl, rfl⟩

end Seyal.Terminal
