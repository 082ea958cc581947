import Seyal.Terminal.History.Layout

namespace Seyal.Terminal

open Program HistoryLine PlacedUnit Fill

/-! What the rows of a reflow hold and where they break. -/

/-- The columns of a cell. A continuation lies under its lead. -/
def HistoryWireCell.columns (cell : HistoryWireCell) : Nat := if cell.continuation then 0 else max cell.width 1

def ReflowRow.columns (row : ReflowRow) : Nat := (row.cells.map HistoryWireCell.columns).sum

/-- A row and the units that it shows, or the one unit that it cannot show. -/
structure RowHolds [Unicode] (cols : Nat) (row : ReflowRow) (units : List PlacedUnit) : Prop where
  anchors : row.anchors = units.map (·.1)
  shown :
    row.unavailable = false ∧ row.cells = units.flatMap (·.2.reflowWireCells) ∧
        total columns units ≤ cols ∨
      row.unavailable = true ∧ row.cells = [] ∧ ∃ unit, units = [unit] ∧ cols < unit.columns

/-- These are the units of the lines up to a hard break. -/
def HardBreakBehind (lines : List HistoryLine) (units : List PlacedUnit) : Prop :=
  ∃ front line behind, lines = front ++ line :: behind ∧ line.breakAfter = .hardBreak ∧
    (front ++ [line]).flatMap anchoredUnits = units

/-- Between two rows there is a hard break, or the next unit did not fit. -/
def BrokenAt (cols : Nat) (lines : List HistoryLine) (groups : List (List PlacedUnit)) : Prop :=
  ∀ done group next rest, groups = done ++ group :: next :: rest →
    Full columns cols group next ∨ HardBreakBehind lines (done ++ [group]).flatten

theorem HardBreakBehind.mono {lines more : List HistoryLine} {units : List PlacedUnit}
    (behind : HardBreakBehind lines units) : HardBreakBehind (lines ++ more) units := by
  obtain ⟨front, line, rest, rfl, hard, all⟩ := behind
  exact ⟨front, line, rest ++ more, by simp, hard, all⟩

theorem BrokenAt.mono {cols : Nat} {lines more : List HistoryLine} {groups : List (List PlacedUnit)}
    (broken : BrokenAt cols lines groups) : BrokenAt cols (lines ++ more) groups :=
  fun done group next rest split => (broken done group next rest split).imp_right HardBreakBehind.mono

theorem BrokenAt.append {cols : Nat} {lines : List HistoryLine} {groups rows : List (List PlacedUnit)}
    (broken : BrokenAt cols lines groups) (ended : groups ≠ [] → HardBreakBehind lines groups.flatten)
    (full : rows.IsChain (Full columns cols)) : BrokenAt cols lines (groups ++ rows) := by
  intro done group next rest split
  obtain ⟨between, rfl, inside⟩ | ⟨between, rfl, inside⟩ := List.append_eq_append_iff.mp split
  · rw [inside] at full
    exact .inl (List.isChain_append_cons_cons.mp full).2.1
  match between with
  | [] =>
      rw [List.nil_append] at inside
      rw [← inside] at full
      exact .inl (List.isChain_cons_cons.mp full).1
  | [last] =>
      obtain ⟨rfl, _⟩ := List.cons.inj inside
      exact .inr (ended (by simp))
  | first :: second :: more =>
      obtain ⟨rfl, tail⟩ := List.cons.inj inside
      obtain ⟨rfl, _⟩ := List.cons.inj tail
      exact broken done _ _ more rfl

section Content

variable [Unicode] {cols : Nat} {past : List HistoryLine} {before : List ReflowRow}
  {groups : List (List PlacedUnit)} {fill : Fill PlacedUnit}

theorem rowOf_holds {units : List PlacedUnit} (fits : Fits columns cols units)
    (breakAfter : Option HistoryBreakAfter) : RowHolds cols (rowOf cols breakAfter units) units := by
  obtain room | ⟨unit, rfl, wide⟩ := fits
  · have narrow : ∀ unit ∈ units, unit.columns ≤ cols := by
      intro unit member
      exact (width_le_total member).trans room
    rw [rowOf_narrow narrow]
    exact ⟨rfl, .inl ⟨rfl, rfl, room⟩⟩
  · rw [rowOf_wide wide]
    exact ⟨rfl, .inr ⟨rfl, rfl, unit, rfl, wide⟩⟩

theorem blank_holds (lineId : LineId) :
    RowHolds cols { sourceLineId := some lineId, breakAfter := some .hardBreak } [] :=
  ⟨rfl, .inl ⟨rfl, rfl, Nat.zero_le _⟩⟩

theorem paragraphRows_hold {rows : List (List PlacedUnit)}
    (fit : ∀ row ∈ rows, row ≠ [] ∧ Fits columns cols row) (breakAfter : HistoryBreakAfter) :
    List.Forall₂ (RowHolds cols) (paragraphRows cols breakAfter rows) rows := by
  rcases rows.eq_nil_or_concat' with rfl | ⟨front, last, rfl⟩
  · exact .nil
  · rw [paragraphRows_concat]
    refine List.rel_append ?_ (.cons (rowOf_holds (fit last (by simp)).2 _) .nil)
    rw [List.forall₂_map_left_iff]
    exact List.forall₂_same.mpr fun row member => rowOf_holds (fit row (by simp [member])).2 _

/-- Rows before the current paragraph and the groups of units in them. -/
structure Laid (cols : Nat) (past : List HistoryLine) (before : List ReflowRow) (groups : List (List PlacedUnit))
    (fill : Fill PlacedUnit) : Prop where
  rows : List.Forall₂ (RowHolds cols) before groups
  units : groups.flatten ++ fill.rows.flatten = past.flatMap anchoredUnits
  broken : BrokenAt cols past groups
  ended : groups ≠ [] → HardBreakBehind past groups.flatten
  snug : fill.Snug columns cols

theorem Laid.line (laid : Laid cols past before groups fill) (line : HistoryLine) :
    Laid cols (past ++ [line]) before groups (fillUnits cols fill line.anchoredUnits) where
  rows := laid.rows
  units := by
    rw [flatten_places, ← List.append_assoc, laid.units]
    simp
  broken := laid.broken.mono
  ended nonempty := (laid.ended nonempty).mono
  snug := laid.snug.places _

theorem Laid.joined (laid : Laid cols past before groups fill) (breakAfter : HistoryBreakAfter) :
    List.Forall₂ (RowHolds cols) (before ++ paragraphRows cols breakAfter fill.rows) (groups ++ fill.rows) ∧
      (groups ++ fill.rows).flatten = past.flatMap anchoredUnits ∧
      BrokenAt cols past (groups ++ fill.rows) :=
  ⟨List.rel_append laid.rows (paragraphRows_hold laid.snug.rows_fit breakAfter),
    by rw [List.flatten_append, laid.units], laid.broken.append laid.ended laid.snug.full⟩

theorem Laid.close {line : HistoryLine} (laid : Laid cols (past ++ [line]) before groups fill)
    (hard : line.breakAfter = .hardBreak) :
    ∃ after, Laid cols (past ++ [line]) (closeRows cols before fill.rows line.lineId) after {} := by
  have behind : HardBreakBehind (past ++ [line]) ((past ++ [line]).flatMap anchoredUnits) :=
    ⟨past, line, [], rfl, hard, rfl⟩
  by_cases empty : fill.rows = []
  · have units := laid.units
    rw [empty, List.flatten_nil, List.append_nil] at units
    rw [empty]
    by_cases unavailable : before.getLast?.any (·.unavailable) = true
    · rw [closeRows_nil_unavailable unavailable]
      exact ⟨groups, laid.rows, by simpa [Fill.rows] using units, laid.broken, laid.ended, .empty⟩
    · rw [Bool.not_eq_true] at unavailable
      rw [closeRows_nil unavailable]
      refine ⟨groups ++ [[]], List.rel_append laid.rows (.cons (blank_holds _) .nil), ?_, ?_, ?_, .empty⟩
      · simpa [Fill.rows] using units
      · exact laid.broken.append laid.ended (.singleton _)
      · intro _
        simpa [units] using behind
  · obtain ⟨rows, units, broken⟩ := laid.joined .hardBreak
    rw [closeRows, if_neg (by simpa using empty)]
    exact ⟨groups ++ fill.rows, rows, by rw [units]; simp [Fill.rows], broken, fun _ => units ▸ behind, .empty⟩

theorem Laid.layRows (laid : Laid cols past before groups fill) (lines : List HistoryLine) :
    ∃ after, List.Forall₂ (RowHolds cols) (layRows cols before fill lines) after ∧
      after.flatten = (past ++ lines).flatMap anchoredUnits ∧ BrokenAt cols (past ++ lines) after := by
  induction lines generalizing past before groups fill with
  | nil =>
      rw [List.append_nil]
      exact ⟨_, laid.joined .softWrap⟩
  | cons line lines ih =>
      rw [show past ++ line :: lines = past ++ [line] ++ lines by simp]
      by_cases hard : line.breakAfter = .hardBreak
      · obtain ⟨after, closed⟩ := (laid.line line).close hard
        rw [Reflow.layRows_hard hard]
        exact ih closed
      · rw [Reflow.layRows_soft hard]
        exact ih (laid.line line)

theorem columns_reflowWireCells (unit : PlacedUnit) :
    (unit.2.reflowWireCells.map HistoryWireCell.columns).sum = unit.columns ∧
      unit.2.reflowWireCells.length ≤ unit.columns := by
  unfold HistoryUnit.reflowWireCells columns
  split
  next wide => simp [HistoryWireCell.columns, wide]
  next => simp [HistoryWireCell.columns]

theorem columns_flatMap (units : List PlacedUnit) :
    ((units.flatMap (·.2.reflowWireCells)).map HistoryWireCell.columns).sum =
        total columns units ∧
      (units.flatMap (·.2.reflowWireCells)).length ≤ total columns units := by
  induction units with
  | nil => exact ⟨rfl, Nat.le_refl _⟩
  | cons unit units ih =>
      obtain ⟨columns, length⟩ := columns_reflowWireCells unit
      rw [show unit :: units = [unit] ++ units from rfl, total_append, total_singleton]
      simp only [List.flatMap_append, List.flatMap_cons, List.flatMap_nil, List.append_nil, List.map_append,
        List.sum_append, List.length_append, columns, ih.1]
      exact ⟨trivial, Nat.add_le_add length ih.2⟩

theorem RowHolds.columns_le {row : ReflowRow} {units : List PlacedUnit} (holds : RowHolds cols row units) :
    row.columns ≤ cols ∧ row.cells.length ≤ cols := by
  obtain ⟨-, ⟨-, cells, room⟩ | ⟨-, cells, -⟩⟩ := holds
  · obtain ⟨columns, length⟩ := columns_flatMap units
    rw [ReflowRow.columns, cells, columns]
    exact ⟨room, length.trans room⟩
  · simp [ReflowRow.columns, cells]

theorem columns_of_holds {rows : List ReflowRow} {groups : List (List PlacedUnit)}
    (hold : List.Forall₂ (RowHolds cols) rows groups) :
    ∀ row ∈ rows, row.columns ≤ cols ∧ row.cells.length ≤ cols := by
  induction hold with
  | nil => simp
  | cons holds _ ih => exact List.forall_mem_cons.mpr ⟨holds.columns_le, ih⟩

theorem anchors_of_holds {rows : List ReflowRow} {groups : List (List PlacedUnit)}
    (hold : List.Forall₂ (RowHolds cols) rows groups) : rows.flatMap (·.anchors) = groups.flatten.map (·.1) := by
  induction hold with
  | nil => rfl
  | cons holds _ ih => rw [List.flatMap_cons, List.flatten_cons, List.map_append, holds.anchors, ih]

end Content

theorem laid_nil [Unicode] (cols : Nat) : Laid cols [] [] [] {} where
  rows := .nil
  units := rfl
  broken := by simp [BrokenAt]
  ended := by simp
  snug := .empty

theorem reflowUncached_eq [Unicode] (store : HistoryStore) {cols : Nat} (positive : 1 ≤ cols) :
    store.reflowUncached cols none = layRows cols [] {} store.entries := by
  unfold HistoryStore.reflowUncached HistoryStore.reflowUncachedFrom
  rw [reflowUncachedFrom_eq _ (by omega), Nat.zero_min]

/-- The rows hold the retained units in order, each once. A row fits, or holds
one unit wider than itself. It ends at a hard break, or where the next unit does
not fit. -/
theorem reflowUncached_holds [Unicode] (store : HistoryStore) (cols : Nat) (positive : 1 ≤ cols) :
    (store.reflowUncached cols none).flatMap (·.anchors) =
        (store.entries.flatMap anchoredUnits).map (·.1) ∧
      (∀ row ∈ store.reflowUncached cols none, row.columns ≤ cols ∧ row.cells.length ≤ cols) ∧
      ∃ groups : List (List PlacedUnit),
        groups.flatten = store.entries.flatMap anchoredUnits ∧
          List.Forall₂ (RowHolds cols) (store.reflowUncached cols none) groups ∧
          BrokenAt cols store.entries groups := by
  obtain ⟨groups, holds, units, broken⟩ := (laid_nil cols).layRows store.entries
  rw [List.nil_append] at units broken
  rw [reflowUncached_eq store positive]
  exact ⟨by rw [anchors_of_holds holds, units], columns_of_holds holds, groups, units, holds, broken⟩

/-! Tables for runs on given input: they agree with the linked crates on ASCII,
combining marks, variation selectors and CJK ideographs. -/

def isCombining (character : Char) : Bool :=
  0x300 ≤ character.toNat && character.toNat ≤ 0x36f || 0xfe00 ≤ character.toNat && character.toNat ≤ 0xfe0f

def sampleWidth (character : Char) : Option Nat :=
  if character.toNat < 0x20 ∨ 0x7f ≤ character.toNat ∧ character.toNat < 0xa0 then none
  else if isCombining character then some 0
  else if 0x4e00 ≤ character.toNat ∧ character.toNat ≤ 0x9fff then some 2
  else some 1

@[reducible] def Unicode.sample : Unicode where
  graphemeCount
    | [] => 0
    | _ :: rest => 1 + rest.countP fun character => !isCombining character
  charWidth := sampleWidth
  charWidthCjk := sampleWidth
  lossy _ := [replacementChar]

/-! One line with an ideograph, and a blank line. -/

def sampleUnit (width : Nat) : HistoryUnit where
  utf8 := [0x61]
  width
  style := {}

def sampleLine (lineId : LineId) (widths : List Nat) (breakAfter : HistoryBreakAfter) : HistoryLine where
  lineId
  units := widths.map sampleUnit
  breakAfter
  startOffset := 0

theorem reflowUncached_holds_wide :
    (1 ≤ 1) ∧
      (@HistoryStore.reflowUncached Unicode.sample { tail := [sampleLine 5 [1, 2, 1] .hardBreak] } 1 none).flatMap
          (·.anchors) =
        [⟨5, 0⟩, ⟨5, 1⟩, ⟨5, 2⟩] := by
  refine ⟨Nat.le_refl 1, ?_⟩
  exact (@reflowUncached_holds Unicode.sample { tail := [sampleLine 5 [1, 2, 1] .hardBreak] } 1
    (Nat.le_refl 1)).1.trans rfl

/-- The pieces of a list up to each of its hard breaks, and what they hold. -/
def hardPieces {α β : Type} (hard : α → Bool) (content : α → List β) : List β → List α → List (List β)
  | _, [] => []
  | held, item :: rest =>
      if hard item then (held ++ content item) :: hardPieces hard content [] rest
      else hardPieces hard content (held ++ content item) rest

def paragraphs (lines : List HistoryLine) : List (List PlacedUnit) :=
  hardPieces (·.breakAfter = .hardBreak) anchoredUnits [] lines

/-- The anchors of the rows up to each hard break. -/
def hardRowAnchors (rows : List ReflowRow) : List (List HistoryAnchor) :=
  hardPieces (·.breakAfter = some .hardBreak) (·.anchors) [] rows

def EndsWide (cols : Nat) (units : List PlacedUnit) : Prop := ∃ unit ∈ units.getLast?, cols < unit.columns

section Pieces

variable {α β : Type} {hard : α → Bool} {content : α → List β}

theorem length_hardPieces (held : List β) (items : List α) :
    (hardPieces hard content held items).length = (items.filter hard).length := by
  induction items generalizing held with
  | nil => rfl
  | cons item items ih =>
      rw [hardPieces, List.filter_cons]
      split
      · rw [List.length_cons, List.length_cons, ih]
      · exact ih _

theorem hardPieces_soft {soft : List α} (none_hard : ∀ item ∈ soft, hard item = false) (held : List β)
    (items : List α) :
    hardPieces hard content held (soft ++ items) = hardPieces hard content (held ++ soft.flatMap content) items := by
  induction soft generalizing held with
  | nil => simp
  | cons item soft ih =>
      obtain ⟨first, others⟩ := List.forall_mem_cons.mp none_hard
      rw [List.cons_append, hardPieces, if_neg (by simp [first]), ih others, List.flatMap_cons, List.append_assoc]

theorem hardPieces_behind {front : List α} (ended : ∀ item ∈ front.getLast?, hard item = true) (held : List β)
    (nonempty : front = [] → held = []) (items : List α) :
    hardPieces hard content held (front ++ items) =
      hardPieces hard content held front ++ hardPieces hard content [] items := by
  induction front generalizing held with
  | nil => rw [nonempty rfl]; rfl
  | cons item front ih =>
      have later : ∀ last ∈ front.getLast?, hard last = true := by
        intro last member
        exact ended last (by rw [List.getLast?_cons, member]; rfl)
      rw [List.cons_append, hardPieces, hardPieces]
      split
      · rw [ih later [] (fun _ => rfl), List.cons_append]
      · refine ih later _ ?_
        rintro rfl
        exact absurd (ended item rfl) ‹_›

end Pieces

/-- Rows before a paragraph end with a hard break. -/
def EndsHard (before : List ReflowRow) : Prop := ∀ row ∈ before.getLast?, row.breakAfter = some .hardBreak

theorem hardRowAnchors_behind {before : List ReflowRow} (ended : EndsHard before) (rows : List ReflowRow) :
    hardRowAnchors (before ++ rows) = hardRowAnchors before ++ hardRowAnchors rows :=
  hardPieces_behind (fun row last => decide_eq_true (ended row last)) [] (fun _ => rfl) rows

section HardBreaks

variable [Unicode] {cols : Nat} {before : List ReflowRow} {units : List PlacedUnit}

theorem hardRowAnchors_rowOf (front : List (List PlacedUnit)) (last : List PlacedUnit) :
    hardRowAnchors (front.map (rowOf cols (some .softWrap)) ++ [rowOf cols (some .hardBreak) last]) =
      [(front ++ [last]).flatten.map (·.1)] := by
  have soft : ∀ row ∈ front.map (rowOf cols (some .softWrap)), decide (row.breakAfter = some .hardBreak) = false := by
    intro row member
    obtain ⟨group, _, rfl⟩ := List.mem_map.mp member
    rfl
  have anchors : (front.map (rowOf cols (some .softWrap))).flatMap (·.anchors) = front.flatten.map (·.1) := by
    rw [List.flatMap_map, List.map_flatten, List.flatMap_def]
    rfl
  rw [hardRowAnchors, hardPieces_soft soft, anchors, hardPieces, if_pos (by simp [rowOf])]
  simp [hardPieces, rowOf]

theorem hardRowAnchors_soft (rows : List (List PlacedUnit)) :
    hardRowAnchors (rows.map (rowOf cols (some .softWrap))) = [] := by
  refine List.eq_nil_of_length_eq_zero ?_
  rw [hardRowAnchors, length_hardPieces]
  simp [rowOf]

theorem hardRowAnchors_closeRows (ended : EndsHard before) (lineId : LineId)
    (apart : units = [] → before.getLast?.any (·.unavailable) = false) :
    hardRowAnchors (closeRows cols before (fillUnits cols {} units).rows lineId) =
        hardRowAnchors before ++ [units.map (·.1)] ∧
      EndsHard (closeRows cols before (fillUnits cols {} units).rows lineId) ∧
      ((closeRows cols before (fillUnits cols {} units).rows lineId).getLast?.any (·.unavailable) = true ↔
        EndsWide cols units) := by
  have flat : (fillUnits cols {} units).rows.flatten = units := flatten_places {} units
  have snug : (fillUnits cols {} units).Snug columns cols := Snug.empty.places units
  rcases rows : (fillUnits cols {} units).rows.eq_nil_or_concat' with empty | ⟨front, last, whole⟩
  · rw [empty] at flat
    subst flat
    rw [empty, closeRows_nil (apart rfl), hardRowAnchors_behind ended]
    refine ⟨rfl, ?_, ?_⟩
    · intro row last
      rw [List.getLast?_concat] at last
      rw [← Option.some.inj last]
    · rw [List.getLast?_concat]
      simp [EndsWide]
  · rw [whole] at flat ⊢
    rw [closeRows_concat, List.append_assoc, hardRowAnchors_behind ended, hardRowAnchors_rowOf, flat]
    refine ⟨rfl, ?_, ?_⟩
    · intro row final
      rw [← List.append_assoc, List.getLast?_concat] at final
      rw [← Option.some.inj final]
      rfl
    · obtain ⟨nonempty, fits⟩ := snug.rows_fit last (by rw [whole]; simp)
      obtain ⟨unit, final⟩ := Option.ne_none_iff_exists'.mp (mt List.getLast?_eq_none_iff.mp nonempty)
      have ends : units.getLast? = some unit := by
        rw [← flat, List.flatten_append, List.flatten_singleton, List.getLast?_append, final]
        rfl
      rw [← List.append_assoc, List.getLast?_concat, EndsWide, ends]
      obtain room | ⟨wideUnit, rfl, wide⟩ := fits
      · have narrow : ∀ unit ∈ last, unit.columns ≤ cols := fun unit member => (width_le_total member).trans room
        rw [rowOf_narrow narrow]
        simpa using narrow unit (List.mem_of_getLast? final)
      · obtain rfl := Option.some.inj final
        simpa [rowOf_wide wide] using wide

theorem hardRowAnchors_layRows (lines : List HistoryLine) (held : List PlacedUnit) (ended : EndsHard before)
    (apart : (hardPieces (·.breakAfter = .hardBreak) anchoredUnits held lines).IsChain
      fun units next => EndsWide cols units → next ≠ [])
    (first : before.getLast?.any (·.unavailable) = true →
      ∀ next ∈ (hardPieces (·.breakAfter = .hardBreak) anchoredUnits held lines).head?, next ≠ []) :
    hardRowAnchors (layRows cols before (fillUnits cols {} held) lines) =
      hardRowAnchors before ++
        (hardPieces (·.breakAfter = .hardBreak) anchoredUnits held lines).map (·.map (·.1)) := by
  induction lines generalizing before held with
  | nil =>
      rw [layRows, paragraphRows_soft, hardRowAnchors_behind ended, hardRowAnchors_soft]
      rfl
  | cons line lines ih =>
      have filled : fillUnits cols (fillUnits cols {} held) line.anchoredUnits =
          fillUnits cols {} (held ++ line.anchoredUnits) := (List.foldl_append ..).symm
      rw [hardPieces] at apart first ⊢
      by_cases hard : line.breakAfter = .hardBreak
      · rw [if_pos (by simpa using hard)] at apart first ⊢
        rw [Reflow.layRows_hard hard, filled]
        have blank : held ++ line.anchoredUnits = [] → before.getLast?.any (·.unavailable) = false := by
          intro empty
          rw [← Bool.not_eq_true]
          exact fun unavailable => first unavailable _ rfl empty
        obtain ⟨anchors, hardEnd, wide⟩ := hardRowAnchors_closeRows ended line.lineId blank
        have rest := ih [] hardEnd apart.tail (fun unavailable next head => apart.rel_head? head (wide.mp unavailable))
        rw [anchors, List.append_assoc] at rest
        exact rest
      · rw [if_neg (by simpa using hard)] at apart first ⊢
        rw [Reflow.layRows_soft hard, filled]
        exact ih _ ended apart first

/-- Each blank paragraph behind a unit that is wider than a row is lost, and no other. -/
theorem length_hardRowAnchors_layRows (lines : List HistoryLine) (held : List PlacedUnit) (ended : EndsHard before) :
    let pieces := hardPieces (·.breakAfter = .hardBreak) anchoredUnits held lines
    let found := hardRowAnchors (layRows cols before (fillUnits cols {} held) lines)
    found.length ≤ (hardRowAnchors before).length + pieces.length ∧
      (found.length = (hardRowAnchors before).length + pieces.length →
        pieces.IsChain (fun units next => EndsWide cols units → next ≠ []) ∧
          (before.getLast?.any (·.unavailable) = true → ∀ next ∈ pieces.head?, next ≠ [])) := by
  induction lines generalizing before held with
  | nil =>
      rw [layRows, paragraphRows_soft, hardRowAnchors_behind ended, hardRowAnchors_soft]
      simp [hardPieces]
  | cons line lines ih =>
      have filled : fillUnits cols (fillUnits cols {} held) line.anchoredUnits =
          fillUnits cols {} (held ++ line.anchoredUnits) := (List.foldl_append ..).symm
      rw [hardPieces]
      by_cases hard : line.breakAfter = .hardBreak
      · rw [if_pos (by simpa using hard), Reflow.layRows_hard hard, filled]
        by_cases lost : held ++ line.anchoredUnits = [] ∧ before.getLast?.any (·.unavailable) = true
        · rw [lost.1, show (fillUnits cols {} []).rows = [] from rfl, closeRows_nil_unavailable lost.2]
          have fewer : (hardRowAnchors (layRows cols before {} lines)).length ≤ _ := (ih [] ended).1
          simp only [List.length_cons]
          exact ⟨by omega, fun same => by omega⟩
        · obtain ⟨anchors, hardEnd, wide⟩ :=
            @hardRowAnchors_closeRows _ cols _ (held ++ line.anchoredUnits) ended line.lineId
            fun empty => by simpa [empty] using lost
          have later := ih [] hardEnd
          rw [show fillUnits cols {} [] = {} from rfl] at later
          simp only [anchors, List.length_append, List.length_cons, List.length_nil, wide] at later ⊢
          refine ⟨by omega, fun same => ?_⟩
          obtain ⟨chain, first⟩ := later.2 (by omega)
          refine ⟨List.isChain_cons.mpr ⟨fun next head ends => first ends next head, chain⟩, ?_⟩
          simpa using fun unavailable empty => lost ⟨empty, unavailable⟩
      · rw [if_neg (by simpa using hard), Reflow.layRows_soft hard, filled]
        exact ih _ ended

end HardBreaks

/-- Every hard-broken line ends a row of its own, in order, exactly if no blank
one follows a unit that is wider than a row. -/
theorem reflowUncached_hard_breaks [Unicode] (store : HistoryStore) (cols : Nat) (positive : 1 ≤ cols) :
    (((store.reflowUncached cols none).filter (·.breakAfter = some .hardBreak)).length =
        (store.entries.filter (·.breakAfter = .hardBreak)).length ∧
      hardRowAnchors (store.reflowUncached cols none) = (paragraphs store.entries).map (·.map (·.1))) ↔
    (paragraphs store.entries).IsChain fun units next => EndsWide cols units → next ≠ [] := by
  have ended : EndsHard [] := by simp [EndsHard]
  rw [reflowUncached_eq store positive]
  refine ⟨fun same => ((length_hardRowAnchors_layRows store.entries [] ended).2 ?_).1, fun apart => ?_⟩
  · exact (congrArg List.length same.2).trans (by rw [List.length_map]; exact (Nat.zero_add _).symm)
  have all := hardRowAnchors_layRows store.entries [] ended apart (fun unavailable => by cases unavailable)
  refine ⟨?_, all⟩
  have lengths := congrArg List.length all
  rw [List.length_append, List.length_map, hardRowAnchors, length_hardPieces, length_hardPieces] at lengths
  exact lengths.trans (Nat.zero_add _)

/-- An ideograph on one column, then a line with a letter and a blank line. -/
theorem reflowUncached_hard_breaks_wide :
    (paragraphs [sampleLine 5 [2] .hardBreak, sampleLine 6 [1] .hardBreak, sampleLine 7 [] .hardBreak]).IsChain
        (fun units next => EndsWide 1 units → next ≠ []) ∧
      hardRowAnchors (@HistoryStore.reflowUncached Unicode.sample
          { tail := [sampleLine 5 [2] .hardBreak, sampleLine 6 [1] .hardBreak, sampleLine 7 [] .hardBreak] } 1 none) =
        [[⟨5, 0⟩], [⟨6, 0⟩], []] := by
  have apart : (paragraphs [sampleLine 5 [2] .hardBreak, sampleLine 6 [1] .hardBreak,
      sampleLine 7 [] .hardBreak]).IsChain (fun units next => EndsWide 1 units → next ≠ []) := by
    refine .cons_cons (fun _ => List.cons_ne_nil _ _) (.cons_cons ?_ (.singleton _))
    rintro ⟨unit, last, wide⟩
    obtain rfl := Option.some.inj last
    exact absurd wide (by decide)
  exact ⟨apart, (@reflowUncached_hard_breaks Unicode.sample
    { tail := [sampleLine 5 [2] .hardBreak, sampleLine 6 [1] .hardBreak, sampleLine 7 [] .hardBreak] } 1
    (Nat.le_refl 1)).mpr apart |>.2⟩

/-- A blank line behind an ideograph on one column: both hard breaks are put on
the row of the ideograph, and the blank line has no row. -/
theorem reflowUncached_loses_blank :
    ((@HistoryStore.reflowUncached Unicode.sample
          { tail := [sampleLine 5 [2] .hardBreak, sampleLine 6 [] .hardBreak] } 1 none).filter
        (·.breakAfter = some .hardBreak)).length = 1 ∧
      (({ tail := [sampleLine 5 [2] .hardBreak, sampleLine 6 [] .hardBreak] } : HistoryStore).entries.filter
        (·.breakAfter = .hardBreak)).length = 2 := by
  exact ⟨rfl, rfl⟩

end Seyal.Terminal
