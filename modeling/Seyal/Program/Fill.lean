import Mathlib.Algebra.Order.BigOperators.Group.List
import Mathlib.Algebra.Order.Ring.Nat
import Mathlib.Data.List.Chain

namespace Seyal.Program

/-! Filling rows of a fixed width with items from left to right. An item wider
than a row stands alone. -/

variable {α : Type}

structure Fill (α : Type) where
  done : List (List α) := []
  current : List α := []
  used : Nat := 0

namespace Fill

/-- The rows, with the one that is being filled. -/
def rows (fill : Fill α) : List (List α) :=
  if fill.current.isEmpty then fill.done else fill.done ++ [fill.current]

def behind (front : List (List α)) (fill : Fill α) : Fill α := { fill with done := front ++ fill.done }

variable (width : α → Nat) (cols : Nat)

def place (fill : Fill α) (item : α) : Fill α :=
  if cols < width item then { done := fill.rows ++ [[item]] }
  else if 0 < fill.used ∧ cols < fill.used + width item then
    { done := fill.rows, current := [item], used := width item }
  else { fill with current := fill.current ++ [item], used := fill.used + width item }

def places (fill : Fill α) (items : List α) : Fill α := items.foldl (place width cols) fill

variable {width : α → Nat} {cols : Nat} {fill : Fill α} {item : α} {items : List α}

theorem rows_of_current (nonempty : fill.current ≠ []) : fill.rows = fill.done ++ [fill.current] := by
  rw [rows, if_neg (by simpa using nonempty)]

theorem rows_of_bare (bare : fill.current = []) : fill.rows = fill.done := by
  rw [rows, bare]
  rfl

theorem rows_behind (front : List (List α)) (fill : Fill α) : (fill.behind front).rows = front ++ fill.rows := by
  unfold rows behind
  split
  · rfl
  · rw [List.append_assoc]

theorem place_wide (wide : cols < width item) : fill.place width cols item = { done := fill.rows ++ [[item]] } := by
  rw [place, if_pos wide]

theorem place_next (narrow : width item ≤ cols) (started : 0 < fill.used) (full : cols < fill.used + width item) :
    fill.place width cols item = { done := fill.rows, current := [item], used := width item } := by
  rw [place, if_neg (Nat.not_lt.mpr narrow), if_pos ⟨started, full⟩]

theorem place_here (narrow : width item ≤ cols) (room : fill.used = 0 ∨ fill.used + width item ≤ cols) :
    fill.place width cols item =
      { fill with current := fill.current ++ [item], used := fill.used + width item } := by
  rw [place, if_neg (Nat.not_lt.mpr narrow), if_neg (by omega)]

theorem place_cases (width : α → Nat) (cols : Nat) (fill : Fill α) (item : α) :
    cols < width item ∨ (width item ≤ cols ∧ 0 < fill.used ∧ cols < fill.used + width item) ∨
      (width item ≤ cols ∧ (fill.used = 0 ∨ fill.used + width item ≤ cols)) := by
  omega

theorem done_place (fill : Fill α) (item : α) :
    ∃ more, (fill.place width cols item).done = fill.done ++ more := by
  have grown : ∃ more, fill.rows = fill.done ++ more := by
    by_cases bare : fill.current = []
    · exact ⟨[], by rw [rows_of_bare bare, List.append_nil]⟩
    · exact ⟨[fill.current], rows_of_current bare⟩
  obtain ⟨more, grown⟩ := grown
  obtain wide | ⟨narrow, started, full⟩ | ⟨narrow, room⟩ := place_cases width cols fill item
  · rw [place_wide wide]
    exact ⟨more ++ [[item]], by rw [grown, List.append_assoc]⟩
  · rw [place_next narrow started full]
    exact ⟨more, grown⟩
  · rw [place_here narrow room]
    exact ⟨[], (List.append_nil _).symm⟩

theorem done_places (fill : Fill α) (items : List α) :
    ∃ more, (fill.places width cols items).done = fill.done ++ more := by
  induction items generalizing fill with
  | nil => exact ⟨[], (List.append_nil _).symm⟩
  | cons item items ih =>
      obtain ⟨first, placed⟩ := done_place fill item
      obtain ⟨more, all⟩ := ih (fill.place width cols item)
      exact ⟨first ++ more, by rw [places, List.foldl_cons, ← places, all, placed, List.append_assoc]⟩

theorem flatten_place (fill : Fill α) (item : α) :
    (fill.place width cols item).rows.flatten = fill.rows.flatten ++ [item] := by
  obtain wide | ⟨narrow, started, full⟩ | ⟨narrow, room⟩ := place_cases width cols fill item
  · rw [place_wide wide, rows_of_bare rfl]
    simp
  · rw [place_next narrow started full, rows_of_current (List.cons_ne_nil _ _)]
    simp
  · rw [place_here narrow room, rows_of_current (by simp)]
    by_cases bare : fill.current = []
    · rw [rows_of_bare bare, bare]
      simp
    · rw [rows_of_current bare]
      simp

theorem flatten_places (fill : Fill α) (items : List α) :
    (fill.places width cols items).rows.flatten = fill.rows.flatten ++ items := by
  induction items generalizing fill with
  | nil => simp [places]
  | cons item items ih =>
      rw [places, List.foldl_cons, ← places, ih, flatten_place, List.append_assoc]
      rfl

theorem rows_places_ne_nil (fill : Fill α) (nonempty : items ≠ []) : (fill.places width cols items).rows ≠ [] := by
  intro empty
  have flat : (fill.places width cols items).rows.flatten = _ := flatten_places fill items
  rw [empty] at flat
  exact nonempty (List.append_eq_nil_iff.mp flat.symm).2

theorem place_behind (front : List (List α)) (fill : Fill α) (item : α) :
    (fill.behind front).place width cols item = (fill.place width cols item).behind front := by
  obtain wide | ⟨narrow, started, full⟩ | ⟨narrow, room⟩ := place_cases width cols fill item
  · rw [place_wide wide, place_wide wide, rows_behind, List.append_assoc]
    rfl
  · rw [place_next narrow started full, place_next narrow (show 0 < (fill.behind front).used from started) full,
      rows_behind]
    rfl
  · rw [place_here narrow room, place_here narrow (show (fill.behind front).used = 0 ∨ _ from room)]
    rfl

theorem places_behind (front : List (List α)) (fill : Fill α) (items : List α) :
    (fill.behind front).places width cols items = (fill.places width cols items).behind front := by
  induction items generalizing fill with
  | nil => rfl
  | cons item items ih => rw [places, List.foldl_cons, place_behind, ← places, ih]; rfl

def total (width : α → Nat) (row : List α) : Nat := (row.map width).sum

/-- A row that fits, or one item that fits nowhere. -/
def Fits (width : α → Nat) (cols : Nat) (row : List α) : Prop :=
  total width row ≤ cols ∨ ∃ item, row = [item] ∧ cols < width item

/-- The next row begins with an item that the row has no room for. -/
def Full (width : α → Nat) (cols : Nat) (row next : List α) : Prop :=
  ∃ item rest, next = item :: rest ∧ cols < total width row + width item

/-- What holds from whatever column the first row starts in. -/
structure Shaped (width : α → Nat) (cols : Nat) (fill : Fill α) : Prop where
  narrow : ∀ item ∈ fill.current, width item ≤ cols
  /-- An empty row is left only behind an item that fits nowhere. -/
  alone : fill.current = [] → ∀ row ∈ fill.done.getLast?, ∃ item, row = [item] ∧ cols < width item

theorem Shaped.start (used : Nat) : Shaped width cols ({ used } : Fill α) where
  narrow := by simp
  alone := by simp

theorem Shaped.place (shaped : Shaped width cols fill) (item : α) :
    Shaped width cols (fill.place width cols item) := by
  obtain wide | ⟨narrow, started, full⟩ | ⟨narrow, room⟩ := place_cases width cols fill item
  · rw [place_wide wide]
    refine ⟨by simp, ?_⟩
    intro _ row last
    rw [List.getLast?_concat] at last
    exact ⟨item, (Option.some.inj last).symm, wide⟩
  · rw [place_next narrow started full]
    exact ⟨by simpa using narrow, fun bare => absurd bare (List.cons_ne_nil _ _)⟩
  · rw [place_here narrow room]
    refine ⟨?_, fun bare => absurd bare (by simp)⟩
    intro other member
    obtain older | rfl : other ∈ fill.current ∨ other = item := by simpa using member
    · exact shaped.narrow other older
    · exact narrow

theorem Shaped.places (shaped : Shaped width cols fill) (items : List α) :
    Shaped width cols (fill.places width cols items) := by
  induction items generalizing fill with
  | nil => exact shaped
  | cons item items ih => exact ih (shaped.place item)

structure Snug (width : α → Nat) (cols : Nat) (fill : Fill α) : Prop extends Shaped width cols fill where
  used_eq : fill.used = total width fill.current
  used_le : fill.used ≤ cols
  fits : ∀ row ∈ fill.done, row ≠ [] ∧ Fits width cols row
  full : fill.rows.IsChain (Full width cols)

theorem Snug.empty : Snug width cols ({} : Fill α) where
  toShaped := Shaped.start 0
  used_eq := rfl
  used_le := Nat.zero_le _
  fits := by simp
  full := .nil

@[simp] theorem total_nil : total width [] = 0 := rfl

theorem total_append (first second : List α) :
    total width (first ++ second) = total width first + total width second := by
  simp [total]

@[simp] theorem total_singleton (item : α) : total width [item] = width item := by
  simp [total]

theorem width_le_total {row : List α} (member : item ∈ row) : width item ≤ total width row := by
  obtain ⟨front, rest, rfl⟩ := List.append_of_mem member
  simp only [total, List.map_append, List.map_cons, List.sum_append, List.sum_cons]
  omega

theorem Snug.rows_fit (snug : Snug width cols fill) : ∀ row ∈ fill.rows, row ≠ [] ∧ Fits width cols row := by
  intro row member
  by_cases bare : fill.current = []
  · rw [rows_of_bare bare] at member
    exact snug.fits row member
  · rw [rows_of_current bare] at member
    obtain older | rfl : row ∈ fill.done ∨ row = fill.current := by simpa using member
    · exact snug.fits row older
    · exact ⟨bare, .inl (snug.used_eq ▸ snug.used_le)⟩

/-- The row in front of an item for which there is no room. -/
theorem Snug.full_of_next (snug : Snug width cols fill)
    (no_room : cols < width item ∨ 0 < fill.used ∧ cols < fill.used + width item) :
    ∀ row ∈ fill.rows.getLast?, Full width cols row [item] := by
  intro row last
  refine ⟨item, [], rfl, ?_⟩
  by_cases bare : fill.current = []
  · rw [rows_of_bare bare] at last
    obtain ⟨other, rfl, wide⟩ := snug.alone bare row last
    rw [total_singleton]
    omega
  · rw [rows_of_current bare, List.getLast?_concat] at last
    obtain rfl := Option.some.inj last
    rw [← snug.used_eq]
    omega

theorem isChain_concat {relation : List α → List α → Prop} {rows : List (List α)} {next : List α} :
    (rows ++ [next]).IsChain relation ↔ rows.IsChain relation ∧ ∀ row ∈ rows.getLast?, relation row next := by
  rw [List.isChain_append]
  simp

theorem Snug.place (snug : Snug width cols fill) (item : α) : Snug width cols (fill.place width cols item) := by
  have shaped := snug.toShaped.place item
  obtain wide | ⟨narrow, started, full⟩ | ⟨narrow, room⟩ := place_cases width cols fill item
  · rw [place_wide wide] at shaped ⊢
    refine ⟨shaped, rfl, Nat.zero_le _, ?_, ?_⟩
    · intro row member
      obtain older | rfl : row ∈ fill.rows ∨ row = [item] := by simpa using member
      · exact snug.rows_fit row older
      · exact ⟨List.cons_ne_nil _ _, .inr ⟨item, rfl, wide⟩⟩
    · rw [rows_of_bare rfl]
      exact isChain_concat.mpr ⟨snug.full, snug.full_of_next (.inl wide)⟩
  · rw [place_next narrow started full] at shaped ⊢
    refine ⟨shaped, (total_singleton item).symm, narrow, snug.rows_fit, ?_⟩
    rw [rows_of_current (List.cons_ne_nil _ _)]
    exact isChain_concat.mpr ⟨snug.full, snug.full_of_next (.inr ⟨started, full⟩)⟩
  · rw [place_here narrow room] at shaped ⊢
    refine ⟨shaped, ?_, ?_, snug.fits, ?_⟩
    · change fill.used + width item = total width (fill.current ++ [item])
      rw [total_append, total_singleton, snug.used_eq]
    · change fill.used + width item ≤ cols
      omega
    · rw [rows_of_current (by simp)]
      have chain := snug.full
      by_cases bare : fill.current = []
      -- A fresh row behind an item that stands alone.
      · rw [rows_of_bare bare] at chain
        refine isChain_concat.mpr ⟨chain, ?_⟩
        intro row last
        obtain ⟨other, rfl, wide⟩ := snug.alone bare row last
        exact ⟨item, [], by rw [bare]; rfl, by rw [total_singleton]; omega⟩
      -- The current row keeps its first item.
      · rw [rows_of_current bare] at chain
        obtain ⟨older, seam⟩ := isChain_concat.mp chain
        refine isChain_concat.mpr ⟨older, ?_⟩
        intro row last
        obtain ⟨first, rest, begins, no_room⟩ := seam row last
        exact ⟨first, rest ++ [item], by rw [begins]; rfl, no_room⟩

theorem Snug.places (snug : Snug width cols fill) (items : List α) :
    Snug width cols (fill.places width cols items) := by
  induction items generalizing fill with
  | nil => exact snug
  | cons item items ih => exact ih (snug.place item)

/-- The column behind the last item; a row that is full is left. -/
def column (cols : Nat) (fill : Fill α) : Nat := if fill.used < cols then fill.used else 0

theorem places_joined (front : List (List α)) (held current : List α) (used : Nat) (nonempty : current ≠ [])
    (items : List α) :
    ∃ first rest, first ≠ [] ∧
      (({ current, used } : Fill α).places width cols items).rows = first :: rest ∧
      (({ done := front, current := held ++ current, used } : Fill α).places width cols items).rows =
        front ++ (held ++ first) :: rest := by
  have open_ : held ++ current ≠ [] := by simp [nonempty]
  induction items generalizing current used with
  | nil => exact ⟨current, [], nonempty, rows_of_current nonempty, rows_of_current open_⟩
  | cons item items ih =>
      have short : ({ current, used } : Fill α).rows = [current] := rows_of_current nonempty
      have long : ({ done := front, current := held ++ current, used } : Fill α).rows = front ++ [held ++ current] :=
        rows_of_current open_
      simp only [places, List.foldl_cons]
      rw [← places, ← places]
      -- Once the row is finished, what follows is the same behind it.
      have same (fill : Fill α) :
          ∃ first rest, first ≠ [] ∧ ((fill.behind [current]).places width cols items).rows = first :: rest ∧
            ((fill.behind (front ++ [held ++ current])).places width cols items).rows =
              front ++ (held ++ first) :: rest := by
        rw [places_behind, places_behind, rows_behind, rows_behind]
        exact ⟨current, _, nonempty, rfl, by simp⟩
      obtain wide | ⟨narrow, started, full⟩ | ⟨narrow, room⟩ :=
        place_cases width cols ({ current, used } : Fill α) item
      · rw [place_wide wide, place_wide wide, short, long]
        exact same { done := [[item]] }
      · rw [place_next narrow started full,
          place_next narrow (show 0 < ({ done := front, current := held ++ current, used } : Fill α).used from started)
            full, short, long]
        simpa only [behind, List.append_nil] using same { current := [item], used := width item }
      · rw [place_here narrow room,
          place_here narrow (show ({ done := front, current := held ++ current, used } : Fill α).used = 0 ∨ _ from room)]
        have longer := ih (current ++ [item]) (used + width item) (by simp) (by simp)
        simpa only [List.append_assoc] using longer

theorem places_cons (fill : Fill α) (item : α) (items : List α) :
    fill.places width cols (item :: items) = (fill.place width cols item).places width cols items := rfl

theorem places_apart (positive : 0 < cols) (widths : ∀ item, 0 < width item) (snug : Snug width cols fill) (item : α)
    (items : List α) (apart : fill.column cols = 0 ∨ cols < fill.column cols + width item) :
    (fill.places width cols (item :: items)).rows =
      fill.rows ++ (({ used := fill.column cols } : Fill α).places width cols (item :: items)).rows := by
  have same : fill.place width cols item =
      (({ used := fill.column cols } : Fill α).place width cols item).behind fill.rows := by
    have bare : ({ used := fill.column cols } : Fill α).rows = [] := rfl
    obtain wide | ⟨narrow, started, full⟩ | ⟨narrow, room⟩ := place_cases width cols fill item
    · rw [place_wide wide, place_wide wide, bare]
      rfl
    · rw [place_next narrow started full]
      by_cases left : fill.used < cols
      · have column : fill.column cols = fill.used := if_pos left
        rw [place_next narrow (show 0 < ({ used := fill.column cols } : Fill α).used by rw [column]; exact started)
          (by rw [column]; exact full), bare]
        simp [behind]
      · have column : fill.column cols = 0 := if_neg left
        rw [place_here narrow (.inl column), column]
        simp [behind]
    · -- There is room in the current row, so it is empty.
      have empty : fill.used = 0 := by
        unfold column at apart
        have := widths item
        have := snug.used_le
        split at apart <;> omega
      have current : fill.current = [] := by
        by_contra nonempty
        obtain ⟨first, rest, whole⟩ := List.exists_cons_of_ne_nil nonempty
        have held : width first ≤ total width fill.current :=
          width_le_total (by rw [whole]; exact List.mem_cons_self)
        have := widths first
        rw [← snug.used_eq] at held
        omega
      have column : fill.column cols = 0 := by rw [column, if_pos (by omega), empty]
      rw [place_here narrow room, place_here narrow (.inl column), rows_of_bare current, column, empty, current]
      simp [behind]
  rw [places_cons, same, places_behind, rows_behind, places_cons]

theorem places_continued (item : α) (items : List α) (started : 0 < fill.column cols)
    (room : fill.column cols + width item ≤ cols) :
    ∃ first rest, first ≠ [] ∧
      (({ used := fill.column cols } : Fill α).places width cols (item :: items)).rows = first :: rest ∧
      (fill.places width cols (item :: items)).rows = fill.done ++ (fill.current ++ first) :: rest := by
  have column : fill.column cols = fill.used := by
    unfold column at started ⊢
    split at started
    · rw [if_pos ‹_›]
    · omega
  rw [column] at room ⊢
  have narrow : width item ≤ cols := by omega
  rw [places_cons, places_cons, place_here narrow (.inr room),
    place_here narrow (show ({ used := fill.used } : Fill α).used = 0 ∨ _ from .inr room)]
  exact places_joined fill.done fill.current [item] (fill.used + width item) (List.cons_ne_nil _ _) items

end Fill

def Boundary (rows : List (List α)) (position : Nat) : Prop :=
  ∃ front behind, rows = front ++ behind ∧ front.flatten.length = position

theorem boundary_map {β : Type} (change : α → β) (rows : List (List α)) (position : Nat) :
    Boundary (rows.map (·.map change)) position ↔ Boundary rows position := by
  have length (rows : List (List α)) : (rows.map (·.map change)).flatten.length = rows.flatten.length := by
    rw [← List.map_flatten, List.length_map]
  constructor
  · rintro ⟨front, behind, split, rfl⟩
    obtain ⟨first, rest, rfl, rfl, rfl⟩ := List.map_eq_append_iff.mp split
    exact ⟨first, rest, rfl, (length first).symm⟩
  · rintro ⟨front, behind, rfl, rfl⟩
    exact ⟨front.map (·.map change), behind.map (·.map change), List.map_append, length front⟩

theorem append_eq_past {front rest before behind : List (List α)} {row : List α}
    (split : front ++ row :: rest = before ++ behind) (past : front.flatten.length < before.flatten.length) :
    ∃ between, before = front ++ row :: between ∧ rest = between ++ behind := by
  obtain ⟨between, rfl, tail⟩ | ⟨between, rfl, tail⟩ := List.append_eq_append_iff.mp split
  · cases between with
    | nil => simp at past
    | cons first between =>
        obtain ⟨rfl, rfl⟩ := List.cons.inj tail
        exact ⟨between, rfl, rfl⟩
  · simp only [List.flatten_append, List.length_append] at past
    omega

theorem boundary_joined {front rest : List (List α)} {held first : List α} {position : Nat} (inside : 0 < position) :
    Boundary (front ++ (held ++ first) :: rest) (front.flatten.length + held.length + position) ↔
      Boundary (first :: rest) position := by
  constructor
  · rintro ⟨before, behind, split, length⟩
    obtain ⟨between, rfl, rfl⟩ := append_eq_past split (by omega)
    refine ⟨first :: between, behind, rfl, ?_⟩
    simp only [List.flatten_append, List.flatten_cons, List.length_append] at length ⊢
    omega
  · rintro ⟨before, behind, split, rfl⟩
    cases before with
    | nil => exact absurd inside (Nat.lt_irrefl 0)
    | cons row before =>
        obtain ⟨rfl, rfl⟩ := List.cons.inj split
        refine ⟨front ++ (held ++ first) :: before, behind, by simp, ?_⟩
        simp only [List.flatten_append, List.flatten_cons, List.length_append]
        omega

theorem boundary_behind {front rows : List (List α)} {position : Nat} (inside : 0 < position) :
    Boundary (front ++ rows) (front.flatten.length + position) ↔ Boundary rows position := by
  constructor
  · rintro ⟨before, behind, split, length⟩
    obtain ⟨between, rfl, rfl⟩ | ⟨between, rfl, rfl⟩ := List.append_eq_append_iff.mp split
    · refine ⟨between, behind, rfl, ?_⟩
      simpa using length
    · simp only [List.flatten_append, List.length_append] at length
      omega
  · rintro ⟨before, behind, rfl, rfl⟩
    exact ⟨front ++ before, behind, by simp, by simp⟩

theorem not_boundary_joined {front rest : List (List α)} {held first : List α} (held_some : held ≠ [])
    (first_some : first ≠ []) :
    ¬ Boundary (front ++ (held ++ first) :: rest) (front.flatten.length + held.length) := by
  rintro ⟨before, behind, split, length⟩
  have := List.length_pos_of_ne_nil held_some
  have := List.length_pos_of_ne_nil first_some
  obtain ⟨between, rfl, rfl⟩ := append_eq_past split (by omega)
  simp only [List.flatten_append, List.flatten_cons, List.length_append] at length
  omega

end Seyal.Program
