import Seyal.Protocol.Display.Cache

namespace Seyal.Protocol

open Program Run Slice Terminal DisplayCache

/-! What a batch does to the cache: the cells of each chunk replace its declared
range, and a refused batch leaves everything as it was. -/

namespace DecodedDisplayChunk

def start (chunk : DecodedDisplayChunk) (columns : Nat) : Nat := chunk.firstRow * columns + chunk.firstCol

/-- The cell index lies in the range the chunk declares. -/
def Declares (chunk : DecodedDisplayChunk) (index : Nat) : Prop :=
  chunk.start chunk.columns ≤ index ∧ index < chunk.start chunk.columns + chunk.cells.length

end DecodedDisplayChunk

open DecodedDisplayChunk

/-- The chunk's cells are in the grid, and its range was inside. -/
structure Wrote (columns : Nat) (chunk : DecodedDisplayChunk) (before after : List DisplayCell) : Prop where
  fits : chunk.start columns + chunk.cells.length ≤ before.length
  cells : after = overwritten before (chunk.start columns) chunk.cells

/-- Every chunk's cells are in the grid, written first to last. -/
inductive Assembled (columns : Nat) : List DecodedDisplayChunk → List DisplayCell → List DisplayCell → Prop
  | nil (cells : List DisplayCell) : Assembled columns [] cells cells
  | cons {chunk : DecodedDisplayChunk} {rest : List DecodedDisplayChunk} {before between after : List DisplayCell}
      (wrote : Wrote columns chunk before between) (others : Assembled columns rest between after) :
      Assembled columns (chunk :: rest) before after

theorem Assembled.length {columns : Nat} {chunks : List DecodedDisplayChunk} {before after : List DisplayCell}
    (assembled : Assembled columns chunks before after) : after.length = before.length := by
  induction assembled with
  | nil => rfl
  | cons wrote _ ih => rw [ih, wrote.cells, length_overwritten wrote.fits]

theorem Assembled.outside {columns : Nat} {chunks : List DecodedDisplayChunk} {before after : List DisplayCell}
    (assembled : Assembled columns chunks before after) (same : ∀ chunk ∈ chunks, chunk.columns = columns)
    {index : Nat} (undeclared : ∀ chunk ∈ chunks, ¬ chunk.Declares index) : after[index]? = before[index]? := by
  induction assembled with
  | nil => rfl
  | @cons chunk rest before between after wrote _ ih =>
      have apart : ¬ (chunk.start columns ≤ index ∧ index < chunk.start columns + chunk.cells.length) := by
        rw [← same chunk List.mem_cons_self]
        exact undeclared chunk List.mem_cons_self
      have later : after[index]? = between[index]? :=
        ih (List.forall_mem_cons.mp same).2
          (List.forall_mem_cons.mp undeclared).2
      rw [later, wrote.cells, getElem?_overwritten wrote.fits, if_neg apart]

section Spans

variable {columns : Nat} {chunk : DecodedDisplayChunk} {grid : GridProgress}

theorem validateV2Span_ok {firstCol rowCount cellCount columns : Nat}
    (valid : validateV2Span firstCol rowCount cellCount columns = .ok ()) :
    0 < rowCount ∧ (firstCol = 0 ∧ cellCount = rowCount * columns ∨ rowCount = 1 ∧ firstCol + cellCount ≤ columns) := by
  simp only [validateV2Span, bind_eq_ok, refuse_eq_ok] at valid
  obtain ⟨_, counts, span⟩ := valid
  exact ⟨by omega, Decidable.not_not.mp span⟩

theorem placeSpan_spec (contiguous : Bool) :
    wp (placeSpan chunk contiguous) (fun _ after => after.cells = grid.cells) (fun _ _ => True) grid := by
  simp only [placeSpan, wp_bind, wp_get]
  cases contiguous with
  | true =>
      cases started : grid.started with
      | true => exact wp_check (fun _ _ => rfl) (fun _ _ => trivial)
      | false =>
          change wp (check (refuse _ _) >>= fun _ => set _) _ _ grid
          rw [wp_bind]
          exact wp_check (fun _ _ => rfl) (fun _ _ => trivial)
  | false =>
      cases started : grid.started with
      | true => exact wp_check (fun _ _ => rfl) (fun _ _ => trivial)
      | false => rfl

theorem writePartialRow_spec :
    wp (writePartialRow columns chunk) (fun _ after => Wrote columns chunk grid.cells after.cells)
      (fun _ _ => True) grid := by
  simp only [writePartialRow, wp_bind, wp_get]
  refine wp_check (fun _ inside => ?_) fun _ _ => trivial
  rw [refuse_eq_ok, Nat.not_lt] at inside
  refine wp_lift (overwrite?_eq inside) ?_
  refine wp_check (fun cursorCol _ => ?_) fun _ _ => trivial
  rw [wp_ite]
  split
  · rw [wp_bind]
    exact wp_check (fun _ _ => ⟨inside, rfl⟩) fun _ _ => trivial
  · exact ⟨inside, rfl⟩

/-- The first `count` rows of a chunk of whole rows are written. -/
structure WroteRows (columns : Nat) (chunk : DecodedDisplayChunk) (before : List DisplayCell) (count : Nat)
    (after : List DisplayCell) : Prop where
  length : after.length = before.length
  fits : count ≠ 0 → (chunk.firstRow + count) * columns ≤ before.length
  source : count * columns ≤ chunk.cells.length
  cells : after = overwritten before (chunk.firstRow * columns) (chunk.cells.take (count * columns))

theorem writeWholeRow_spec {before : List DisplayCell} {count : Nat}
    (wrote : WroteRows columns chunk before count grid.cells) :
    wp (writeWholeRow columns chunk count) (fun _ after => WroteRows columns chunk before (count + 1) after.cells)
      (fun _ _ => True) grid := by
  simp only [writeWholeRow, wp_bind]
  refine wp_check (fun row added => ?_) fun _ _ => trivial
  obtain rfl : chunk.firstRow + count = row := by
    rw [orRefuse_eq_ok, checkedAdd] at added
    split at added
    · exact Option.some.inj added
    · simp at added
  rw [wp_get]
  refine wp_check (fun _ inside => ?_) fun _ _ => trivial
  rw [refuse_eq_ok, not_or, Nat.not_lt, Nat.not_lt] at inside
  obtain ⟨inside, available⟩ := inside
  have next : (count + 1) * columns = count * columns + columns := Nat.succ_mul count columns
  refine wp_lift (subrange?_eq (Nat.le_add_right _ _) available) ?_
  have size : (subrange chunk.cells (count * columns) (count * columns + columns)).length = columns := by
    rw [length_subrange available, Nat.add_sub_cancel_left]
  refine wp_lift (overwrite?_eq (by rw [size]; exact inside)) ?_
  rw [wrote.length, Nat.add_mul] at inside
  have taken : (chunk.cells.take (count * columns)).length = count * columns :=
    List.length_take_of_le wrote.source
  have joined : chunk.cells.take (count * columns) ++
      subrange chunk.cells (count * columns) (count * columns + columns) =
      chunk.cells.take ((count + 1) * columns) := by
    rw [subrange, Nat.add_sub_cancel_left, next, List.take_add]
  refine ⟨?_, fun _ => ?_, by omega, ?_⟩
  · show (overwritten _ _ _).length = _
    rw [length_overwritten (by rw [size, wrote.length, Nat.add_mul]; exact inside), wrote.length]
  · rw [Nat.add_mul, next]
    omega
  · show overwritten grid.cells _ _ = _
    rw [wrote.cells, Nat.add_mul, ← joined, ← overwritten_overwritten (by omega), taken]

theorem writeWholeRows_spec (some : chunk.rowCount ≠ 0) (first : chunk.firstCol = 0)
    (length : chunk.cells.length = chunk.rowCount * columns) :
    wp (writeWholeRows columns chunk) (fun _ after => Wrote columns chunk grid.cells after.cells)
      (fun _ _ => True) grid := by
  rw [writeWholeRows, wp_bind]
  have entry : WroteRows columns chunk grid.cells 0 grid.cells :=
    ⟨rfl, fun zero => absurd rfl zero, by simp, by simp [overwritten]⟩
  refine wp_mono (wp_forRange (fun count after => WroteRows columns chunk grid.cells count after.cells) 0 _ entry
    fun count current _ _ wrote => writeWholeRow_spec wrote) ?_ (fun _ _ => id)
  intro _ after wrote
  rw [Nat.zero_add] at wrote
  rw [wp_bind]
  refine wp_check (fun cursorRow _ => ?_) fun _ _ => trivial
  have start : chunk.start columns = chunk.firstRow * columns := by
    rw [start, first, Nat.add_zero]
  refine ⟨?_, ?_⟩
  · rw [start, length, ← Nat.add_mul]
    exact wrote.fits some
  · show after.cells = _
    rw [start, wrote.cells, ← length, List.take_length]

theorem applySpanToGrid_spec (contiguous : Bool) :
    wp (applySpanToGrid columns contiguous chunk) (fun _ after => Wrote columns chunk grid.cells after.cells)
      (fun _ _ => True) grid := by
  rw [applySpanToGrid, wp_bind]
  refine wp_check (fun _ valid => ?_) fun _ _ => trivial
  obtain ⟨some, span⟩ := validateV2Span_ok valid
  rw [wp_bind]
  refine wp_mono (placeSpan_spec contiguous) ?_ (fun _ _ => id)
  intro _ placed same
  rw [wp_ite, ← same]
  split
  next => exact writePartialRow_spec
  next whole =>
    -- A single row that is not partial fills the grid's row.
    have full : chunk.firstCol = 0 ∧ chunk.cells.length = chunk.rowCount * columns := by
      rcases span with full | ⟨single, _⟩
      · exact full
      · rw [single, Nat.one_mul]
        exact Decidable.not_not.mp fun other => whole ⟨single, other⟩
    exact writeWholeRows_spec (by omega) full.1 full.2

theorem startAt_spec (chunk : DecodedDisplayChunk) (grid : GridProgress) :
    wp (do modify (startAt chunk); applySpanToGrid columns false chunk)
      (fun _ after => Wrote columns chunk grid.cells after.cells) (fun _ _ => True) grid := by
  rw [wp_bind, wp_modify]
  have kept : (startAt chunk grid).cells = grid.cells := by
    unfold startAt
    split <;> rfl
  rw [← kept]
  exact applySpanToGrid_spec false

theorem forEach_spans {body : DecodedDisplayChunk → Run GridProgress DisplayError Unit}
    (writes : ∀ chunk grid, wp (body chunk) (fun _ after => Wrote columns chunk grid.cells after.cells)
      (fun _ _ => True) grid) (chunks : List DecodedDisplayChunk) (grid : GridProgress) :
    wp (Run.forEach body chunks) (fun _ after => Assembled columns chunks grid.cells after.cells)
      (fun _ _ => True) grid := by
  induction chunks generalizing grid with
  | nil => exact .nil _
  | cons chunk rest ih =>
      change wp (body chunk >>= fun _ => Run.forEach body rest) _ _ _
      rw [wp_bind]
      refine wp_mono (writes chunk grid) (fun _ between wrote => ?_) (fun _ _ => id)
      exact wp_mono (ih between) (fun _ _ others => .cons wrote others) (fun _ _ => id)

end Spans

section Batches

variable {chunks : List DecodedDisplayChunk} {first : DecodedDisplayChunk} {cache : DisplayCache}

theorem checkBatch_ok {index : Nat} (checked : first.checkBatch index chunks = .ok ()) :
    ∀ chunk ∈ chunks, chunk.kind = first.kind ∧ chunk.schema = first.schema ∧ chunk.rows = first.rows ∧
      chunk.columns = first.columns := by
  induction chunks generalizing index with
  | nil => simp
  | cons chunk rest ih =>
      simp only [checkBatch, bind_eq_ok, refuse_eq_ok] at checked
      obtain ⟨_, agrees, remaining⟩ := checked
      intro other member
      cases member with
      | head =>
          simp only [differs, Bool.or_eq_true, decide_eq_true_eq] at agrees
          tauto
      | tail _ later => exact ih remaining other later

/-- The cache after an accepted batch, apart from what `adopt` sets. -/
structure Accepted (chunks : List DecodedDisplayChunk) (first : DecodedDisplayChunk) (before after : DisplayCache) :
    Prop where
  rows : after.rows = first.rows
  columns : after.columns = first.columns
  length : after.cells.length = first.rows * first.columns
  delta : first.kind = .delta → before.rows = first.rows ∧ before.columns = first.columns ∧
    Assembled first.columns chunks before.cells after.cells

theorem writeChunkV1_spec {chunk : DecodedDisplayChunk} (placed : chunk.Placed) (schema : chunk.schema ≠ displaySchemaV2)
    (rows : chunk.rows = cache.rows) (columns : chunk.columns = cache.columns)
    (length : cache.cells.length = cache.rows * cache.columns) :
    wp (writeChunkV1 chunk) (fun _ after => ∃ cells, after = { cache with cells } ∧
      Wrote cache.columns chunk cache.cells cells) (fun _ _ => False) cache := by
  obtain ⟨firstCol, size⟩ := placed.whole schema
  have start : chunk.start cache.columns = chunk.firstRow * cache.columns := by
    rw [start, firstCol, Nat.add_zero]
  have inside : chunk.firstRow * cache.columns + chunk.cells.length ≤ cache.cells.length := by
    rw [size, columns, ← Nat.add_mul, length, ← rows]
    exact Nat.mul_le_mul_right _ placed.inside
  simp only [writeChunkV1, wp_bind, wp_get]
  refine wp_check (fun _ _ => ?_) fun error refused => ?_
  · refine wp_lift (overwrite?_eq inside) ⟨_, rfl, ?_⟩
    rw [← start] at inside ⊢
    exact ⟨inside, rfl⟩
  · rw [refuse, if_neg (Nat.not_lt.mpr inside)] at refused
    cases refused

theorem forEach_writeChunkV1 (placed : ∀ chunk ∈ chunks, chunk.Placed ∧ chunk.schema ≠ displaySchemaV2 ∧
      chunk.rows = cache.rows ∧ chunk.columns = cache.columns)
    (length : cache.cells.length = cache.rows * cache.columns) :
    wp (Run.forEach writeChunkV1 chunks) (fun _ after => ∃ cells, after = { cache with cells } ∧
      Assembled cache.columns chunks cache.cells cells) (fun _ _ => False) cache := by
  induction chunks generalizing cache with
  | nil => exact ⟨_, rfl, .nil _⟩
  | cons chunk rest ih =>
      change wp (writeChunkV1 chunk >>= fun _ => Run.forEach writeChunkV1 rest) _ _ _
      rw [wp_bind]
      obtain ⟨fits, schema, rows, columns⟩ := placed chunk List.mem_cons_self
      refine wp_mono (writeChunkV1_spec fits schema rows columns length) ?_ (fun _ _ => id)
      rintro _ _ ⟨between, rfl, wrote⟩
      have kept : between.length = cache.rows * cache.columns := by
        rw [wrote.cells, length_overwritten wrote.fits, length]
      refine wp_mono (ih (List.forall_mem_cons.mp placed).2 kept) ?_ (fun _ _ => id)
      rintro _ _ ⟨cells, rfl, others⟩
      exact ⟨cells, rfl, .cons wrote others⟩

theorem applyChunksV1_spec (placed : ∀ chunk ∈ chunks, chunk.Placed ∧ chunk.schema ≠ displaySchemaV2 ∧
      chunk.rows = first.rows ∧ chunk.columns = first.columns)
    (length : cache.cells.length = cache.rows * cache.columns) :
    wp (applyChunksV1 chunks first) (fun _ after => Accepted chunks first cache after)
      (fun _ after => after = cache) cache := by
  simp only [applyChunksV1, wp_bind]
  refine wp_check (fun _ _ => ?_) fun _ _ => rfl
  refine wp_check (fun _ _ => ?_) fun _ _ => rfl
  cases kind : first.kind with
  | snapshot =>
      simp only [wp_bind]
      refine wp_check (fun _ complete => ?_) fun _ _ => rfl
      rw [refuse_eq_ok, ne_eq, Decidable.not_not] at complete
      exact ⟨rfl, rfl, complete, fun other => by simp [kind] at other⟩
  | delta =>
      simp only [wp_bind, wp_get]
      refine wp_check (fun _ _ => ?_) fun _ _ => rfl
      refine wp_check (fun _ same => ?_) fun _ _ => rfl
      rw [refuse_eq_ok, not_or, ne_eq, ne_eq, Decidable.not_not, Decidable.not_not] at same
      obtain ⟨rows, columns⟩ := same
      rw [← rows, ← columns] at placed
      refine wp_mono (forEach_writeChunkV1 placed length) ?_ (fun _ _ => False.elim)
      rintro _ _ ⟨cells, rfl, assembled⟩
      refine ⟨rows, columns, ?_, fun _ => ⟨rows, columns, columns ▸ assembled⟩⟩
      rw [← rows, ← columns]
      exact assembled.length.trans length

theorem applyChunksV2_spec (length : cache.cells.length = cache.rows * cache.columns) :
    wp (applyChunksV2 chunks first) (fun _ after => Accepted chunks first cache after)
      (fun _ after => after = cache) cache := by
  unfold applyChunksV2
  cases kind : first.kind with
  | snapshot =>
      simp only [wp_bind, wp_within]
      refine wp_mono (forEach_spans (fun _ _ => applySpanToGrid_spec true) chunks _) ?_ (fun _ _ _ => trivial)
      intro _ grid assembled
      refine wp_check (fun _ _ => ?_) fun _ _ => rfl
      refine ⟨rfl, rfl, ?_, fun other => by simp [kind] at other⟩
      exact assembled.length.trans List.length_replicate
  | delta =>
      simp only [wp_bind, wp_get, wp_within]
      refine wp_check (fun _ _ => ?_) fun _ _ => rfl
      refine wp_check (fun _ same => ?_) fun _ _ => rfl
      rw [refuse_eq_ok, not_or, ne_eq, ne_eq, Decidable.not_not, Decidable.not_not] at same
      obtain ⟨rows, columns⟩ := same
      refine wp_mono (forEach_spans startAt_spec chunks _) ?_ (fun _ _ _ => rfl)
      intro _ grid assembled
      refine ⟨rows, columns, ?_, fun _ => ⟨rows, columns, assembled⟩⟩
      rw [← rows, ← columns]
      exact assembled.length.trans length

theorem applyChunks_spec (decoded : ∀ chunk ∈ chunks, chunk.Decoded)
    (length : cache.cells.length = cache.rows * cache.columns) :
    wp (applyChunks chunks) (fun _ after => ∃ first ∈ chunks, first.checkBatch 0 chunks = .ok () ∧
      ∃ between, Accepted chunks first cache between ∧ after = between.adopt first)
      (fun _ after => after = cache) cache := by
  simp only [applyChunks, wp_bind]
  refine wp_check (fun first head => ?_) fun _ _ => rfl
  rw [orRefuse_eq_ok] at head
  have member : first ∈ chunks := List.mem_of_head? head
  refine wp_check (fun _ _ => ?_) fun _ _ => rfl
  refine wp_check (fun _ checked => ?_) fun _ _ => rfl
  have same := checkBatch_ok checked
  split
  next two =>
    rw [wp_bind]
    refine wp_mono (applyChunksV2_spec length) (fun _ between accepted => ?_) (fun _ _ => id)
    exact ⟨first, member, checked, between, accepted, rfl⟩
  next one =>
    rw [wp_bind]
    have placed : ∀ chunk ∈ chunks, chunk.Placed ∧ chunk.schema ≠ displaySchemaV2 ∧ chunk.rows = first.rows ∧
        chunk.columns = first.columns := by
      intro chunk present
      obtain ⟨_, schema, rows, columns⟩ := same chunk present
      exact ⟨(decoded chunk present).placed, schema ▸ one, rows, columns⟩
    refine wp_mono (applyChunksV1_spec placed length) (fun _ between accepted => ?_) (fun _ _ => id)
    exact ⟨first, member, checked, between, accepted, rfl⟩

end Batches

/-- The caches a client can hold: each call of `apply_chunks` is given chunks the
decoders made, whatever bytes they came from. -/
inductive DisplayRun : DisplayCache → Prop
  | empty : DisplayRun emptyCache
  | apply {cache after : DisplayCache} {chunks : List DecodedDisplayChunk} {outcome : Except DisplayError Unit}
      (earlier : DisplayRun cache) (decoded : ∀ chunk ∈ chunks, chunk.Decoded)
      (applied : applyChunks chunks cache = some (outcome, after)) : DisplayRun after

theorem DisplayRun.length {cache : DisplayCache} (reached : DisplayRun cache) :
    cache.cells.length = cache.rows * cache.columns := by
  induction reached with
  | empty => rfl
  | @apply cache after chunks outcome earlier decoded applied ih =>
      have spec := applyChunks_spec decoded ih
      cases outcome with
      | error error => rw [wp_error spec applied, ih]
      | ok _ =>
          obtain ⟨first, _, _, between, accepted, rfl⟩ := wp_ok spec applied
          show between.cells.length = between.rows * between.columns
          rw [accepted.length, accepted.rows, accepted.columns]

/-- A batch of decoded chunks never panics. A refused one leaves the cache as it
was; an accepted one leaves a full grid with the cursor inside, and a delta
changes no cell outside the declared ranges. -/
theorem DisplayRun.applyChunks_atomic {cache : DisplayCache} (reached : DisplayRun cache)
    {chunks : List DecodedDisplayChunk} (decoded : ∀ chunk ∈ chunks, chunk.Decoded) :
    ∃ outcome after, applyChunks chunks cache = some (outcome, after) ∧
      match outcome with
      | .error _ => after = cache
      | .ok _ => after.cells.length = after.rows * after.columns ∧
          after.cursorRow < after.rows ∧ after.cursorCol < after.columns ∧
          ((∃ chunk ∈ chunks, chunk.kind = .delta) → after.rows = cache.rows ∧ after.columns = cache.columns ∧
            ∀ index, (∀ chunk ∈ chunks, ¬ chunk.Declares index) → after.cells[index]? = cache.cells[index]?) := by
  have spec := applyChunks_spec decoded reached.length
  obtain ⟨⟨outcome, after⟩, applied⟩ := Option.isSome_iff_exists.mp (isSome_of_wp spec)
  refine ⟨outcome, after, applied, ?_⟩
  cases outcome with
  | error error => exact wp_error spec applied
  | ok _ =>
      obtain ⟨first, member, checked, between, accepted, rfl⟩ := wp_ok spec applied
      have placed := (decoded first member).placed
      have same := checkBatch_ok checked
      refine ⟨?_, ?_, ?_, ?_⟩
      · show between.cells.length = between.rows * between.columns
        rw [accepted.length, accepted.rows, accepted.columns]
      · show first.cursorRow < between.rows
        rw [accepted.rows]
        exact placed.cursorRow
      · show first.cursorCol < between.columns
        rw [accepted.columns]
        exact placed.cursorCol
      · rintro ⟨chunk, present, delta⟩
        obtain ⟨rows, columns, assembled⟩ := accepted.delta ((same chunk present).1 ▸ delta)
        refine ⟨accepted.rows.trans rows.symm, accepted.columns.trans columns.symm, fun index undeclared => ?_⟩
        exact assembled.outside (fun other listed => (same other listed).2.2.2) undeclared

/-- A schema-two payload for a grid of one row and two columns whose cells are inline leads. -/
def inlinePayload (generation baseGeneration firstCol : Nat) (scalars : List Char) : List UInt8 :=
  toLe 8 generation ++ toLe 8 baseGeneration ++ toLe 2 1 ++ toLe 2 2 ++ toLe 2 0 ++ toLe 2 0 ++ [1, 0, 0, 0] ++
    toLe 2 0 ++ toLe 2 1 ++ toLe 2 0 ++ toLe 2 1 ++ toLe 4 scalars.length ++ toLe 4 0 ++ toLe 2 2 ++
    toLe 2 firstCol ++ scalars.flatMap fun scalar => toLe 4 scalar.toNat ++ toLe 8 0 ++ toLe 4 0b101000

def inlineChunk (kind : DisplayKind) (generation baseGeneration firstCol : Nat) (scalars : List Char) :
    DecodedDisplayChunk :=
  { kind, schema := 2, generation, baseGeneration, rows := 1, columns := 2, cursorRow := 0, cursorCol := 0,
    cursorVisible := true, alternateScreen := false, firstRow := 0, rowCount := 1, firstCol,
    chunkIndex := 0, chunkCount := 1,
    cells := scalars.map fun scalar => DisplayCell.leadScalar scalar 1 .default .default {} }

def inlineCache (generation : Nat) (scalars : List Char) : DisplayCache :=
  { generation, rows := 1, columns := 2, cursorRow := 0, cursorCol := 0, cursorVisible := true,
    alternateScreen := false,
    cells := scalars.map fun scalar => DisplayCell.leadScalar scalar 1 .default .default {} }

/-- The second cell of a two-cell grid is replaced by a delta that declares only it. -/
theorem DisplayRun.applyChunks_atomic_delta :
    DisplayRun (inlineCache 7 ['a', 'b']) ∧ (inlineChunk .delta 8 7 1 ['c']).Decoded ∧
      applyChunks [inlineChunk .delta 8 7 1 ['c']] (inlineCache 7 ['a', 'b']) =
        some (.ok (), inlineCache 8 ['a', 'c']) ∧
      (inlineCache 8 ['a', 'c']).cells[0]? = (inlineCache 7 ['a', 'b']).cells[0]? := by
  have snapshot : ∀ chunk ∈ [inlineChunk .snapshot 7 0 0 ['a', 'b']], chunk.Decoded := by
    intro chunk member
    rw [List.mem_singleton.mp member]
    exact ⟨.snapshot, inlinePayload 7 0 0 ['a', 'b'], .inr rfl⟩
  have delta : ∀ chunk ∈ [inlineChunk .delta 8 7 1 ['c']], chunk.Decoded := by
    intro chunk member
    rw [List.mem_singleton.mp member]
    exact ⟨.delta, inlinePayload 8 7 1 ['c'], .inr rfl⟩
  have first : applyChunks [inlineChunk .snapshot 7 0 0 ['a', 'b']] emptyCache =
      some (.ok (), inlineCache 7 ['a', 'b']) := rfl
  have second : applyChunks [inlineChunk .delta 8 7 1 ['c']] (inlineCache 7 ['a', 'b']) =
      some (.ok (), inlineCache 8 ['a', 'c']) := rfl
  have shown : DisplayRun (inlineCache 7 ['a', 'b']) := .apply .empty snapshot first
  refine ⟨shown, delta _ List.mem_cons_self, second, ?_⟩
  obtain ⟨outcome, after, applied, kept⟩ := shown.applyChunks_atomic delta
  cases second.symm.trans applied
  refine (kept.2.2.2 ⟨_, List.mem_cons_self, rfl⟩).2.2 0 fun chunk member => ?_
  rw [List.mem_singleton.mp member]
  exact fun declared => absurd declared.1 (by decide)

end Seyal.Protocol
