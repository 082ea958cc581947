import Seyal.Runtime.Projection.Untorn

namespace Seyal.Runtime.Projection

open Program Reading

/-! What a reader decodes while the writer replaces it. The reader returns the error of a decoder
at once, without looking whether the sequence is still the same. -/

/-- The checks that a reader makes pass on the snapshot as it was published. -/
def Readable (region : RegionHeader) (snapshot : SnapshotWrite) : Prop :=
  (snapshot.header 1).check region.capacityRows region.capacityCols = .ok (snapshot.header 1) ∧
    ∀ damage ∈ snapshot.damages, damage.check snapshot.rows = .ok damage

instance (region : RegionHeader) (snapshot : SnapshotWrite) : Decidable (Readable region snapshot) :=
  inferInstanceAs (Decidable (_ ∧ _))

/-- The cursor and the damages are inside so many rows and columns. -/
def SnapshotWrite.FitsIn (snapshot : SnapshotWrite) (rows columns : UInt16) : Prop :=
  (0 < rows → 0 < columns → snapshot.cursorRow < rows ∧ snapshot.cursorCol < columns) ∧
    ∀ damage ∈ snapshot.damages, damage.firstRow ≤ damage.lastRow ∧ damage.lastRow < rows

/-- The second snapshot has as many records as the first and fits its rows and columns. -/
def Alike (first second : SnapshotWrite) : Prop :=
  second.cells.length = first.cells.length ∧ second.damages.length = first.damages.length ∧
    second.FitsIn first.rows first.columns

instance (first second : SnapshotWrite) : Decidable (Alike first second) :=
  inferInstanceAs (Decidable (_ ∧ _ ∧ (_ → _ → _) ∧ _))

/-- The generation was announced, or about to be, at some time of a call. -/
structure Overlapped (published : List SnapshotWrite) (since ended generation : Nat) (snapshot : SnapshotWrite) :
    Prop where
  positive : 1 ≤ generation
  since_le : since ≤ generation
  le_ended : generation ≤ ended + 1
  found : published[generation - 1]? = some snapshot

variable {region : RegionHeader} {memoryLen : Nat} {world later state before now : World region}
  {slot generation : Nat} {snapshot : SnapshotWrite}

/-! Every word of a slot is from a snapshot that was published into it. -/

theorem Inv.store_cases (inv : Inv world) (stored : world.store = some later) :
    ∃ offset word, later.memory = Function.update world.memory offset word ∧
      later.published = world.published ∧
      (offset = publicationWordOffset ∨ (∃ slot < 2, offset = region.address slot 0) ∨
        ∃ snapshot count, world.published[world.published.length - 1]? = some snapshot ∧ 1 ≤ world.published.length ∧
          (snapshot.words world.published.length)[count]? = some word ∧
          offset = region.address (slotOf world.published.length) (count + 1)) := by
  obtain ⟨memory, writer, pending, published⟩ := world
  have stage : Stage region memory published pending := inv.stage
  have slot := slotOf_lt published.length
  cases stage with
  | settled announced previous => cases stored
  | called some_ last announced previous =>
    cases stored
    exact ⟨_, _, rfl, rfl, .inr (.inl ⟨_, slot, rfl⟩)⟩
  | @writing snapshot count some_ last announced marked written =>
    cases split : (snapshot.words published.length).drop count with
    | nil =>
      rw [split] at stored
      cases stored
      exact ⟨_, _, rfl, rfl, .inr (.inl ⟨_, slot, rfl⟩)⟩
    | cons word rest =>
      rw [split] at stored
      cases stored
      exact ⟨_, _, rfl, rfl, .inr (.inr ⟨snapshot, count, last, some_, (drop_eq_cons split).1, rfl⟩)⟩
  | sealed some_ announced complete =>
    cases stored
    exact ⟨_, _, rfl, rfl, .inl rfl⟩

theorem World.call_memory (called : world.call snapshot = some later) : later.memory = world.memory := by
  unfold World.call at called
  split at called
  next =>
    split at called
    next => cases called; rfl
    next => cases called; rfl
  next => cases called

/-- The word of a slot is from a snapshot at least as new as this generation. -/
def Holds (world : World region) (slot generation index : Nat) : Prop :=
  ∃ other snapshot, generation ≤ other ∧ other ≤ world.published.length ∧ slotOf other = slot ∧
    world.published[other - 1]? = some snapshot ∧
    (snapshot.words other)[index]? = some (world.memory (region.address slot (index + 1)))

variable {index : Nat} {words : List Nat}

theorem Holds.step (valid : region.Valid memoryLen) (inv : Inv world) (below : slot < 2)
    (inside : 8 * (index + 1) + 8 ≤ region.slotStride.toNat) (holds : Holds world slot generation index)
    (moved : World.Step world later) : Holds later slot generation index := by
  obtain ⟨other, snapshot, newer, old, same, found, word⟩ := holds
  have ahead := (inv.step valid moved).2
  have longer : world.published.length ≤ later.published.length := ahead.published.length_le
  cases moved with
  | call published called =>
      rw [← World.call_memory called] at word
      exact ⟨other, snapshot, newer, old.trans longer, same, ahead.found found, word⟩
  | store stored =>
      obtain ⟨offset, stored, memory, published, cases⟩ := inv.store_cases stored
      by_cases here : region.address slot (index + 1) = offset
      · rcases cases with rfl | ⟨slot', below', rfl⟩ | ⟨latest, count, last, some_, written, rfl⟩
        · exact absurd here (RegionHeader.address_ne_publication valid _ _)
        · have indices := (RegionHeader.address_inj ⟨below, below'⟩ ⟨inside, by omega⟩ here).2
          omega
        · have room := roomy_of_validate (inv.validated latest (List.mem_of_getElem? last))
          have bound := (List.getElem?_eq_some_iff.mp written).1
          rw [length_words] at bound
          unfold Roomy at room
          obtain ⟨rfl, rest⟩ := RegionHeader.address_inj ⟨below, slotOf_lt _⟩ ⟨inside, by omega⟩ here
          obtain rfl : index = count := by omega
          refine ⟨world.published.length, latest, newer.trans old, longer, rfl, ahead.found last, ?_⟩
          rw [memory, Function.update_self]
          exact written
      · rw [← Function.update_of_ne here stored world.memory, ← memory] at word
        exact ⟨other, snapshot, newer, old.trans longer, same, ahead.found found, word⟩

theorem Holds.since (valid : region.Valid memoryLen) (inv : Inv world) (below : slot < 2)
    (inside : 8 * (index + 1) + 8 ≤ region.slotStride.toNat) (holds : Holds world slot generation index)
    (after : world ≤ later) : Holds later slot generation index := by
  induction after with
  | refl => exact holds
  | tail past moved ih => exact ih.step valid (inv.since valid past).1 below inside moved

/-- A snapshot that was in the slot, or about to be, at some time of a call. -/
structure Source (state now : World region) (slot generation : Nat) (snapshot : SnapshotWrite) : Prop where
  slot : slotOf generation = slot
  overlapped : Overlapped now.published state.announced now.announced generation snapshot

theorem Opened.source (valid : region.Valid memoryLen) (inv : Inv state)
    (opened : Opened state before now slot generation) :
    ∃ snapshot, Source state now slot generation snapshot ∧ ∀ {start count : Nat} {words : List Nat},
      Loaded World.memory before now (region.address slot (start + 1)) count words →
      start + count ≤ 7 + 2 * snapshot.cells.length + snapshot.damages.length →
      ∀ index < count, ∃ other source, Source state now slot other source ∧ index < words.length ∧
        words[index]? = (source.words other)[start + index]? := by
  obtain ⟨first, fromState, toBefore, announced⟩ := opened.announced
  obtain ⟨firstInv, firstAhead⟩ := inv.since valid fromState
  obtain ⟨beforeInv, _⟩ := firstInv.since valid toBefore
  obtain ⟨nowInv, beforeAhead⟩ := beforeInv.since valid opened.since
  have slot_lt := opened.slot_lt
  have positive := opened.positive
  have seen : first.announced = generation := by
    rw [World.announced, announced]
    omega
  have low := firstAhead.announced_le
  have high := nowInv.announced.2
  obtain ⟨inside, slotSame, complete⟩ := beforeInv.complete slot_lt positive opened.sequence
  have bound : generation - 1 < before.published.length := by omega
  have found := List.getElem?_eq_getElem bound
  generalize before.published[generation - 1] = snapshot at found
  have longer : before.published.length ≤ now.published.length := beforeAhead.published.length_le
  refine ⟨snapshot, ⟨slotSame, positive, by omega, by omega, beforeAhead.found found⟩, ?_⟩
  intro start count words loaded fits index below
  obtain ⟨_, length, each⟩ := loaded
  obtain ⟨at_, since, upTo, here⟩ := each index below
  have room := roomy_of_validate (beforeInv.validated snapshot (List.mem_of_getElem? found))
  have total := length_words snapshot generation
  unfold Roomy at room
  have word := List.getElem?_eq_getElem (show start + index < (snapshot.words generation).length by omega)
  have base : Holds before slot generation (start + index) :=
    ⟨generation, snapshot, Nat.le_refl _, inside, slotSame, found,
      word.trans (congrArg some (complete.words snapshot positive found _ _ word).symm)⟩
  obtain ⟨other, source, newer, old, same, from_, held⟩ := base.since valid beforeInv slot_lt (by omega) since
  obtain ⟨atInv, _⟩ := beforeInv.since valid since
  have atAhead := (atInv.since valid upTo).2
  have atLonger : at_.published.length ≤ now.published.length := atAhead.published.length_le
  have position : region.address slot (start + 1) + 8 * index = region.address slot (start + index + 1) := by
    unfold RegionHeader.address
    omega
  refine ⟨other, source, ⟨same, by omega, by omega, by omega, atAhead.found from_⟩, by omega, ?_⟩
  rw [here, held, position]

/-! A mixture of alike snapshots passes the checks. -/

theorem small_of_readable (validated : validateSnapshot region snapshot = .ok ())
    (readable : Readable region snapshot) : snapshot.cells.length ≤ maxCapacityCells := by
  obtain ⟨_, _, cells, _, _⟩ := validateSnapshot_ok validated
  obtain ⟨_, counted, small⟩ := SlotHeader.eq_of_check readable.1
  rw [counted] at small
  rw [cells]
  exact small

theorem alike_self (readable : Readable region snapshot) : Alike snapshot snapshot := by
  obtain ⟨checked, damages⟩ := readable
  refine ⟨rfl, rfl, fun rows columns => ?_, fun damage member => ?_⟩
  · simp only [SlotHeader.check, bind_eq_ok, refuse_eq_ok, pure_eq_ok] at checked
    obtain ⟨_, _, _, _, _, _, _, _, _, cursor, _⟩ := checked
    constructor
    · exact UInt16.not_le.mp fun outside => cursor ⟨rows, columns, .inl outside⟩
    · exact UInt16.not_le.mp fun outside => cursor ⟨rows, columns, .inr outside⟩
  · have inRows := damages damage member
    simp only [DamageRecord.check, bind_eq_ok, refuse_eq_ok, pure_eq_ok, not_or, UInt16.not_lt,
      UInt16.not_le] at inRows
    obtain ⟨_, fits, _⟩ := inRows
    exact fits

/-- All snapshots in the slot at some time of a call are alike. -/
structure Uniform (state now : World region) (slot : Nat) : Prop where
  validated : ∀ generation snapshot, Source state now slot generation snapshot →
    validateSnapshot region snapshot = .ok () ∧ snapshot.cells.length ≤ maxCapacityCells
  alike : ∀ first second one other, Source state now slot first one → Source state now slot second other →
    Alike one other

theorem SlotHeader.check_eq_ok {header : SlotHeader} {capacityRows capacityCols : UInt16}
    (capacity : header.rows ≤ capacityRows ∧ header.columns ≤ capacityCols) (full : header.fullSnapshot = true)
    (cells : header.cellCount.toNat = header.rows.toNat * header.columns.toNat)
    (small : header.cellCount.toNat ≤ maxCapacityCells) (damages : header.damageCount.toNat ≤ header.rows.toNat)
    (cursor : 0 < header.rows → 0 < header.columns →
      header.cursorRow < header.rows ∧ header.cursorCol < header.columns) :
    header.check capacityRows capacityCols = .ok header := by
  simp only [SlotHeader.check, bind_eq_ok, refuse_eq_ok, pure_eq_ok]
  refine ⟨(), ?_, (), by simp [full], (), by omega, (), ?_, (), ?_, trivial⟩
  · simp only [not_or, UInt16.not_lt]
    exact capacity
  · rw [UInt16.not_lt]
    exact UInt16.le_iff_toNat_le.mpr damages
  · rintro ⟨rows, columns, outside⟩
    obtain ⟨row, column⟩ := cursor rows columns
    rcases outside with below | right
    · exact UInt16.not_le.mpr row below
    · exact UInt16.not_le.mpr column right

theorem words_in_header (snapshot : SnapshotWrite) (generation : Nat) (below : index < 7) :
    (snapshot.words generation)[0 + index]? = (snapshot.header generation).groups[index]?.map fromLe := by
  have header := congrArg (·[index]?) (words_header snapshot generation)
  simp only [List.drop_zero, List.getElem?_take_of_lt below, List.getElem?_map] at header
  rw [Nat.zero_add]
  exact header

theorem Headed.accepted {decoded : Except LayoutError SlotHeader} (uniform : Uniform state now slot)
    (headed : Headed before now slot decoded)
    (sources : ∀ {words : List Nat}, Loaded World.memory before now (region.address slot (0 + 1)) 7 words →
      ∀ index < 7, ∃ other source, Source state now slot other source ∧ index < words.length ∧
        words[index]? = (source.words other)[0 + index]?) :
    ∃ header other source, decoded = .ok header ∧ Source state now slot other source ∧
      HeaderSizes source header ∧ header.rows = source.rows := by
  obtain ⟨words, loaded, rfl⟩ := headed
  have pick (index : Nat) (below : index < 7) : ∃ other source, Source state now slot other source ∧
      words[index]? = (source.header other).groups[index]?.map fromLe := by
    obtain ⟨other, source, from_, _, word⟩ := sources loaded index below
    exact ⟨other, source, from_, word.trans (words_in_header source other below)⟩
  obtain ⟨g0, s0, from0, w0⟩ := pick 0 (by decide)
  obtain ⟨g1, s1, from1, w1⟩ := pick 1 (by decide)
  obtain ⟨g2, s2, from2, w2⟩ := pick 2 (by decide)
  obtain ⟨g3, s3, from3, w3⟩ := pick 3 (by decide)
  obtain ⟨g4, s4, from4, w4⟩ := pick 4 (by decide)
  obtain ⟨g5, s5, from5, w5⟩ := pick 5 (by decide)
  obtain ⟨g6, s6, from6, w6⟩ := pick 6 (by decide)
  -- each word has its own snapshot, and no field is in two words
  let header : SlotHeader :=
    { generation := (s0.header g0).generation
      payloadBytes := (s1.header g1).payloadBytes, rows := s1.rows, columns := s1.columns
      cursorRow := s2.cursorRow, cursorCol := s2.cursorCol, cursorVisible := s2.cursorVisible
      cursorStyle := s2.cursorStyle, modeFlags := s2.modeFlags
      cellCount := (s3.header g3).cellCount, damageCount := (s3.header g3).damageCount
      fullSnapshot := s3.fullSnapshot
      cellsOffset := (s4.header g4).cellsOffset, damagesOffset := (s4.header g4).damagesOffset
      sourceDamageGeneration := s5.sourceDamageGeneration }
  have mixed : words = header.groups.map fromLe := by
    refine List.ext_getElem? fun index => ?_
    rw [List.getElem?_map]
    match index with
    | 0 => exact w0
    | 1 => exact w1
    | 2 => exact w2
    | 3 => exact w3
    | 4 => exact w4
    | 5 => exact w5
    | 6 => exact w6
    | index + 7 =>
        have length := loaded.2.1
        rw [List.getElem?_eq_none (by omega), List.getElem?_eq_none (by simp [SlotHeader.groups]), Option.map_none]
  obtain ⟨validated1, small1⟩ := uniform.validated g1 s1 from1
  obtain ⟨validated3, small3⟩ := uniform.validated g3 s3 from3
  obtain ⟨validated4, small4⟩ := uniform.validated g4 s4 from4
  have sizes1 := headerSizes validated1 small1 g1
  have sizes3 := headerSizes validated3 small3 g3
  have sizes4 := headerSizes validated4 small4 g4
  obtain ⟨cells3, damages3, _⟩ := uniform.alike g1 g3 s1 s3 from1 from3
  obtain ⟨cells4, _, _⟩ := uniform.alike g1 g4 s1 s4 from1 from4
  obtain ⟨_, _, cursor, _⟩ := uniform.alike g1 g2 s1 s2 from1 from2
  obtain ⟨rows, columns, cells, damages, _⟩ := validateSnapshot_ok validated1
  obtain ⟨_, _, _, _, full⟩ := validateSnapshot_ok validated3
  have sizes : HeaderSizes s1 header :=
    ⟨sizes3.cellCount.trans cells3, sizes3.damageCount.trans damages3, sizes4.cellsOffset,
      cells4 ▸ sizes4.damagesOffset, sizes1.payloadBytes⟩
  refine ⟨header, g1, s1, ?_, from1, sizes, rfl⟩
  rw [mixed, bytesOf_map_fromLe (SlotHeader.groups_length _)]
  refine (SlotHeader.decode_encode ..).trans (SlotHeader.check_eq_ok ⟨rows, columns⟩ full ?_ ?_ ?_ cursor)
  · rw [sizes.cellCount, cells]
  · rw [sizes.cellCount]
    exact small1
  · rw [sizes.damageCount]
    exact damages

theorem ranges_accepted {header : SlotHeader} (sizes : HeaderSizes snapshot header) (room : Roomy region snapshot) :
    ∃ ranges, header.cellAndDamageRanges region.slotStride.toNat = .ok ranges := by
  unfold Roomy at room
  simp only [SlotHeader.cellAndDamageRanges, sizes.cellsOffset, sizes.cellCount, sizes.damagesOffset,
    sizes.damageCount, sizes.payloadBytes, slotHeaderLen, cellLen, damageLen]
  rw [refuse, if_neg (by omega)]
  exact ⟨_, rfl⟩

theorem cellGroups_get {cells : List CellRecord} {group : List UInt8}
    (here : (cells.flatMap CellRecord.groups)[index]? = some group) :
    ∃ cell : CellRecord, cell.groups[index % 2]? = some group := by
  induction cells generalizing index with
  | nil => cases here
  | cons cell cells ih =>
      match index with
      | 0 => exact ⟨cell, here⟩
      | 1 => exact ⟨cell, here⟩
      | index + 2 =>
          obtain ⟨other, same⟩ := @ih index here
          exact ⟨other, by rwa [Nat.add_mod_right]⟩

theorem exists_cells {count : Nat} (length : words.length = 2 * count)
    (each : ∀ index < 2 * count, ∃ cell : CellRecord, words[index]? = cell.groups[index % 2]?.map fromLe) :
    ∃ cells : List CellRecord, words = (cells.flatMap CellRecord.groups).map fromLe := by
  induction count generalizing words with
  | zero => exact ⟨[], List.eq_nil_of_length_eq_zero length⟩
  | succ count ih =>
      match words with
      | [] => simp at length
      | [_] => simp at length; omega
      | first :: second :: rest =>
          obtain ⟨front, sameFirst⟩ := each 0 (by omega)
          obtain ⟨back, sameSecond⟩ := each 1 (by omega)
          obtain ⟨cells, same⟩ := @ih rest (by simp at length; omega) fun index below => by
            obtain ⟨cell, here⟩ := each (index + 2) (by omega)
            rw [Nat.add_mod_right] at here
            exact ⟨cell, here⟩
          refine ⟨⟨front.scalar, front.foreground, back.background, back.attributes⟩ :: cells, ?_⟩
          rw [List.flatMap_cons, List.map_append, ← same]
          exact congrArg₂ (fun one other => one :: other :: rest) (Option.some.inj sameFirst)
            (Option.some.inj sameSecond)

theorem exists_items {α : Type} {f : α → Nat} {good : α → Prop} {words : List Nat}
    (each : ∀ index < words.length, ∃ item, good item ∧ words[index]? = some (f item)) :
    ∃ items : List α, (∀ item ∈ items, good item) ∧ words = items.map f := by
  induction words with
  | nil => exact ⟨[], nofun, rfl⟩
  | cons word words ih =>
      obtain ⟨item, isGood, here⟩ := each 0 (Nat.zero_lt_succ _)
      obtain ⟨items, allGood, same⟩ := ih fun index below => each (index + 1) (Nat.succ_lt_succ below)
      refine ⟨item :: items, List.forall_mem_cons.mpr ⟨isGood, allGood⟩, ?_⟩
      rw [List.map_cons, ← same, ← Option.some.inj here]

theorem cells_accepted (uniform : Uniform state now slot) {base : Nat} (source : Source state now slot base snapshot)
    (length : words.length = 2 * snapshot.cells.length)
    (each : ∀ index < 2 * snapshot.cells.length, ∃ other source, Source state now slot other source ∧
      index < words.length ∧ words[index]? = (source.words other)[7 + index]?) :
    ∃ cells, (recordsIn cellLen words).mapM CellRecord.decode = .ok cells := by
  obtain ⟨cells, rfl⟩ := exists_cells length fun index below => by
    obtain ⟨other, mixed, from_, inside, same⟩ := each index below
    obtain ⟨count, _, _⟩ := uniform.alike base other snapshot mixed source from_
    have bound : index < (mixed.cells.flatMap CellRecord.groups).length := by
      rw [length_cellGroups]
      omega
    have here := List.getElem?_eq_getElem bound
    obtain ⟨cell, group⟩ := cellGroups_get here
    refine ⟨cell, ?_⟩
    rw [same, ← List.getElem?_drop, words_records, List.getElem?_append_left (by rwa [List.length_map]),
      List.getElem?_map, here, group]
  rw [recordsIn_cells]
  exact ⟨cells, mapM_map_eq_ok fun cell _ => cell.decode_encode⟩

theorem damages_accepted (uniform : Uniform state now slot) {base : Nat}
    (source : Source state now slot base snapshot) (length : words.length = snapshot.damages.length)
    (each : ∀ index < snapshot.damages.length, ∃ other source, Source state now slot other source ∧
      index < words.length ∧ words[index]? = (source.words other)[7 + 2 * snapshot.cells.length + index]?) :
    ∃ damages, (recordsIn damageLen words).mapM (DamageRecord.decode · snapshot.rows) = .ok damages := by
  obtain ⟨damages, checked, rfl⟩ := @exists_items DamageRecord (fun damage => fromLe damage.encode)
      (fun damage => damage.check snapshot.rows = .ok damage) words fun index below => by
    obtain ⟨other, mixed, from_, inside, same⟩ := each index (by omega)
    obtain ⟨cells, count, _, fits⟩ := uniform.alike base other snapshot mixed source from_
    have bound : index < mixed.damages.length := by omega
    refine ⟨mixed.damages[index], ?_, ?_⟩
    · obtain ⟨ordered, inRows⟩ := fits mixed.damages[index] (List.getElem_mem bound)
      simp only [DamageRecord.check, bind_eq_ok, refuse_eq_ok, pure_eq_ok, not_or, UInt16.not_lt, UInt16.not_le]
      exact ⟨(), ⟨ordered, inRows⟩, trivial⟩
    · rw [same, ← List.getElem?_drop, ← cells, ← List.drop_drop, words_records,
        List.drop_left' (by rw [List.length_map, length_cellGroups]), List.getElem?_map, List.getElem?_map,
        List.getElem?_eq_getElem bound]
      rfl
  have records := recordsIn_damages damages
  rw [List.map_map] at records
  exact ⟨damages, (congrArg (List.mapM _) records).trans
    (mapM_map_eq_ok fun damage member => (damage.decode_encode _).trans (checked damage member))⟩

theorem Attempt.intact (valid : region.Valid memoryLen) (inv : Inv state) (uniform : ∀ slot, Uniform state now slot)
    {error : ReaderError} (attempt : Attempt state now (.error error)) : error = .noReadableGeneration := by
  have headers {before : World region} {slot generation : Nat} {decoded : Except LayoutError SlotHeader}
      (opened : Opened state before now slot generation) (headed : Headed before now slot decoded) :
      ∃ header other source, decoded = .ok header ∧ Source state now slot other source ∧
        HeaderSizes source header ∧ header.rows = source.rows := by
    obtain ⟨_, _, loaded⟩ := opened.source valid inv
    exact headed.accepted (uniform slot) fun words => loaded words (by omega)
  cases attempt with
  | unpublished => rfl
  | badHeader opened headed =>
      obtain ⟨_, _, _, accepted, _⟩ := headers opened headed
      cases accepted
  | badRanges opened headed refused =>
      obtain ⟨header, other, source, accepted, from_, sizes, _⟩ := headers opened headed
      cases accepted
      obtain ⟨ranges, ranged⟩ := ranges_accepted sizes (roomy_of_validate ((uniform _).validated _ _ from_).1)
      cases ranged.symm.trans refused
  | unaligned opened headed unaligned =>
      obtain ⟨header, other, source, accepted, _, sizes, _⟩ := headers opened headed
      cases accepted
      rw [sizes.cellsOffset, sizes.damagesOffset] at unaligned
      omega
  | @badCells before slot generation header words error opened headed loaded refused =>
      obtain ⟨header, other, source, accepted, from_, sizes, _⟩ := headers opened headed
      cases accepted
      obtain ⟨base, baseFrom, sources⟩ := opened.source valid inv
      obtain ⟨count, _, _⟩ := (uniform slot).alike _ _ _ _ from_ baseFrom
      rw [sizes.cellsOffset, sizes.cellCount] at loaded
      obtain ⟨cells, decoded⟩ := cells_accepted (uniform slot) from_ loaded.2.1
        (@sources 7 _ _ loaded (by omega))
      cases decoded.symm.trans refused
  | @badDamages before slot generation header words error opened headed loaded refused =>
      obtain ⟨header, other, source, accepted, from_, sizes, rows⟩ := headers opened headed
      cases accepted
      obtain ⟨base, baseFrom, sources⟩ := opened.source valid inv
      obtain ⟨cells, count, _⟩ := (uniform slot).alike _ _ _ _ from_ baseFrom
      have position : region.slotOffset slot + (64 + 16 * source.cells.length) =
          region.address slot (7 + 2 * source.cells.length + 1) := by
        unfold RegionHeader.address
        omega
      rw [sizes.damagesOffset, sizes.damageCount, position] at loaded
      rw [rows] at refused
      obtain ⟨damages, decoded⟩ := damages_accepted (uniform slot) from_ loaded.2.1 (sources loaded (by omega))
      cases decoded.symm.trans refused

/-- While the snapshots that one slot gets during a call are alike, the call reports no corruption. -/
theorem reads_intact {memory : Nat → Nat} {events : List Event} {system : System region}
    (validated : validateRegionMemory memoryLen region = .ok ())
    (ran : (System.start memory : System region).run memoryLen events = some system)
    (readable : ∀ snapshot ∈ system.world.published, Readable region snapshot) (reader : Nat) (result : ReadResult)
    (finished : result ∈ (system.readers reader).results)
    (alike : ∀ first second one other, Overlapped system.world.published result.since result.ended first one →
      Overlapped system.world.published result.since result.ended second other → first ≠ second →
      slotOf first = slotOf second → Alike one other) :
    (∃ read, result.outcome = .ok read) ∨ result.outcome = .error .noReadableGeneration ∨
      result.outcome = .error .tornReadExceededRetries := by
  have valid := valid_of_validate validated
  have sound := (System.sound_start validated memory).run validated ran
  obtain ⟨state, now, witnessed⟩ := (sound.readers reader).results result finished
  have ahead := ((witnessed.inv.since valid witnessed.after).1.since valid witnessed.past).2
  have overlapped {slot generation : Nat} {snapshot : SnapshotWrite}
      (source : Source state now slot generation snapshot) :
      Overlapped system.world.published result.since result.ended generation snapshot := by
    obtain ⟨positive, low, high, found⟩ := source.overlapped
    rw [witnessed.since, witnessed.ended]
    exact ⟨positive, low, high, ahead.found found⟩
  have uniform (slot : Nat) : Uniform state now slot := by
    refine ⟨fun generation snapshot source => ?_, fun first second one other fromFirst fromSecond => ?_⟩
    · have member := List.mem_of_getElem? (overlapped source).found
      have accepted := sound.inv.validated snapshot member
      exact ⟨accepted, small_of_readable accepted (readable snapshot member)⟩
    · have found := (overlapped fromFirst).found
      by_cases same : first = second
      · subst same
        obtain rfl := Option.some.inj (found.symm.trans (overlapped fromSecond).found)
        exact alike_self (readable one (List.mem_of_getElem? found))
      · exact alike first second one other (overlapped fromFirst) (overlapped fromSecond) same
          (fromFirst.slot.trans fromSecond.slot.symm)
  cases outcome : result.outcome with
  | ok read => exact .inl ⟨read, rfl⟩
  | error error =>
      rcases witnessed.finished with torn | attempt
      · exact .inr (.inr (outcome.symm.trans torn))
      · rw [outcome] at attempt
        rw [Attempt.intact valid witnessed.inv uniform attempt]
        exact .inr (.inl rfl)

/-- Five words into its read of the first snapshot the reader is overtaken by two more, the second of which
is in the slot that it reads. -/
def overtaken (last : List CellRecord) (stores loads : Nat) : List Event :=
  List.flatten [[.publish (column [letter 'a'])], List.replicate 12 .store, [.readLatest 0],
    List.replicate 5 (.load 0), [.publish (column [letter 'b'])], List.replicate 12 .store,
    [.publish (column last)], List.replicate stores .store, List.replicate loads (.load 0)]

theorem reads_intact_overtaken : ∃ system, (System.start (fun _ => 7) : System smallRegion).run 320
      (overtaken [letter 'c'] 12 21) = some system ∧
    ∃ result ∈ (system.readers 0).results, result.since = 1 ∧ result.ended = 3 ∧
      ((∃ read, result.outcome = .ok read) ∨ result.outcome = .error .noReadableGeneration ∨
        result.outcome = .error .tornReadExceededRetries) := by
  have results : ((System.start (fun _ => 7) : System smallRegion).run 320
      (overtaken [letter 'c'] 12 21)).map (fun system =>
        ((system.readers 0).results, system.world.published)) =
      some ([⟨1, 3, .ok ((column [letter 'c']).read 3)⟩], [column [letter 'a'],
        column [letter 'b'], column [letter 'c']]) := by decide +kernel
  obtain ⟨system, ran, same⟩ := Option.map_eq_some_iff.mp results
  obtain ⟨results, published⟩ := Prod.mk.inj same
  have readable : ∀ snapshot ∈ system.world.published, Readable smallRegion snapshot := by
    rw [published]
    decide +kernel
  have alike : ∀ one ∈ system.world.published, ∀ other ∈ system.world.published, Alike one other := by
    rw [published]
    decide +kernel
  have member : (⟨1, 3, .ok ((column [letter 'c']).read 3)⟩ : ReadResult) ∈
      (system.readers 0).results := by
    rw [results]
    exact List.mem_singleton_self _
  exact ⟨system, ran, _, member, rfl, rfl, reads_intact (by decide) ran readable 0 _ member
    fun _ _ one other first second _ _ =>
      alike one (List.mem_of_getElem? first.found) other (List.mem_of_getElem? second.found)⟩

/-- With a third snapshot of two rows, the reader pairs the row count of the first with the cell count of it. -/
theorem layout_error_overtaken : ∃ system, (System.start (fun _ => 7) : System smallRegion).run 320
      (overtaken [letter 'c', letter 'd'] 14 4) = some system ∧
    (∀ snapshot ∈ system.world.published, Readable smallRegion snapshot) ∧
    ∃ result ∈ (system.readers 0).results, result.outcome = .error (.layout .invalidCellCount) := by
  have results : ((System.start (fun _ => 7) : System smallRegion).run 320
      (overtaken [letter 'c', letter 'd'] 14 4)).map (fun system =>
        ((system.readers 0).results, system.world.published)) =
      some ([⟨1, 3, .error (.layout .invalidCellCount)⟩], [column [letter 'a'],
        column [letter 'b'], column [letter 'c', letter 'd']]) := by
    decide +kernel
  obtain ⟨system, ran, same⟩ := Option.map_eq_some_iff.mp results
  obtain ⟨results, published⟩ := Prod.mk.inj same
  have readable : ∀ snapshot ∈ system.world.published, Readable smallRegion snapshot := by
    rw [published]
    decide +kernel
  refine ⟨system, ran, readable, ⟨1, 3, .error (.layout .invalidCellCount)⟩, ?_, rfl⟩
  rw [results]
  exact List.mem_singleton_self _

end Seyal.Runtime.Projection
