import Seyal.Runtime.Projection.Reading

namespace Seyal.Runtime.Projection

open Program Reading

/-! A read that succeeds is of one snapshot. -/

variable {region : RegionHeader} {memoryLen : Nat} {state before now closed : World region}
  {snapshot : SnapshotWrite} {slot generation : Nat}

def SnapshotWrite.read (snapshot : SnapshotWrite) (generation : Nat) : SnapshotRead :=
  ⟨generation, snapshot.header generation, snapshot.cells, snapshot.damages⟩

section Words

variable (snapshot generation)

theorem words_header :
    ((snapshot.words generation).drop 0).take 7 = (snapshot.header generation).groups.map fromLe := by
  simp only [SnapshotWrite.words, SnapshotWrite.groups, List.map_append, List.append_assoc, List.drop_zero]
  exact List.take_left' rfl

theorem words_records :
    (snapshot.words generation).drop 7 = (snapshot.cells.flatMap CellRecord.groups).map fromLe ++
      (snapshot.damages.map DamageRecord.encode).map fromLe := by
  simp only [SnapshotWrite.words, SnapshotWrite.groups, List.map_append, List.append_assoc]
  exact List.drop_left' rfl

theorem words_cells : ((snapshot.words generation).drop 7).take (2 * snapshot.cells.length) =
    (snapshot.cells.flatMap CellRecord.groups).map fromLe := by
  rw [words_records]
  exact List.take_left' (by rw [List.length_map, length_cellGroups])

theorem words_damages :
    ((snapshot.words generation).drop (7 + 2 * snapshot.cells.length)).take snapshot.damages.length =
      (snapshot.damages.map DamageRecord.encode).map fromLe := by
  rw [← List.drop_drop, words_records, List.drop_left' (by rw [List.length_map, length_cellGroups])]
  exact List.take_of_length_le (by simp)

end Words

theorem flatten_cellGroups (cells : List CellRecord) :
    (cells.flatMap CellRecord.groups).flatten = (cells.map CellRecord.encode).flatten := by
  induction cells with
  | nil => rfl
  | cons cell cells ih =>
      rw [List.flatMap_cons, List.flatten_append, ih, List.map_cons, List.flatten_cons]
      rfl

theorem length_encodeCell (cell : CellRecord) : cell.encode.length = cellLen :=
  length_flatten_of_size cell.groups_length

theorem recordsIn_cells (cells : List CellRecord) :
    recordsIn cellLen ((cells.flatMap CellRecord.groups).map fromLe) = cells.map CellRecord.encode := by
  have sizes : ∀ group ∈ cells.flatMap CellRecord.groups, group.length = 8 := by
    intro group member
    obtain ⟨cell, _, inCell⟩ := List.mem_flatMap.mp member
    exact cell.groups_length group inCell
  rw [recordsIn, bytesOf_map_fromLe sizes, flatten_cellGroups]
  refine chunks_of_flatten (fun record member => ?_) (by decide)
  obtain ⟨cell, _, rfl⟩ := List.mem_map.mp member
  exact length_encodeCell cell

theorem recordsIn_damages (damages : List DamageRecord) :
    recordsIn damageLen ((damages.map DamageRecord.encode).map fromLe) = damages.map DamageRecord.encode := by
  have sizes : ∀ group ∈ damages.map DamageRecord.encode, group.length = 8 := by
    intro group member
    obtain ⟨damage, _, rfl⟩ := List.mem_map.mp member
    exact damage.length_encode
  rw [recordsIn, bytesOf_map_fromLe sizes]
  exact chunks_of_flatten sizes (by decide)

/-- All words that are loaded while the sequence stays the same are of the one snapshot. -/
theorem Opened.loaded_eq (valid : region.Valid memoryLen) (inv : Inv before)
    (opened : Opened state before closed slot generation)
    (unchanged : closed.memory (region.address slot 0) = 2 * generation)
    (found : before.published[generation - 1]? = some snapshot) {start count : Nat} {words : List Nat}
    (loaded : Loaded World.memory before closed (region.address slot (start + 1)) count words)
    (fits : start + count ≤ (snapshot.words generation).length) :
    words = ((snapshot.words generation).drop start).take count := by
  obtain ⟨_, length, each⟩ := loaded
  refine List.ext_getElem? fun index => ?_
  by_cases below : index < count
  · obtain ⟨seen, since, upTo, here⟩ := each index below
    obtain ⟨seenInv, ahead⟩ := inv.since valid since
    have same := ahead.sequence_between (seenInv.since valid upTo).2 opened.slot_lt opened.positive opened.sequence
      unchanged
    obtain ⟨_, _, complete⟩ := seenInv.complete opened.slot_lt opened.positive same
    have position : region.address slot (start + 1) + 8 * index = region.address slot (start + index + 1) := by
      unfold RegionHeader.address
      omega
    have word := complete.words snapshot opened.positive (ahead.found found) (start + index) _
      (List.getElem?_eq_getElem (by omega))
    rw [here, position, word, List.getElem?_take_of_lt below, List.getElem?_drop, List.getElem?_eq_getElem]
  · rw [List.getElem?_eq_none (by omega), List.getElem?_eq_none (by simp; omega)]

theorem SlotHeader.eq_of_check {header result : SlotHeader} {capacityRows capacityCols : UInt16}
    (checked : header.check capacityRows capacityCols = .ok result) :
    result = header ∧ header.cellCount.toNat = header.rows.toNat * header.columns.toNat ∧
      header.cellCount.toNat ≤ maxCapacityCells := by
  simp only [SlotHeader.check, bind_eq_ok, refuse_eq_ok, pure_eq_ok] at checked
  obtain ⟨_, _, _, _, _, counts, _, _, _, _, same⟩ := checked
  refine ⟨same.symm, ?_, ?_⟩ <;> omega

theorem DamageRecord.eq_of_check {damage result : DamageRecord} {rows : UInt16}
    (checked : damage.check rows = .ok result) : result = damage := by
  simp only [DamageRecord.check, bind_eq_ok, refuse_eq_ok, pure_eq_ok] at checked
  obtain ⟨_, _, same⟩ := checked
  exact same.symm

/-- The numbers of a header are those of its snapshot, where the cells fit the region at all. -/
structure HeaderSizes (snapshot : SnapshotWrite) (header : SlotHeader) : Prop where
  cellCount : header.cellCount.toNat = snapshot.cells.length
  damageCount : header.damageCount.toNat = snapshot.damages.length
  cellsOffset : header.cellsOffset.toNat = 64
  damagesOffset : header.damagesOffset.toNat = 64 + 16 * snapshot.cells.length
  payloadBytes : header.payloadBytes.toNat = 16 * snapshot.cells.length + 8 * snapshot.damages.length

theorem validateSnapshot_ok (validated : validateSnapshot region snapshot = .ok ()) :
    snapshot.rows ≤ region.capacityRows ∧ snapshot.columns ≤ region.capacityCols ∧
      snapshot.cells.length = snapshot.rows.toNat * snapshot.columns.toNat ∧
      snapshot.damages.length ≤ snapshot.rows.toNat ∧ snapshot.fullSnapshot = true := by
  simp only [validateSnapshot, bind_eq_ok, refuse_eq_ok, not_or, UInt16.not_lt] at validated
  obtain ⟨_, ⟨rows, columns⟩, _, cells, _, damages, _, full, _⟩ := validated
  exact ⟨rows, columns, not_not.mp cells, Nat.le_of_not_lt damages, by simpa using full⟩

theorem headerSizes (validated : validateSnapshot region snapshot = .ok ())
    (small : snapshot.cells.length ≤ maxCapacityCells) (generation : Nat) :
    HeaderSizes snapshot (snapshot.header generation) := by
  obtain ⟨_, _, cells, damages, _⟩ := validateSnapshot_ok validated
  have rows := snapshot.rows.toNat_lt
  unfold maxCapacityCells at small
  constructor
  · exact UInt32.toNat_ofNat_of_lt' (by change _ < 2 ^ 32; omega)
  · exact UInt16.toNat_ofNat_of_lt' (by change _ < 2 ^ 16; omega)
  · rfl
  · refine (UInt32.toNat_ofNat_of_lt' ?_).trans ?_ <;> simp only [slotHeaderLen, cellLen]
    · change _ < 2 ^ 32
      omega
    · omega
  · refine (UInt32.toNat_ofNat_of_lt' ?_).trans ?_ <;> simp only [cellLen, damageLen]
    · change _ < 2 ^ 32
      omega
    · omega

theorem Attempt.genuine (valid : region.Valid memoryLen) (inv : Inv state) {read : SnapshotRead}
    (attempt : Attempt state now (.ok (some read))) :
    1 ≤ read.generation ∧ state.announced ≤ read.generation ∧ read.generation ≤ now.announced ∧
      ∃ snapshot, now.published[read.generation - 1]? = some snapshot ∧ read = snapshot.read read.generation := by
  cases attempt with
  | @read before closed slot generation header cellWords damageWords cells damages opened headed cellsLoaded
      damagesLoaded decodedCells decodedDamages unchanged last =>
    obtain ⟨first, fromState, toBefore, announced⟩ := opened.announced
    have toNow := le_trans opened.since last
    obtain ⟨firstInv, firstAhead⟩ := inv.since valid fromState
    obtain ⟨beforeInv, beforeAhead⟩ := firstInv.since valid toBefore
    have nowAhead := (beforeInv.since valid toNow).2
    have generationSeen : first.announced = generation := by
      have slot := opened.slot_lt
      rw [World.announced, announced]
      omega
    obtain ⟨inside, _, _⟩ := beforeInv.complete opened.slot_lt opened.positive opened.sequence
    have positive := opened.positive
    have bound : generation - 1 < before.published.length := by omega
    have found := List.getElem?_eq_getElem bound
    generalize before.published[generation - 1] = snapshot at found
    refine ⟨positive, ?_, ?_, snapshot, nowAhead.found found, ?_⟩
    · rw [← generationSeen]
      exact firstAhead.announced_le
    · rw [← generationSeen]
      exact (beforeAhead.trans nowAhead).announced_le
    · have validated := beforeInv.validated snapshot (List.mem_of_getElem? found)
      obtain ⟨_, _, cellCount, _, _⟩ := validateSnapshot_ok validated
      obtain ⟨words, loaded, decoded⟩ := headed
      have total := length_words snapshot generation
      have headerWords := opened.loaded_eq valid beforeInv unchanged found loaded (by omega)
      rw [headerWords, words_header, bytesOf_map_fromLe (SlotHeader.groups_length _)] at decoded
      obtain ⟨rfl, counted, small⟩ := SlotHeader.eq_of_check ((SlotHeader.decode_encode ..).symm.trans decoded)
      have sizes := headerSizes validated (by
        rw [cellCount]
        exact counted ▸ small) generation
      have cellsAt : region.slotOffset slot + (snapshot.header generation).cellsOffset.toNat =
          region.address slot (7 + 1) := by
        rw [sizes.cellsOffset, RegionHeader.address]
      have damagesAt : region.slotOffset slot + (snapshot.header generation).damagesOffset.toNat =
          region.address slot (7 + 2 * snapshot.cells.length + 1) := by
        rw [sizes.damagesOffset, RegionHeader.address]
        omega
      rw [cellsAt, sizes.cellCount] at cellsLoaded
      rw [damagesAt, sizes.damageCount] at damagesLoaded
      rw [opened.loaded_eq valid beforeInv unchanged found cellsLoaded (by omega), words_cells,
        recordsIn_cells] at decodedCells
      rw [opened.loaded_eq valid beforeInv unchanged found damagesLoaded (by omega), words_damages,
        recordsIn_damages] at decodedDamages
      have cellsSame := eq_of_mapM_map_eq_ok (fun cell value decoded =>
        (Except.ok.inj (cell.decode_encode.symm.trans decoded)).symm) decodedCells
      have damagesSame := eq_of_mapM_map_eq_ok (fun damage value decoded =>
        DamageRecord.eq_of_check ((damage.decode_encode _).symm.trans decoded)) decodedDamages
      rw [cellsSame, damagesSame]
      rfl

/-- However the writer and the readers interleave, what a reader gets is in all fields one snapshot that was
published with that generation, and the generations that one reader gets never go back. -/
theorem reads_untorn {memory : Nat → Nat} {events : List Event} {system : System region}
    (validated : validateRegionMemory memoryLen region = .ok ())
    (ran : (System.start memory : System region).run memoryLen events = some system) (reader : Nat) :
    system.world.writer.nextGeneration = system.world.published.length + 1 ∧
      (∀ result ∈ (system.readers reader).results, ∀ read, result.outcome = .ok read →
        ∃ snapshot, 1 ≤ read.generation ∧ system.world.published[read.generation - 1]? = some snapshot ∧
          read = snapshot.read read.generation) ∧
      (system.readers reader).results.Pairwise fun earlier later => ∀ first second,
        earlier.outcome = .ok first → later.outcome = .ok second → first.generation ≤ second.generation := by
  have valid := valid_of_validate validated
  have sound := (System.sound_start validated memory).run validated ran
  have followed := sound.readers reader
  -- a call that succeeds ends in a round that succeeds
  have genuine {result : ReadResult} (member : result ∈ (system.readers reader).results) {read : SnapshotRead}
      (succeeded : result.outcome = .ok read) :
      1 ≤ read.generation ∧ result.since ≤ read.generation ∧ read.generation ≤ result.ended ∧
        ∃ snapshot, system.world.published[read.generation - 1]? = some snapshot ∧
          read = snapshot.read read.generation := by
    obtain ⟨state, now, witnessed⟩ := followed.results result member
    have finished := witnessed.finished
    rw [succeeded] at finished
    obtain ⟨positive, low, high, snapshot, found, same⟩ :=
      (finished.resolve_left nofun : Attempt state now (.ok (some read))).genuine valid witnessed.inv
    have ahead := ((witnessed.inv.since valid witnessed.after).1.since valid witnessed.past).2
    exact ⟨positive, witnessed.since ▸ low, witnessed.ended ▸ high, snapshot, ahead.found found, same⟩
  refine ⟨sound.inv.next, fun result member read succeeded => ?_, ?_⟩
  · obtain ⟨positive, _, _, snapshot, found, same⟩ := genuine member succeeded
    exact ⟨snapshot, positive, found, same⟩
  · refine followed.ordered.imp_of_mem fun {earlier later} member next order first second gotFirst gotSecond => ?_
    obtain ⟨_, _, upTo, _⟩ := genuine member gotFirst
    obtain ⟨_, from_, _⟩ := genuine next gotSecond
    omega

def smallRegion : RegionHeader where
  regionBytes := 320
  slotStride := 96
  slot0Offset := 128
  capacityRows := 2
  capacityCols := 1

def column (cells : List CellRecord) : SnapshotWrite where
  rows := UInt16.ofNat cells.length
  columns := 1
  cursorRow := 0
  cursorCol := 0
  cursorVisible := true
  cursorStyle := 0
  modeFlags := ⟨false, true⟩
  cells := cells
  damages := []
  fullSnapshot := true
  sourceDamageGeneration := 0

def letter (scalar : Char) : CellRecord := ⟨scalar, .default, .default, ⟨false, false, false⟩⟩

/-- The events of one whole call of `publish` for a column of one cell, and of one of `read_latest`. -/
def publishedAndRead (scalar : Char) : List Event :=
  List.flatten [[.publish (column [letter scalar])], List.replicate 12 .store, [.readLatest 0],
    List.replicate 13 (.load 0)]

theorem reads_untorn_twice : ∃ system, (System.start (fun _ => 7) : System smallRegion).run 320
      (publishedAndRead 'a' ++ publishedAndRead 'b') = some system ∧
    (system.readers 0).results = [⟨1, 1, .ok ((column [letter 'a']).read 1)⟩,
      ⟨2, 2, .ok ((column [letter 'b']).read 2)⟩] ∧
    system.world.writer.nextGeneration = system.world.published.length + 1 ∧
      (∀ result ∈ (system.readers 0).results, ∀ read, result.outcome = .ok read →
        ∃ snapshot, 1 ≤ read.generation ∧ system.world.published[read.generation - 1]? = some snapshot ∧
          read = snapshot.read read.generation) ∧
      (system.readers 0).results.Pairwise fun earlier later => ∀ first second,
        earlier.outcome = .ok first → later.outcome = .ok second → first.generation ≤ second.generation := by
  have results : ((System.start (fun _ => 7) : System smallRegion).run 320
      (publishedAndRead 'a' ++ publishedAndRead 'b')).map (fun system =>
        (system.readers 0).results) = some [⟨1, 1, .ok ((column [letter 'a']).read 1)⟩,
      ⟨2, 2, .ok ((column [letter 'b']).read 2)⟩] := by decide +kernel
  obtain ⟨system, ran, same⟩ := Option.map_eq_some_iff.mp results
  exact ⟨system, ran, same, reads_untorn (by decide) ran 0⟩

end Seyal.Runtime.Projection
