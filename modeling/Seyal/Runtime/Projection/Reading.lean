import Seyal.Runtime.Projection.Publication

namespace Seyal.Runtime.Projection

open Program Reading World

/-! What a call of `read_latest` has seen when it ends. -/

variable {region : RegionHeader} {memoryLen : Nat} {state before now : World region}

section Rules

variable {α β : Type} {meets : Except ReaderError α → World region → Prop}

theorem ensures_atomicLoad {offset : Nat} {rest : Nat → Reads α} (aligned : offset % 8 = 0)
    (inside : offset + 8 ≤ memoryLen)
    (next : ∀ now, state ≤ now → Ensures memory meets (rest (now.memory offset)) now) :
    Ensures memory meets (atomicLoad memoryLen offset >>= rest) state := by
  rw [atomicLoad, if_neg (by omega)]
  exact next

theorem ensures_readAtomicBytes {offset len : Nat} {rest : List UInt8 → Reads α}
    (inside : len % 8 = 0 ∧ offset + len ≤ memoryLen)
    (unaligned : offset % 8 ≠ 0 → meets (.error .outOfBounds) state)
    (next : ∀ now words, Loaded memory state now offset (len / 8) words →
      Ensures memory meets (rest (bytesOf words)) now) :
    Ensures memory meets (readAtomicBytes memoryLen offset len >>= rest) state := by
  by_cases aligned : offset % 8 ≠ 0
  · rw [readAtomicBytes, if_pos (.inl aligned)]
    exact unaligned aligned
  rw [readAtomicBytes, if_neg (by omega)]
  refine Ensures.bind (Ensures.bind ((ensures_wordsFrom offset (len / 8)).mono fun outcome now _ found => ?_))
  obtain ⟨words, rfl, loaded⟩ := found
  exact next now words loaded

theorem ensures_layoutError {outcome : Except LayoutError β} {rest : β → Reads α}
    (accepted : ∀ value, outcome = .ok value → Ensures memory meets (rest value) state)
    (refused : ∀ error, outcome = .error error → meets (.error (.layout error)) state) :
    Ensures memory meets (layoutError outcome >>= rest) state := by
  cases outcome with
  | ok value => exact accepted value rfl
  | error error => exact refused error rfl

theorem ensures_ite {condition : Prop} [Decidable condition] {yes no : Reads α}
    (holds : condition → Ensures memory meets yes state)
    (fails : ¬ condition → Ensures memory meets no state) :
    Ensures memory meets (if condition then yes else no) state := by
  split
  next yes => exact holds yes
  next no => exact fails no

end Rules

/-- The publication word announced the generation, and then the sequence of its slot was that generation's. -/
structure Opened (state before now : World region) (slot generation : Nat) : Prop where
  announced : ∃ first, state ≤ first ∧ first ≤ before ∧ first.memory publicationWordOffset = 2 * generation + slot
  since : before ≤ now
  slot_lt : slot < 2
  positive : 1 ≤ generation
  sequence : before.memory (region.address slot 0) = 2 * generation

def Headed (before now : World region) (slot : Nat) (decoded : Except LayoutError SlotHeader) : Prop :=
  ∃ words, Loaded memory before now (region.address slot 1) 7 words ∧
    SlotHeader.decode (bytesOf words) region.capacityRows region.capacityCols = decoded

def recordsIn (size : Nat) (words : List Nat) : List (List UInt8) :=
  chunks size ((bytesOf words).length / size) (bytesOf words)

/-- How one round ends. -/
inductive Attempt (state now : World region) : Except ReaderError (Option SnapshotRead) → Prop where
  | unpublished : Attempt state now (.error .noReadableGeneration)
  | again : Attempt state now (.ok none)
  | badHeader {before : World region} {slot generation : Nat} {error : LayoutError}
      (opened : Opened state before now slot generation) (headed : Headed before now slot (.error error)) :
      Attempt state now (.error (.layout error))
  | badRanges {before : World region} {slot generation : Nat} {header : SlotHeader} {error : LayoutError}
      (opened : Opened state before now slot generation) (headed : Headed before now slot (.ok header))
      (refused : header.cellAndDamageRanges region.slotStride.toNat = .error error) :
      Attempt state now (.error (.layout error))
  | unaligned {before : World region} {slot generation : Nat} {header : SlotHeader}
      (opened : Opened state before now slot generation) (headed : Headed before now slot (.ok header))
      (unaligned : header.cellsOffset.toNat % 8 ≠ 0 ∨ header.damagesOffset.toNat % 8 ≠ 0) :
      Attempt state now (.error .outOfBounds)
  | badCells {before : World region} {slot generation : Nat} {header : SlotHeader} {words : List Nat}
      {error : LayoutError} (opened : Opened state before now slot generation)
      (headed : Headed before now slot (.ok header))
      (loaded : Loaded memory before now (region.slotOffset slot + header.cellsOffset.toNat)
        (2 * header.cellCount.toNat) words)
      (refused : (recordsIn cellLen words).mapM CellRecord.decode = .error error) :
      Attempt state now (.error (.layout error))
  | badDamages {before : World region} {slot generation : Nat} {header : SlotHeader} {words : List Nat}
      {error : LayoutError} (opened : Opened state before now slot generation)
      (headed : Headed before now slot (.ok header))
      (loaded : Loaded memory before now (region.slotOffset slot + header.damagesOffset.toNat)
        header.damageCount.toNat words)
      (refused : (recordsIn damageLen words).mapM (DamageRecord.decode · header.rows) = .error error) :
      Attempt state now (.error (.layout error))
  | read {before closed : World region} {slot generation : Nat} {header : SlotHeader} {cellWords damageWords : List Nat}
      {cells : List CellRecord} {damages : List DamageRecord} (opened : Opened state before closed slot generation)
      (headed : Headed before closed slot (.ok header))
      (cellsLoaded : Loaded memory before closed (region.slotOffset slot + header.cellsOffset.toNat)
        (2 * header.cellCount.toNat) cellWords)
      (damagesLoaded : Loaded memory before closed (region.slotOffset slot + header.damagesOffset.toNat)
        header.damageCount.toNat damageWords)
      (decodedCells : (recordsIn cellLen cellWords).mapM CellRecord.decode = .ok cells)
      (decodedDamages : (recordsIn damageLen damageWords).mapM (DamageRecord.decode · header.rows) = .ok damages)
      (unchanged : closed.memory (region.address slot 0) = 2 * generation) (since : closed ≤ now) :
      Attempt state now (.ok (some ⟨generation, header, cells, damages⟩))

theorem ranges_of_ok {header : SlotHeader} {stride : Nat} {cells damages : Nat × Nat}
    (ranged : header.cellAndDamageRanges stride = .ok (cells, damages)) :
    cells = (header.cellsOffset.toNat, header.cellCount.toNat * 16) ∧
      damages = (header.damagesOffset.toNat, header.damageCount.toNat * 8) ∧
      header.cellsOffset.toNat + header.cellCount.toNat * 16 ≤ stride ∧
      header.damagesOffset.toNat + header.damageCount.toNat * 8 ≤ stride := by
  simp only [SlotHeader.cellAndDamageRanges, bind_eq_ok, refuse_eq_ok, pure_eq_ok, Prod.mk.injEq] at ranged
  obtain ⟨_, inside, rfl, rfl⟩ := ranged
  simp only [cellLen, damageLen] at inside ⊢
  refine ⟨trivial, trivial, ?_, ?_⟩ <;> omega

theorem RegionHeader.Valid.slotOffset_inside (valid : region.Valid memoryLen) {slot : Nat} (below : slot < 2) :
    region.slotOffset slot % 8 = 0 ∧ region.slotOffset slot + region.slotStride.toNat ≤ memoryLen := by
  obtain ⟨_, aligned, strideAligned, _, inside⟩ := valid
  have slots : slot = 0 ∨ slot = 1 := by omega
  unfold RegionHeader.slotOffset
  rcases slots with rfl | rfl <;> omega

theorem ensures_attemptRead (valid : region.Valid memoryLen) (state : World region) :
    Ensures memory (fun outcome now => Attempt state now outcome) (attemptRead memoryLen region) state := by
  have header := valid.header
  have stride := valid.stride
  have inside := valid.inside
  refine ensures_atomicLoad rfl (by unfold publicationWordOffset; omega) fun first fromStart => ?_
  generalize publication : first.memory publicationWordOffset = word
  have slot : word % 2 < 2 := Nat.mod_lt _ (by decide)
  obtain ⟨aligned, room⟩ := valid.slotOffset_inside slot
  refine ensures_ite (fun _ => .unpublished) fun positive => ?_
  refine ensures_atomicLoad aligned (by unfold slotSequenceOffset; omega) fun before fromFirst => ?_
  refine ensures_ite (fun _ => .again) fun sequence => ?_
  have opened (now : World region) (after : before ≤ now) : Opened state before now (word % 2) (word / 2) :=
    ⟨⟨first, fromStart, fromFirst, by omega⟩, after, slot, by omega, not_not.mp (not_or.mp sequence).2⟩
  refine ensures_readAtomicBytes ⟨rfl, by unfold slotHeaderLen; omega⟩ (by omega) fun mid words loaded => ?_
  have sinceMid := loaded.1
  refine ensures_layoutError (fun header decoded => ?_) fun error refused =>
    .badHeader (opened mid sinceMid) ⟨words, loaded, refused⟩
  have headed (now : World region) (after : mid ≤ now) : Headed before now (word % 2) (.ok header) :=
    ⟨words, loaded.within (le_refl _) after, decoded⟩
  refine ensures_ite (fun _ => .again) fun same => ?_
  refine ensures_layoutError (fun ranges ranged => ?_) fun error refused =>
    .badRanges (opened mid sinceMid) (headed mid (le_refl _)) refused
  obtain ⟨cellsRange, damagesRange⟩ := ranges
  obtain ⟨rfl, rfl, cellsInside, damagesInside⟩ := ranges_of_ok ranged
  refine ensures_readAtomicBytes ⟨by omega, by omega⟩
    (fun unaligned => .unaligned (opened mid sinceMid) (headed mid (le_refl _)) (by omega))
    fun third cellWords cellsLoaded => ?_
  have sinceThird := le_trans sinceMid cellsLoaded.1
  refine ensures_readAtomicBytes ⟨by omega, by omega⟩
    (fun unaligned => .unaligned (opened third sinceThird) (headed third cellsLoaded.1) (by omega))
    fun fourth damageWords damagesLoaded => ?_
  have sinceFourth := le_trans sinceThird damagesLoaded.1
  have toFourth := le_trans cellsLoaded.1 damagesLoaded.1
  have cellCount : header.cellCount.toNat * 16 / 8 = 2 * header.cellCount.toNat := by omega
  have damageCount : header.damageCount.toNat * 8 / 8 = header.damageCount.toNat := by omega
  rw [cellCount] at cellsLoaded
  rw [damageCount] at damagesLoaded
  refine ensures_layoutError (fun cells decodedCells => ?_) fun error refused =>
    .badCells (opened fourth sinceFourth) (headed fourth toFourth)
      (cellsLoaded.within sinceMid damagesLoaded.1) refused
  refine ensures_layoutError (fun damages decodedDamages => ?_) fun error refused =>
    .badDamages (opened fourth sinceFourth) (headed fourth toFourth)
      (damagesLoaded.within sinceThird (le_refl _)) refused
  refine ensures_atomicLoad aligned (by unfold slotSequenceOffset; omega) fun closed sinceClosed => ?_
  refine ensures_atomicLoad rfl (by unfold publicationWordOffset; omega) fun now sinceNow => ?_
  refine ensures_ite (fun same => ?_) fun _ => .again
  exact .read (opened closed (le_trans sinceFourth sinceClosed)) (headed closed (le_trans toFourth sinceClosed))
    (cellsLoaded.within sinceMid (le_trans damagesLoaded.1 sinceClosed))
    (damagesLoaded.within sinceThird sinceClosed) decodedCells decodedDamages same.2.1 sinceNow

theorem Opened.earlier {start : World region} {slot generation : Nat}
    (opened : Opened state before now slot generation) (since : start ≤ state) :
    Opened start before now slot generation := by
  obtain ⟨first, fromState, toBefore, announced⟩ := opened.announced
  exact { opened with announced := ⟨first, le_trans since fromState, toBefore, announced⟩ }

theorem Attempt.earlier {start : World region} {outcome : Except ReaderError (Option SnapshotRead)}
    (attempt : Attempt state now outcome) (since : start ≤ state) : Attempt start now outcome := by
  cases attempt with
  | unpublished => exact .unpublished
  | again => exact .again
  | badHeader opened headed => exact .badHeader (opened.earlier since) headed
  | badRanges opened headed refused => exact .badRanges (opened.earlier since) headed refused
  | unaligned opened headed unaligned => exact .unaligned (opened.earlier since) headed unaligned
  | badCells opened headed loaded refused => exact .badCells (opened.earlier since) headed loaded refused
  | badDamages opened headed loaded refused => exact .badDamages (opened.earlier since) headed loaded refused
  | read opened headed cellsLoaded damagesLoaded cells damages unchanged last =>
      exact .read (opened.earlier since) headed cellsLoaded damagesLoaded cells damages unchanged last

/-- How a call ends. -/
def Finished (state : World region) (outcome : Except ReaderError SnapshotRead) (now : World region) : Prop :=
  outcome = .error .tornReadExceededRetries ∨ Attempt state now (outcome.map some)

theorem ensures_readRetries (valid : region.Valid memoryLen) (retries : Nat) (state : World region) :
    Ensures memory (Finished state) (readRetries memoryLen region retries) state := by
  induction retries generalizing state with
  | zero => exact .inl rfl
  | succ retries ih =>
      refine Ensures.bind ((ensures_attemptRead valid state).mono fun outcome now after attempt => ?_)
      cases outcome with
      | error error => exact .inr attempt
      | ok read =>
          cases read with
          | some read => exact .inr attempt
          | none => exact (ih now).mono fun _ _ _ finished => finished.imp_right (Attempt.earlier · after)

theorem ensures_readLatest (validated : validateRegionMemory memoryLen region = .ok ()) (state : World region) :
    Ensures memory (Finished state) (readLatest memoryLen region) state := by
  rw [readLatest, validated]
  exact ensures_readRetries (valid_of_validate validated) maxReadRetries state

/-- The call ran from one state of the memory to another. -/
structure Witnessed (world : World region) (result : ReadResult) (state now : World region) : Prop where
  inv : Inv state
  after : state ≤ now
  past : now ≤ world
  since : result.since = state.announced
  ended : result.ended = now.announced
  finished : Finished state result.outcome now

structure Followed (world : World region) (reader : ReaderState) : Prop where
  results : ∀ result ∈ reader.results, ∃ state now, Witnessed world result state now
  ordered : reader.results.Pairwise fun earlier later => earlier.ended ≤ later.since
  past : ∀ result ∈ reader.results, result.ended ≤ world.announced
  reading : ∀ offset next, reader.reading = some (offset, next) →
    (∀ result ∈ reader.results, result.ended ≤ reader.since) ∧
      ∃ state, Inv state ∧ state ≤ world ∧ reader.since = state.announced ∧
        Ensures memory (Finished state) (.load offset next) world

variable {world later : World region} {reader : ReaderState}

theorem Followed.later_world (followed : Followed world reader) (after : world ≤ later) (ahead : Ahead world later) :
    Followed later reader where
  results result member := by
    obtain ⟨state, now, witnessed⟩ := followed.results result member
    exact ⟨state, now, { witnessed with past := le_trans witnessed.past after }⟩
  ordered := followed.ordered
  past result member := (followed.past result member).trans ahead.announced_le
  reading offset next waits := by
    obtain ⟨earlier, state, inv, since, same, ensures⟩ := followed.reading offset next waits
    exact ⟨earlier, state, inv, le_trans since after, same, fun now from_ => ensures now (le_trans after from_)⟩

theorem Followed.proceed (followed : Followed world reader) {state : World region} {program : Reads SnapshotRead}
    (earlier : ∀ result ∈ reader.results, result.ended ≤ reader.since) (inv : Inv state) (since : state ≤ world)
    (same : reader.since = state.announced) (ensures : Ensures memory (Finished state) program world) :
    Followed world (reader.proceed world.announced program) := by
  cases program with
  | done outcome =>
      refine ⟨fun result member => ?_, ?_, fun result member => ?_, nofun⟩
      · rcases List.mem_append.mp member with old | new
        · exact followed.results result old
        · rw [List.mem_singleton.mp new]
          exact ⟨state, world, inv, since, le_refl _, same, rfl, ensures⟩
      · refine List.pairwise_append.mpr ⟨followed.ordered, List.pairwise_singleton .., fun result member new last => ?_⟩
        rw [List.mem_singleton.mp last]
        exact earlier result member
      · rcases List.mem_append.mp member with old | new
        · exact followed.past result old
        · rw [List.mem_singleton.mp new]
  | load offset next =>
      refine ⟨followed.results, followed.ordered, followed.past, fun other following waits => ?_⟩
      obtain ⟨rfl, rfl⟩ := Prod.mk.inj (Option.some.inj waits)
      exact ⟨earlier, state, inv, since, same, ensures⟩

structure System.Sound (system : System region) : Prop where
  inv : Inv system.world
  readers : ∀ reader, Followed system.world (system.readers reader)

variable {system next : System region}

theorem System.Sound.setReader (sound : system.Sound) {reader : Nat} {state : ReaderState}
    (followed : Followed system.world state) : (system.setReader reader state).Sound := by
  refine ⟨sound.inv, fun other => ?_⟩
  by_cases same : other = reader
  · subst same
    simp only [System.setReader, Function.update_self]
    exact followed
  · simp only [System.setReader, Function.update_of_ne same]
    exact sound.readers other

theorem System.Sound.move (valid : region.Valid memoryLen) (sound : system.Sound)
    (moved : Step system.world later) : System.Sound { system with world := later } := by
  obtain ⟨inv, ahead⟩ := sound.inv.step valid moved
  exact ⟨inv, fun reader => (sound.readers reader).later_world (.single moved) ahead⟩

theorem System.Sound.step (validated : validateRegionMemory memoryLen region = .ok ()) (sound : system.Sound)
    {event : Event} (stepped : system.step memoryLen event = some next) : next.Sound := by
  have valid := valid_of_validate validated
  cases event with
  | publish snapshot =>
      obtain ⟨later, called, rfl⟩ := Option.map_eq_some_iff.mp stepped
      exact sound.move valid (.call snapshot called)
  | store =>
      obtain ⟨later, stored, rfl⟩ := Option.map_eq_some_iff.mp stepped
      exact sound.move valid (.store stored)
  | readLatest reader =>
      simp only [System.step] at stepped
      split at stepped
      next idle =>
        cases stepped
        have followed := sound.readers reader
        have called : Followed system.world { system.readers reader with since := system.world.announced } := by
          refine ⟨followed.results, followed.ordered, followed.past, fun offset next waits => ?_⟩
          cases idle.symm.trans waits
        exact sound.setReader
          (called.proceed followed.past sound.inv (le_refl _) rfl (ensures_readLatest validated _))
      next => cases stepped
  | load reader =>
      simp only [System.step] at stepped
      split at stepped
      next => cases stepped
      next offset rest waits =>
        cases stepped
        obtain ⟨earlier, state, inv, since, same, ensures⟩ := (sound.readers reader).reading offset rest waits
        exact sound.setReader ((sound.readers reader).proceed earlier inv since same (ensures _ (le_refl _)))

theorem System.sound_start (validated : validateRegionMemory memoryLen region = .ok ()) (memory : Nat → Nat) :
    (System.start memory : System region).Sound :=
  ⟨inv_start (valid_of_validate validated) memory, fun _ => ⟨nofun, .nil, nofun, nofun⟩⟩

theorem System.Sound.run (validated : validateRegionMemory memoryLen region = .ok ()) {events : List Event}
    (sound : system.Sound) (ran : system.run memoryLen events = some next) : next.Sound := by
  induction events generalizing system with
  | nil =>
      cases ran
      exact sound
  | cons event events ih =>
      obtain ⟨middle, stepped, rest⟩ := Option.bind_eq_some_iff.mp ran
      exact ih (sound.step validated stepped) rest

end Seyal.Runtime.Projection
