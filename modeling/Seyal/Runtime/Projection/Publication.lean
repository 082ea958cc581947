import Seyal.Runtime.Projection.Writer

namespace Seyal.Runtime.Projection

open Program

/-! What the stores of the writer leave in the two slots. -/

variable {region : RegionHeader} {memory : Nat → Nat} {memoryLen : Nat}

/-- The word of a slot. The first is its sequence. -/
def RegionHeader.address (region : RegionHeader) (slot index : Nat) : Nat := region.slotOffset slot + 8 * index

open RegionHeader

structure RegionHeader.Valid (region : RegionHeader) (memoryLen : Nat) : Prop where
  header : 128 ≤ region.slot0Offset.toNat
  aligned : region.slot0Offset.toNat % 8 = 0
  strideAligned : region.slotStride.toNat % 8 = 0
  stride : 64 ≤ region.slotStride.toNat
  inside : region.slot0Offset.toNat + 2 * region.slotStride.toNat ≤ memoryLen

theorem valid_of_validate (validated : validateRegionMemory memoryLen region = .ok ()) : region.Valid memoryLen := by
  simp only [validateRegionMemory, bind_eq_ok, refuse_eq_ok] at validated
  obtain ⟨_, small, _, header, _, aligned, _, stride, _, _, _, _, inside⟩ := validated
  unfold regionHeaderLen at header
  unfold slotHeaderLen at stride
  constructor <;> omega

theorem RegionHeader.address_ne_publication (valid : region.Valid memoryLen) (slot index : Nat) :
    region.address slot index ≠ publicationWordOffset := by
  have header := valid.header
  unfold address slotOffset publicationWordOffset
  have nonneg := Nat.zero_le (slot * region.slotStride.toNat)
  omega

variable {slot generation : Nat} {snapshot : SnapshotWrite}

theorem RegionHeader.address_inj {other index second : Nat} (slots : slot < 2 ∧ other < 2)
    (inside : 8 * index + 8 ≤ region.slotStride.toNat ∧ 8 * second + 8 ≤ region.slotStride.toNat)
    (same : region.address slot index = region.address other second) : slot = other ∧ index = second := by
  unfold address slotOffset at same
  have first : slot = 0 ∨ slot = 1 := by omega
  have last : other = 0 ∨ other = 1 := by omega
  rcases first with rfl | rfl <;> rcases last with rfl | rfl <;> simp only [Nat.zero_mul, Nat.one_mul] at same <;> omega

def SnapshotWrite.groups (snapshot : SnapshotWrite) (generation : Nat) : List (List UInt8) :=
  (snapshot.header generation).groups ++ snapshot.cells.flatMap CellRecord.groups ++
    snapshot.damages.map DamageRecord.encode

def SnapshotWrite.words (snapshot : SnapshotWrite) (generation : Nat) : List Nat :=
  (snapshot.groups generation).map fromLe

def slotOf (generation : Nat) : Nat := (generation + 1) % 2

theorem slotOf_lt (generation : Nat) : slotOf generation < 2 := Nat.mod_lt _ (by decide)

theorem storesFrom_append (offset : Nat) (words more : List Nat) :
    storesFrom offset (words ++ more) = storesFrom offset words ++ storesFrom (offset + 8 * words.length) more := by
  induction words generalizing offset with
  | nil => rfl
  | cons word words ih =>
      have next : offset + 8 + 8 * words.length = offset + 8 * (words.length + 1) := by omega
      simp only [List.cons_append, storesFrom, ih, List.length_cons, next]

theorem writeRecords_eq {α : Type} {count : Nat} {encode : α → List UInt8} {groups : α → List (List UInt8)}
    (encoded : ∀ record, encode record = (groups record).flatten)
    (counts : ∀ record, (groups record).length = count)
    (sizes : ∀ record, ∀ group ∈ groups record, group.length = 8) (offset : Nat) (records : List α) :
    writeRecords offset (8 * count) encode records = storesFrom offset ((records.flatMap groups).map fromLe) := by
  have shifted (first : Nat) : ((records.zipIdx first).flatMap fun entry =>
      writeAtomicBytes (offset + entry.2 * (8 * count)) (encode entry.1)) =
        storesFrom (offset + first * (8 * count)) ((records.flatMap groups).map fromLe) := by
    induction records generalizing first with
    | nil => rfl
    | cons record records ih =>
        have next : offset + (first + 1) * (8 * count) = offset + first * (8 * count) + 8 * count := by
          rw [Nat.add_mul, Nat.one_mul, Nat.add_assoc]
        rw [List.zipIdx_cons, List.flatMap_cons, ih, List.flatMap_cons, List.map_append, storesFrom_append, next,
          List.length_map, counts]
        change storesFrom _ (wordsOf (encode record)) ++ _ = _
        rw [encoded, wordsOf_flatten (sizes record)]
  have whole := shifted 0
  rw [Nat.zero_mul, Nat.add_zero] at whole
  exact whole

theorem length_cellGroups (cells : List CellRecord) : (cells.flatMap CellRecord.groups).length = 2 * cells.length := by
  induction cells with
  | nil => rfl
  | cons cell cells ih =>
      rw [List.flatMap_cons, List.length_append, ih, List.length_cons]
      simp only [CellRecord.groups, List.length_cons, List.length_nil]
      omega

theorem publish_eq {writer next : Writer} {stores : List Store}
    (published : publish region writer snapshot = .ok (stores, next)) :
    validateSnapshot region snapshot = .ok () ∧ writer.nextGeneration ≤ maxGeneration ∧
      next = ⟨writer.nextGeneration + 1, some writer.freeSlot⟩ ∧
      stores = (region.address writer.freeSlot 0, 2 * writer.nextGeneration + 1) ::
        (storesFrom (region.address writer.freeSlot 1) (snapshot.words writer.nextGeneration) ++
        [(region.address writer.freeSlot 0, 2 * writer.nextGeneration),
          (publicationWordOffset, 2 * writer.nextGeneration + writer.freeSlot)]) := by
  simp only [publish, bind_eq_ok, refuse_eq_ok, pure_eq_ok, Prod.mk.injEq] at published
  obtain ⟨_, validated, _, room, rfl, rfl⟩ := published
  refine ⟨validated, Nat.le_of_not_lt room, rfl, ?_⟩
  have header : wordsOf (snapshot.header writer.nextGeneration).encode =
      (snapshot.header writer.nextGeneration).groups.map fromLe := wordsOf_flatten (SlotHeader.groups_length _)
  have cells (offset : Nat) : writeRecords offset cellLen CellRecord.encode snapshot.cells =
      storesFrom offset ((snapshot.cells.flatMap CellRecord.groups).map fromLe) :=
    @writeRecords_eq CellRecord 2 CellRecord.encode CellRecord.groups (fun _ => rfl) (fun _ => rfl)
      CellRecord.groups_length offset _
  have damages (offset : Nat) : writeRecords offset damageLen DamageRecord.encode snapshot.damages =
      storesFrom offset ((snapshot.damages.map DamageRecord.encode).map fromLe) := by
    have single : snapshot.damages.map DamageRecord.encode =
        snapshot.damages.flatMap fun damage => [damage.encode] := List.map_eq_flatMap
    rw [single]
    refine @writeRecords_eq DamageRecord 1 _ _ (fun _ => (List.append_nil _).symm) (fun _ => rfl)
      (fun damage group member => ?_) offset _
    rw [List.mem_singleton.mp member]
    exact damage.length_encode
  simp only [writeAtomicBytes, header, cells, damages, SnapshotWrite.words, SnapshotWrite.groups, List.map_append,
    storesFrom_append, List.length_map, List.length_append, length_cellGroups, address]
  have count : (snapshot.header writer.nextGeneration).groups.length = 7 := rfl
  have cellsAt (start : Nat) : start + 8 * 1 + 8 * 7 = start + slotHeaderLen := rfl
  have damagesAt (start : Nat) : start + 8 * 1 + 8 * (7 + 2 * snapshot.cells.length) =
      start + (slotHeaderLen + snapshot.cells.length * cellLen) := by
    simp only [slotHeaderLen, cellLen]
    omega
  rw [count, cellsAt, damagesAt]
  simp only [List.append_assoc, List.cons_append, List.nil_append, slotSequenceOffset, Nat.mul_zero, Nat.mul_one]

theorem length_words (snapshot : SnapshotWrite) (generation : Nat) :
    (snapshot.words generation).length = 7 + 2 * snapshot.cells.length + snapshot.damages.length := by
  simp only [SnapshotWrite.words, SnapshotWrite.groups, List.length_map, List.length_append, length_cellGroups]
  rfl

/-- The slot has room for the words of the snapshot behind its sequence. -/
def Roomy (region : RegionHeader) (snapshot : SnapshotWrite) : Prop :=
  8 * (8 + 2 * snapshot.cells.length + snapshot.damages.length) ≤ region.slotStride.toNat

theorem roomy_of_validate (validated : validateSnapshot region snapshot = .ok ()) :
    Roomy region snapshot := by
  simp only [validateSnapshot, bind_eq_ok, refuse_eq_ok] at validated
  obtain ⟨_, _, _, _, _, _, _, _, room⟩ := validated
  simp only [slotHeaderLen, cellLen, damageLen] at room
  unfold Roomy
  omega

/-! A slot holds a generation when its sequence and its words are those of it. -/

variable {published : List SnapshotWrite}

structure Complete (region : RegionHeader) (memory : Nat → Nat) (published : List SnapshotWrite)
    (slot generation : Nat) : Prop where
  sequence : memory (region.address slot 0) = 2 * generation
  words : ∀ snapshot, 1 ≤ generation → published[generation - 1]? = some snapshot →
    ∀ index word, (snapshot.words generation)[index]? = some word → memory (region.address slot (index + 1)) = word

def publicationOf (generation : Nat) : Nat := if generation = 0 then 0 else 2 * generation + slotOf generation

/-- The latest generation that is announced. -/
structure Announced (region : RegionHeader) (memory : Nat → Nat) (published : List SnapshotWrite)
    (generation : Nat) : Prop where
  publication : memory publicationWordOffset = publicationOf generation
  complete : Complete region memory published (slotOf generation) generation

/-- How far the call that publishes the last generation has got. -/
inductive Stage (region : RegionHeader) (memory : Nat → Nat) (published : List SnapshotWrite) : List Store → Prop where
  | settled (announced : Announced region memory published published.length)
      (previous : Complete region memory published (slotOf (published.length + 1)) (published.length - 1)) :
      Stage region memory published []
  | called {snapshot : SnapshotWrite} (some_ : 1 ≤ published.length)
      (last : published[published.length - 1]? = some snapshot)
      (announced : Announced region memory published (published.length - 1))
      (previous : Complete region memory published (slotOf published.length) (published.length - 2)) :
      Stage region memory published ((region.address (slotOf published.length) 0, 2 * published.length + 1) ::
        (storesFrom (region.address (slotOf published.length) 1) (snapshot.words published.length) ++
        [(region.address (slotOf published.length) 0, 2 * published.length),
          (publicationWordOffset, 2 * published.length + slotOf published.length)]))
  | writing {snapshot : SnapshotWrite} (count : Nat) (some_ : 1 ≤ published.length)
      (last : published[published.length - 1]? = some snapshot)
      (announced : Announced region memory published (published.length - 1))
      (marked : memory (region.address (slotOf published.length) 0) = 2 * published.length + 1)
      (written : ∀ index < count, ∀ word, (snapshot.words published.length)[index]? = some word →
        memory (region.address (slotOf published.length) (index + 1)) = word) :
      Stage region memory published
        (storesFrom (region.address (slotOf published.length) (count + 1))
          ((snapshot.words published.length).drop count) ++
        [(region.address (slotOf published.length) 0, 2 * published.length),
          (publicationWordOffset, 2 * published.length + slotOf published.length)])
  | sealed (some_ : 1 ≤ published.length) (announced : Announced region memory published (published.length - 1))
      (complete : Complete region memory published (slotOf published.length) published.length) :
      Stage region memory published [(publicationWordOffset, 2 * published.length + slotOf published.length)]

structure Inv (world : World region) : Prop where
  validated : ∀ snapshot ∈ world.published, validateSnapshot region snapshot = .ok ()
  next : world.writer.nextGeneration = world.published.length + 1
  free : world.writer.freeSlot = slotOf (world.published.length + 1)
  stage : Stage region world.memory world.published world.pending

theorem slotOf_succ_ne (generation : Nat) : slotOf (generation + 1) ≠ slotOf generation := by
  unfold slotOf
  omega

section Updates

variable {slot other index word generation : Nat}

theorem Complete.update {offset : Nat} (complete : Complete region memory published slot generation)
    (roomy : ∀ snapshot ∈ published, Roomy region snapshot)
    (elsewhere : ∀ index, 8 * index + 8 ≤ region.slotStride.toNat → region.address slot index ≠ offset)
    (stride : 64 ≤ region.slotStride.toNat) :
    Complete region (Function.update memory offset word) published slot generation where
  sequence := by
    rw [Function.update_of_ne (elsewhere 0 (by omega))]
    exact complete.sequence
  words := by
    intro snapshot positive found index here present
    have room := roomy snapshot (List.mem_of_getElem? found)
    have inside := (List.getElem?_eq_some_iff.mp present).1
    rw [length_words] at inside
    unfold Roomy at room
    rw [Function.update_of_ne (elsewhere (index + 1) (by omega))]
    exact complete.words snapshot positive found index here present

theorem elsewhere_slot (slots : slot < 2 ∧ other < 2) (different : slot ≠ other)
    (inside : 8 * index + 8 ≤ region.slotStride.toNat) :
    ∀ second, 8 * second + 8 ≤ region.slotStride.toNat → region.address slot second ≠ region.address other index :=
  fun _ room same => different (address_inj slots ⟨room, inside⟩ same).1

theorem elsewhere_publication (valid : region.Valid memoryLen) :
    ∀ second, 8 * second + 8 ≤ region.slotStride.toNat → region.address slot second ≠ publicationWordOffset :=
  fun second _ => address_ne_publication valid slot second

theorem Announced.update (valid : region.Valid memoryLen) (announced : Announced region memory published generation)
    (roomy : ∀ snapshot ∈ published, Roomy region snapshot) (slots : other < 2) (different : slotOf generation ≠ other)
    (inside : 8 * index + 8 ≤ region.slotStride.toNat) :
    Announced region (Function.update memory (region.address other index) word) published generation where
  publication := by
    rw [Function.update_of_ne (address_ne_publication valid other index).symm]
    exact announced.publication
  complete := announced.complete.update roomy (elsewhere_slot ⟨slotOf_lt _, slots⟩ different inside) valid.stride

end Updates

theorem Complete.append (complete : Complete region memory published slot generation)
    (old : generation ≤ published.length) (snapshot : SnapshotWrite) :
    Complete region memory (published ++ [snapshot]) slot generation where
  sequence := complete.sequence
  words other positive found := by
    rw [List.getElem?_append_left (by omega)] at found
    exact complete.words other positive found

theorem Announced.append (announced : Announced region memory published generation)
    (old : generation ≤ published.length) (snapshot : SnapshotWrite) :
    Announced region memory (published ++ [snapshot]) generation :=
  ⟨announced.publication, announced.complete.append old snapshot⟩

/-- Where a sequence stands: while generation `g` is written it is past the one before and short of `g`. -/
def rank (sequence : Nat) : Nat := if sequence % 2 = 1 then sequence - 2 else sequence

theorem rank_even (generation : Nat) : rank (2 * generation) = 2 * generation := if_neg (by omega)

theorem rank_cases (sequence : Nat) :
    rank sequence = sequence ∧ sequence % 2 = 0 ∨ rank sequence = sequence - 2 ∧ sequence % 2 = 1 := by
  unfold rank
  split <;> omega

/-- What never goes back. -/
structure Ahead (world later : World region) : Prop where
  publication : world.memory publicationWordOffset ≤ later.memory publicationWordOffset
  sequence : ∀ slot < 2,
    rank (world.memory (region.address slot 0)) ≤ rank (later.memory (region.address slot 0))
  published : world.published <+: later.published

variable {world later : World region}

theorem Ahead.refl (world : World region) : Ahead world world :=
  ⟨Nat.le_refl _, fun _ _ => Nat.le_refl _, List.prefix_rfl⟩

theorem Ahead.trans {middle : World region} (first : Ahead world middle) (second : Ahead middle later) :
    Ahead world later :=
  ⟨first.publication.trans second.publication,
    fun slot below => (first.sequence slot below).trans (second.sequence slot below),
    first.published.trans second.published⟩

theorem Ahead.found (ahead : Ahead world later) {index : Nat} (found : world.published[index]? = some snapshot) :
    later.published[index]? = some snapshot := by
  obtain ⟨rest, same⟩ := ahead.published
  rw [← same, List.getElem?_append_left (List.getElem?_eq_some_iff.mp found).1]
  exact found

theorem Stage.idle {pending : List Store} (stage : Stage region memory published pending) (idle : pending = []) :
    Announced region memory published published.length ∧
      Complete region memory published (slotOf (published.length + 1)) (published.length - 1) := by
  cases stage with
  | settled announced previous => exact ⟨announced, previous⟩
  | called => cases idle
  | writing => simp at idle
  | sealed => cases idle

theorem Inv.call (inv : Inv world) {snapshot : SnapshotWrite} (called : world.call snapshot = some later) :
    Inv later ∧ Ahead world later := by
  unfold World.call at called
  split at called
  next idle =>
    split at called
    next stores writer ran =>
      cases called
      obtain ⟨validated, _, rfl, rfl⟩ := publish_eq ran
      obtain ⟨announced, previous⟩ := inv.stage.idle idle
      have length : (world.published ++ [snapshot]).length = world.published.length + 1 := by simp
      refine ⟨⟨fun other member => ?_, ?_, ?_, ?_⟩, Nat.le_refl _, fun _ _ => Nat.le_refl _, List.prefix_append ..⟩
      · rcases List.mem_append.mp member with old | new
        · exact inv.validated other old
        · rw [List.mem_singleton.mp new]
          exact validated
      · simp only [inv.next, length]
      · change (⟨_, some world.writer.freeSlot⟩ : Writer).freeSlot = _
        rw [length, inv.free]
        unfold Writer.freeSlot slotOf
        split <;> simp_all <;> omega
      · have stage := @Stage.called region world.memory (world.published ++ [snapshot]) snapshot (by simp) (by simp)
          (by simpa using announced.append (Nat.le_refl _) snapshot)
          (by simpa using previous.append (Nat.sub_le ..) snapshot)
        rw [length] at stage
        rw [inv.next, inv.free]
        exact stage
    next =>
      cases called
      exact ⟨inv, Ahead.refl _⟩
  next => cases called

theorem Announced.publication_le (announced : Announced region memory published (published.length - 1))
    (some_ : 1 ≤ published.length) :
    memory publicationWordOffset ≤ 2 * published.length + slotOf published.length := by
  have small := slotOf_lt (published.length - 1)
  rw [announced.publication, publicationOf]
  split <;> omega

theorem ahead_of_update {writer after : Writer} {pending rest : List Store} {offset word : Nat}
    (publication : offset = publicationWordOffset → memory offset ≤ word)
    (sequence : ∀ slot < 2, offset = region.address slot 0 → rank (memory offset) ≤ rank word) :
    Ahead (⟨memory, writer, pending, published⟩ : World region)
      ⟨Function.update memory offset word, after, rest, published⟩ where
  publication := by
    by_cases same : publicationWordOffset = offset
    · simpa [same] using publication same.symm
    · simp [Function.update_of_ne same]
  sequence slot below := by
    by_cases same : region.address slot 0 = offset
    · simpa [same] using sequence slot below same.symm
    · simp [Function.update_of_ne same]
  published := List.prefix_rfl

theorem address_succ_ne (slot index : Nat) : region.address slot (index + 1) ≠ region.address slot 0 := by
  unfold address
  omega

theorem drop_eq_cons {words rest : List Nat} {count word : Nat} (split : words.drop count = word :: rest) :
    words[count]? = some word ∧ words.drop (count + 1) = rest := by
  constructor
  · have first : (words.drop count)[0]? = some word := by rw [split]; rfl
    simpa using first
  · rw [← List.tail_drop, split]
    rfl

section Stores

variable {words : List Nat} {count : Nat} (written : ∀ index < count, ∀ word, words[index]? = some word →
  memory (region.address slot (index + 1)) = word)
include written

theorem written_succ {word : Nat} (present : words[count]? = some word) :
    ∀ index < count + 1, ∀ other, words[index]? = some other →
      Function.update memory (region.address slot (count + 1)) word (region.address slot (index + 1)) = other := by
  intro index below other here
  by_cases same : index = count
  · subst same
    rw [Option.some.inj (here.symm.trans present), Function.update_self]
  · have apart : region.address slot (index + 1) ≠ region.address slot (count + 1) := by
      unfold address
      omega
    rw [Function.update_of_ne apart]
    exact written index (by omega) other here

theorem complete_of_written (last : published[published.length - 1]? = some snapshot)
    (all : snapshot.words published.length = words) (ends : words.length ≤ count) :
    Complete region (Function.update memory (region.address slot 0) (2 * published.length)) published slot
      published.length where
  sequence := Function.update_self ..
  words := by
    intro other _ found index word present
    obtain rfl := Option.some.inj (last.symm.trans found)
    rw [all] at present
    rw [Function.update_of_ne (address_succ_ne _ _)]
    exact written index ((List.getElem?_eq_some_iff.mp present).1.trans_le ends) word present

omit written
variable (valid : region.Valid memoryLen) (roomy : ∀ snapshot ∈ published, Roomy region snapshot)
  (some_ : 1 ≤ published.length) (announced : Announced region memory published (published.length - 1))
include valid roomy some_ announced

-- The announced generation is in the other slot.
theorem Announced.writes {index : Nat} (inside : 8 * index + 8 ≤ region.slotStride.toNat) (word : Nat) :
    Announced region (Function.update memory (region.address (slotOf published.length) index) word) published
      (published.length - 1) := by
  have different := slotOf_succ_ne (published.length - 1)
  rw [Nat.sub_add_cancel some_] at different
  exact announced.update valid roomy (slotOf_lt _) different.symm inside

theorem Stage.announces (complete : Complete region memory published (slotOf published.length) published.length) :
    Stage region
      (Function.update memory publicationWordOffset (2 * published.length + slotOf published.length)) published [] := by
  refine .settled ⟨?_, complete.update roomy (elsewhere_publication valid) valid.stride⟩ ?_
  · rw [Function.update_self, publicationOf, if_neg (by omega)]
  · have back : slotOf (published.length + 1) = slotOf (published.length - 1) := by
      unfold slotOf
      omega
    rw [back]
    exact announced.complete.update roomy (elsewhere_publication valid) valid.stride

end Stores

theorem Inv.store (valid : region.Valid memoryLen) (inv : Inv world) (stored : world.store = some later) :
    Inv later ∧ Ahead world later := by
  obtain ⟨memory, writer, pending, published⟩ := world
  have stage : Stage region memory published pending := inv.stage
  have roomy (snapshot : SnapshotWrite) (member : snapshot ∈ published) : Roomy region snapshot :=
    roomy_of_validate (inv.validated snapshot member)
  have stride := valid.stride
  have apart {slot index word : Nat} (same : region.address slot index = publicationWordOffset) :
      memory (region.address slot index) ≤ word := absurd same (address_ne_publication valid _ _)
  cases stage with
  | settled announced previous => cases stored
  | @called snapshot some_ last announced previous =>
    cases stored
    have marks := announced.writes valid roomy some_ (show 8 * 0 + 8 ≤ _ by omega) (2 * published.length + 1)
    refine ⟨⟨inv.validated, inv.next, inv.free, ?_⟩, ahead_of_update apart fun _ _ _ => ?_⟩
    · exact .writing 0 some_ last marks (Function.update_self ..) nofun
    · rw [previous.sequence]
      unfold rank
      split <;> split <;> omega
  | @writing snapshot count some_ last announced marked written =>
    cases split : (snapshot.words published.length).drop count with
    | nil =>
      rw [split] at stored
      cases stored
      have seals := announced.writes valid roomy some_ (show 8 * 0 + 8 ≤ _ by omega) (2 * published.length)
      refine ⟨⟨inv.validated, inv.next, inv.free, ?_⟩, ahead_of_update apart fun _ _ _ => ?_⟩
      · exact .sealed some_ seals (complete_of_written written last rfl (List.drop_eq_nil_iff.mp split))
      · rw [marked]
        unfold rank
        split <;> split <;> omega
    | cons word rest =>
      rw [split] at stored
      cases stored
      obtain ⟨present, rfl⟩ := drop_eq_cons split
      have inside := (List.getElem?_eq_some_iff.mp present).1
      have room := roomy snapshot (List.mem_of_getElem? last)
      rw [length_words] at inside
      unfold Roomy at room
      have fits : 8 * (count + 1) + 8 ≤ region.slotStride.toNat := by omega
      refine ⟨⟨inv.validated, inv.next, inv.free, ?_⟩, ahead_of_update apart fun other below same => ?_⟩
      · exact .writing (count + 1) some_ last (announced.writes valid roomy some_ fits word)
          ((Function.update_of_ne (address_succ_ne _ _).symm ..).trans marked) (written_succ written present)
      · have indices := (address_inj ⟨slotOf_lt _, below⟩ ⟨fits, by omega⟩ same).2
        omega
  | sealed some_ announced complete =>
    cases stored
    refine ⟨⟨inv.validated, inv.next, inv.free, .announces valid roomy some_ announced complete⟩, ?_⟩
    exact ahead_of_update (fun _ => announced.publication_le some_)
      fun _ _ same => absurd same.symm (address_ne_publication valid _ _)

theorem Inv.step (valid : region.Valid memoryLen) (inv : Inv world) (step : World.Step world later) :
    Inv later ∧ Ahead world later := by
  cases step with
  | call snapshot called => exact inv.call called
  | store stored => exact inv.store valid stored

theorem Inv.since (valid : region.Valid memoryLen) (inv : Inv world) (after : world ≤ later) :
    Inv later ∧ Ahead world later := by
  induction after with
  | refl => exact ⟨inv, Ahead.refl _⟩
  | tail _ step ih =>
      obtain ⟨next, ahead⟩ := ih.1.step valid step
      exact ⟨next, ih.2.trans ahead⟩

theorem inv_start (valid : region.Valid memoryLen) (memory : Nat → Nat) : Inv (World.start memory : World region) where
  validated := nofun
  next := rfl
  free := show 0 = slotOf (0 + 1) from rfl
  stage := by
    have stride := valid.stride
    have apart : region.address 0 0 ≠ region.address 1 0 := by
      unfold address slotOffset
      omega
    have first : (World.start memory : World region).memory (region.address 0 0) = 0 := by
      refine (Function.update_of_ne (address_ne_publication valid _ _) ..).trans ?_
      exact (Function.update_of_ne apart ..).trans (Function.update_self ..)
    have second : (World.start memory : World region).memory (region.address 1 0) = 0 :=
      (Function.update_of_ne (address_ne_publication valid _ _) ..).trans (Function.update_self ..)
    have third : (World.start memory : World region).memory publicationWordOffset = 0 := by
      simp only [World.start, Function.update_self]
    have announced : Announced region (World.start memory : World region).memory [] 0 := ⟨third, second, nofun⟩
    have older : Complete region (World.start memory : World region).memory [] (slotOf (0 + 1)) (0 - 1) :=
      ⟨first, nofun⟩
    exact .settled announced older

theorem Inv.complete (inv : Inv world) (below : slot < 2) (positive : 1 ≤ generation)
    (sequence : world.memory (region.address slot 0) = 2 * generation) :
    generation ≤ world.published.length ∧ slotOf generation = slot ∧
      Complete region world.memory world.published slot generation := by
  have unique {other : Nat} (small : other ≤ world.published.length) (same : slotOf other = slot ∨ other = 0)
      (complete : Complete region world.memory world.published slot other) :
      generation ≤ world.published.length ∧ slotOf generation = slot ∧
        Complete region world.memory world.published slot generation := by
    have equal := complete.sequence.symm.trans sequence
    obtain rfl : other = generation := by omega
    exact ⟨small, same.resolve_right (by omega), complete⟩
  have which (last : Nat) : slot = slotOf last ∨ slot = slotOf (last + 1) := by
    unfold slotOf
    omega
  have previous {last : Nat} (some_ : 1 ≤ last) : slot = slotOf (last - 1) ∨ slot = slotOf last := by
    have which := which (last - 1)
    rwa [Nat.sub_add_cancel some_] at which
  have back (last : Nat) : slotOf (last - 1) = slotOf (last + 1) ∨ last - 1 = 0 := by
    unfold slotOf
    omega
  have stage := inv.stage
  revert stage
  generalize world.pending = pending
  intro stage
  cases stage with
  | settled announced older =>
      rcases which world.published.length with rfl | rfl
      · exact unique (Nat.le_refl _) (.inl rfl) announced.complete
      · exact unique (Nat.sub_le ..) (back _) older
  | called some_ last announced older =>
      rcases previous some_ with rfl | rfl
      · exact unique (Nat.sub_le ..) (.inl rfl) announced.complete
      · refine unique (Nat.sub_le ..) ?_ older
        have back := back (world.published.length - 1)
        rwa [Nat.sub_add_cancel some_] at back
  | writing count some_ last announced marked written =>
      rcases previous some_ with rfl | rfl
      · exact unique (Nat.sub_le ..) (.inl rfl) announced.complete
      · omega
  | sealed some_ announced complete =>
      rcases previous some_ with rfl | rfl
      · exact unique (Nat.sub_le ..) (.inl rfl) announced.complete
      · exact unique (Nat.le_refl _) (.inl rfl) complete

/-- A sequence that is even and the same at both ends was the same all the time. -/
theorem Ahead.sequence_between {middle : World region} (first : Ahead world middle) (second : Ahead middle later)
    (below : slot < 2) (positive : 1 ≤ generation)
    (before : world.memory (region.address slot 0) = 2 * generation)
    (after : later.memory (region.address slot 0) = 2 * generation) :
    middle.memory (region.address slot 0) = 2 * generation := by
  have low := first.sequence slot below
  have high := second.sequence slot below
  rw [before] at low
  rw [after] at high
  have parity := rank_cases (middle.memory (region.address slot 0))
  rw [rank_even] at low high
  omega

theorem Ahead.announced_le (ahead : Ahead world later) : world.announced ≤ later.announced :=
  Nat.div_le_div_right ahead.publication

theorem Inv.announced (inv : Inv world) :
    world.announced ≤ world.published.length ∧ world.published.length ≤ world.announced + 1 := by
  have of {generation : Nat} (announced : Announced region world.memory world.published generation) :
      world.announced = generation := by
    have slot := slotOf_lt generation
    rw [World.announced, announced.publication, publicationOf]
    split <;> omega
  have stage := inv.stage
  revert stage
  generalize world.pending = pending
  intro stage
  cases stage with
  | settled announced older | called some_ last announced older
  | writing count some_ last announced marked written | sealed some_ announced complete => rw [of announced]; omega

end Seyal.Runtime.Projection
