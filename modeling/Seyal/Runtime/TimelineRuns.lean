import Seyal.Runtime.Timeline

namespace Seyal.Runtime

open Relation Protocol Terminal

/-! What holds of a timeline over whole sequences of calls: the order of its
blocks, what eviction leaves alone, and where the floor of the canvas goes. -/

theorem mem_updateFirst {α : Type} {found : α → Bool} {change : α → α} {items : List α} {item : α}
    (member : item ∈ updateFirst found change items) :
    item ∈ items ∨ ∃ old ∈ items, found old = true ∧ item = change old := by
  induction items with
  | nil => exact absurd member List.not_mem_nil
  | cons first rest ih =>
      rw [updateFirst] at member
      split at member
      next here =>
        cases List.mem_cons.mp member with
        | inl same => exact .inr ⟨first, List.mem_cons_self, here, same⟩
        | inr old => exact .inl (List.mem_cons_of_mem first old)
      next =>
        cases List.mem_cons.mp member with
        | inl same => exact .inl (same ▸ List.mem_cons_self)
        | inr later =>
            cases ih later with
            | inl old => exact .inl (List.mem_cons_of_mem first old)
            | inr changed =>
                obtain ⟨old, present, here, same⟩ := changed
                exact .inr ⟨old, List.mem_cons_of_mem first present, here, same⟩

namespace CommandBlockTimeline

variable {timeline room : CommandBlockTimeline}

inductive Operation where
  | allocateId
  | start (id : UInt64) (command : List Char) (startLine : UInt64)
  | startSession (id : UInt64) (command : List Char) (startLine hostBlock : UInt64)
  | completeSpan (id : UInt64) (startLine : Option UInt64) (endLine : UInt64) (exitStatus : Option (BitVec 32))
  deriving Repr, DecidableEq

def perform (timeline : CommandBlockTimeline) : Operation → CommandBlockTimeline
  | .allocateId => timeline.allocateId.2
  | .start id command startLine => (timeline.start id command startLine).2
  | .startSession id command startLine hostBlock => (timeline.startSession id command startLine hostBlock).2
  | .completeSpan id startLine endLine exitStatus => (timeline.completeSpan id startLine endLine exitStatus).2

def play (timeline : CommandBlockTimeline) (operations : List Operation) : CommandBlockTimeline :=
  operations.foldl perform timeline

def ids (timeline : CommandBlockTimeline) : List UInt64 := timeline.records.map CommandBlockRecord.id

/-- A block is started behind all blocks that are held, as their identities say. -/
def Behind (timeline : CommandBlockTimeline) (id : UInt64) : Prop := ∀ other ∈ timeline.ids, other ≤ id

/-- Making room for a command evicts the block at the floor, while an older one still runs. -/
def LosesFloor (timeline : CommandBlockTimeline) (command : List Char) : Prop :=
  ∃ floor, timeline.canvasFloor = some floor ∧
    floor ∉ (timeline.makeRoomFor (encodeUtf8 command).length).2.ids ∧
      ∃ record ∈ timeline.records, record.lifecycle = .running ∧ record.id < floor

/-- The start is not refused for its command or its identity. -/
def Takes (timeline : CommandBlockTimeline) (id : UInt64) (command : List Char) : Prop :=
  ¬ ((encodeUtf8 command).length = 0 ∨ maxCommandBytes < (encodeUtf8 command).length) ∧ id ∉ timeline.ids

/-- A start that is refused may be any. -/
def Admits (timeline : CommandBlockTimeline) (id : UInt64) (command : List Char) : Prop :=
  timeline.Takes id command →
    ((timeline.makeRoomFor (encodeUtf8 command).length).1 = true → timeline.Behind id) ∧ ¬ timeline.LosesFloor command

def Allowed (timeline : CommandBlockTimeline) : Operation → Prop
  | .start id command _ => timeline.Admits id command
  | .startSession id command _ _ => timeline.Admits id command
  | _ => True

def Permits (timeline : CommandBlockTimeline) : List Operation → Prop
  | [] => True
  | operation :: rest => timeline.Allowed operation ∧ (timeline.perform operation).Permits rest

theorem Reachable.perform (reachable : timeline.Reachable) (operation : Operation) :
    (timeline.perform operation).Reachable := by
  cases operation with
  | allocateId => exact reachable.allocateId
  | start id command startLine => exact reachable.start id command startLine
  | startSession id command startLine hostBlock => exact reachable.startSession id command startLine hostBlock
  | completeSpan id startLine endLine exitStatus => exact reachable.completeSpan id startLine endLine exitStatus

theorem evict_eq (evicted : timeline.evict = some room) :
    ∃ front record back, timeline.records = front ++ record :: back ∧ (∀ other ∈ front, other.lifecycle = .running) ∧
      record.lifecycle ≠ .running ∧ room.records = front ++ back ∧
        room.canvasFloor =
          if timeline.canvasFloor = some record.id then (front ++ back).head?.map CommandBlockRecord.id
          else timeline.canvasFloor := by
  unfold evict at evicted
  split at evicted
  next => cases evicted
  next index found =>
    obtain ⟨inside, completed, before⟩ := List.findIdx?_eq_some_iff_getElem.mp found
    have split : timeline.records = timeline.records.take index ++
        timeline.records[index] :: timeline.records.drop (index + 1) := by
      rw [← List.drop_eq_getElem_cons inside, List.take_append_drop]
    cases evicted
    refine ⟨_, _, _, split, ?_, ?_, List.eraseIdx_eq_take_drop_succ .., ?_⟩
    · intro other member
      obtain ⟨place, bound, rfl⟩ := List.getElem_of_mem member
      rw [List.length_take] at bound
      have early : ¬ isCompleted timeline.records[place] = true := before place (by omega)
      rw [List.getElem_take]
      cases state : timeline.records[place].lifecycle with
      | running => rfl
      | completed status => simp [isCompleted, state] at early
    · intro running
      simp [isCompleted, running] at completed
    · simp only [List.getElem?_eq_getElem inside, Option.map_some, Option.isSome_some, true_and,
        List.eraseIdx_eq_take_drop_succ]

/-- Completed blocks leave one after the other. -/
def Evicted : CommandBlockTimeline → CommandBlockTimeline → Prop :=
  ReflTransGen fun before after => before.evict = some after

theorem evictUntil_evicted (needed fuel : Nat) (timeline : CommandBlockTimeline) :
    Evicted timeline (timeline.evictUntil needed fuel).2 := by
  induction fuel generalizing timeline with
  | zero => exact .refl
  | succ fuel ih =>
      rw [evictUntil]
      split
      · cases evicted : timeline.evict with
        | none => exact .refl
        | some room => exact .head evicted (ih room)
      · exact .refl

theorem makeRoomFor_evicted (commandLen : Nat) (timeline : CommandBlockTimeline) :
    Evicted timeline (timeline.makeRoomFor commandLen).2 := by
  rw [makeRoomFor]
  split
  · exact .refl
  · exact evictUntil_evicted _ _ _

theorem Evicted.sublist (evicted : Evicted timeline room) : room.records.Sublist timeline.records := by
  induction evicted with
  | refl => exact .refl _
  | tail _ last ih =>
      obtain ⟨front, record, back, whole, _, _, left, _⟩ := evict_eq last
      rw [left]
      rw [whole] at ih
      exact .trans (.append_left (List.sublist_cons_self record back) front) ih

variable {record : CommandBlockRecord} {id : UInt64} {command : List Char}

theorem Evicted.running (evicted : Evicted timeline room) (member : record ∈ timeline.records)
    (running : record.lifecycle = .running) : record ∈ room.records := by
  induction evicted with
  | refl => exact member
  | tail _ last ih =>
      obtain ⟨front, gone, back, whole, _, completed, left, _⟩ := evict_eq last
      rw [whole] at ih
      rw [left]
      cases List.mem_append.mp ih with
      | inl before => exact List.mem_append_left back before
      | inr behind =>
          cases List.mem_cons.mp behind with
          | inl same => exact absurd (same ▸ running) completed
          | inr after => exact List.mem_append_right front after

/-- The blocks stand in the order of their identities, a completed block ends
where it starts or later, and the floor is a block that is held. -/
structure Kept (timeline : CommandBlockTimeline) : Prop where
  ordered : timeline.ids.Pairwise (· < ·)
  ended : ∀ record ∈ timeline.records, record.lifecycle ≠ .running →
    ∃ endLine, record.endLine = some endLine ∧ record.startLine ≤ endLine
  floor : ∀ floor, timeline.canvasFloor = some floor → floor ∈ timeline.ids

theorem Kept.evict (kept : timeline.Kept) (evicted : timeline.evict = some room) : room.Kept := by
  obtain ⟨front, record, back, whole, _, _, left, moved⟩ := evict_eq evicted
  have fewer : room.records.Sublist timeline.records := by
    rw [whole, left]
    exact .append_left (List.sublist_cons_self record back) front
  refine ⟨kept.ordered.sublist (fewer.map CommandBlockRecord.id), ?_, ?_⟩
  · intro other member
    exact kept.ended other (fewer.subset member)
  · intro floor named
    rw [moved] at named
    split at named
    next =>
      obtain ⟨head, first, same⟩ := Option.map_eq_some_iff.mp named
      rw [ids, left, ← same]
      exact List.mem_map_of_mem (List.mem_of_mem_head? first)
    next other =>
      have held := kept.floor floor named
      rw [named] at other
      rw [ids, whole, List.map_append, List.map_cons] at held
      rw [ids, left, List.map_append]
      cases List.mem_append.mp held with
      | inl before => exact List.mem_append_left _ before
      | inr behind =>
          cases List.mem_cons.mp behind with
          | inl same => exact absurd (congrArg some same) other
          | inr after => exact List.mem_append_right _ after

theorem Kept.evicted (kept : timeline.Kept) (evicted : Evicted timeline room) : room.Kept := by
  induction evicted with
  | refl => exact kept
  | tail _ last ih => exact ih.evict last

theorem start_cases (id : UInt64) (command : List Char) (startLine : UInt64) (timeline : CommandBlockTimeline) :
    (timeline.start id command startLine).2 = timeline ∨ timeline.Takes id command ∧
      ((timeline.makeRoomFor (encodeUtf8 command).length).1 = false ∧
        (timeline.start id command startLine).2 = (timeline.makeRoomFor (encodeUtf8 command).length).2 ∨
      (timeline.makeRoomFor (encodeUtf8 command).length).1 = true ∧
        (timeline.start id command startLine).2 =
          { (timeline.makeRoomFor (encodeUtf8 command).length).2 with
            records := (timeline.makeRoomFor (encodeUtf8 command).length).2.records ++
              [⟨id, command, startLine, none, .running, .local, .localTrusted, none⟩] }) := by
  rw [start]
  split
  next => exact .inl rfl
  next valid =>
    split
    next => exact .inl rfl
    next fresh =>
      refine .inr ⟨⟨valid, fun held => ?_⟩, ?_⟩
      · obtain ⟨record, member, same⟩ := List.mem_map.mp held
        exact fresh (List.any_eq_true.mpr ⟨record, member, decide_eq_true same⟩)
      · cases made : timeline.makeRoomFor (encodeUtf8 command).length with
        | mk enough room =>
            cases enough with
            | false => exact .inl ⟨rfl, rfl⟩
            | true => exact .inr ⟨rfl, rfl⟩

theorem Kept.start (kept : timeline.Kept) (admits : timeline.Admits id command) (startLine : UInt64) :
    (timeline.start id command startLine).2.Kept := by
  have room := kept.evicted (makeRoomFor_evicted (encodeUtf8 command).length timeline)
  have fewer := (makeRoomFor_evicted (encodeUtf8 command).length timeline).sublist
  rcases start_cases id command startLine timeline with same | ⟨takes, ⟨_, same⟩ | ⟨enough, same⟩⟩
  · rwa [same]
  · rwa [same]
  · rw [same]
    refine ⟨?_, ?_, ?_⟩
    · rw [ids, List.map_append, List.pairwise_append]
      refine ⟨room.ordered, List.pairwise_singleton .., ?_⟩
      intro other member new last
      cases List.mem_singleton.mp last
      have held : other ∈ timeline.ids := (fewer.map CommandBlockRecord.id).subset member
      have different : other ≠ id := fun equal => takes.2 (equal ▸ held)
      exact UInt64.lt_of_le_of_ne ((admits takes).1 enough other held) different
    · intro record member completed
      cases List.mem_append.mp member with
      | inl old => exact room.ended record old completed
      | inr new => cases List.mem_singleton.mp new; exact absurd rfl completed
    · intro floor named
      rw [ids, List.map_append]
      exact List.mem_append_left _ (room.floor floor named)

theorem ids_updateFirst {found : CommandBlockRecord → Bool} {change : CommandBlockRecord → CommandBlockRecord}
    (same : ∀ record, (change record).id = record.id) (records : List CommandBlockRecord) :
    (updateFirst found change records).map CommandBlockRecord.id = records.map CommandBlockRecord.id :=
  map_updateFirst same records

theorem startSession_ids (id : UInt64) (command : List Char) (startLine hostBlock : UInt64) :
    (timeline.startSession id command startLine hostBlock).2.ids = (timeline.start id command startLine).2.ids ∧
      (timeline.startSession id command startLine hostBlock).2.canvasFloor =
        (timeline.start id command startLine).2.canvasFloor := by
  rw [startSession]
  split
  next started => rw [started]; exact ⟨rfl, rfl⟩
  next after started =>
    rw [started]
    refine ⟨ids_updateFirst ?_ after.records, rfl⟩
    intro record
    rfl

theorem mem_startSession {startLine hostBlock : UInt64}
    (member : record ∈ (timeline.startSession id command startLine hostBlock).2.records) :
    ∃ old ∈ (timeline.start id command startLine).2.records,
      record.id = old.id ∧ record.lifecycle = old.lifecycle ∧ record.endLine = old.endLine ∧
        record.startLine = old.startLine := by
  rw [startSession] at member
  split at member
  next started => rw [started]; exact ⟨record, member, rfl, rfl, rfl, rfl⟩
  next after started =>
    rw [started]
    rcases mem_updateFirst member with old | ⟨old, present, _, rfl⟩
    · exact ⟨record, old, rfl, rfl, rfl, rfl⟩
    · exact ⟨old, present, rfl, rfl, rfl, rfl⟩

theorem Kept.startSession (kept : timeline.Kept) (admits : timeline.Admits id command)
    (startLine hostBlock : UInt64) : (timeline.startSession id command startLine hostBlock).2.Kept := by
  have started := kept.start admits startLine
  obtain ⟨sameIds, sameFloor⟩ := @startSession_ids timeline id command startLine hostBlock
  refine ⟨sameIds ▸ started.ordered, ?_, ?_⟩
  · intro record member completed
    obtain ⟨old, present, _, sameState, sameEnd, sameStart⟩ := mem_startSession member
    rw [sameEnd, sameStart]
    exact started.ended old present (sameState ▸ completed)
  · intro floor named
    rw [sameIds]
    exact started.floor floor (sameFloor ▸ named)

@[simp]
theorem id_completed (record : CommandBlockRecord) (startLine : Option UInt64) (endLine : UInt64)
    (exitStatus : Option (BitVec 32)) : ((record.advance startLine).complete endLine exitStatus).id = record.id := by
  cases startLine with
  | none => rfl
  | some line =>
      simp only [CommandBlockRecord.complete, CommandBlockRecord.advance]
      split <;> rfl

theorem completeSpan_cases (id : UInt64) (startLine : Option UInt64) (endLine : UInt64)
    (exitStatus : Option (BitVec 32)) (timeline : CommandBlockTimeline) :
    (timeline.completeSpan id startLine endLine exitStatus).2 = timeline ∨
      id ∈ timeline.ids ∧
      (timeline.completeSpan id startLine endLine exitStatus).2.records =
        updateFirst (fun record => record.id = id) (fun record => (record.advance startLine).complete endLine exitStatus)
          timeline.records ∧
      ((timeline.completeSpan id startLine endLine exitStatus).2.canvasFloor = timeline.canvasFloor ∨
        (timeline.completeSpan id startLine endLine exitStatus).2.canvasFloor = some id ∧
          ∀ floor, timeline.canvasFloor = some floor → floor ≤ id) := by
  rw [completeSpan]
  split
  next => exact .inl rfl
  next record found =>
    split
    next => exact .inl rfl
    next =>
      have held : id ∈ timeline.ids := by
        have same := List.find?_some found
        rw [decide_eq_true_eq] at same
        exact same ▸ List.mem_map_of_mem (List.mem_of_find?_eq_some found)
      refine .inr ⟨held, rfl, ?_⟩
      dsimp only
      split
      next =>
        cases named : timeline.canvasFloor with
        | none => exact .inr ⟨rfl, fun _ here => by cases here⟩
        | some floor =>
            dsimp only
            split
            next => exact .inl rfl
            next older =>
              refine .inr ⟨rfl, ?_⟩
              intro other same
              cases same
              exact UInt64.not_lt.mp older
      next => exact .inl rfl

theorem completeSpan_ids (id : UInt64) (startLine : Option UInt64) (endLine : UInt64) (exitStatus : Option (BitVec 32)) :
    (timeline.completeSpan id startLine endLine exitStatus).2.ids = timeline.ids := by
  rcases completeSpan_cases id startLine endLine exitStatus timeline with same | ⟨_, records, _⟩
  · rw [same]
  · rw [ids, records]
    exact ids_updateFirst (fun record => id_completed record startLine endLine exitStatus) timeline.records

theorem startLine_le_max (endLine startLine : UInt64) : startLine ≤ max endLine startLine := by
  change startLine ≤ if endLine ≤ startLine then startLine else endLine
  split
  next => exact UInt64.le_refl startLine
  next later => exact UInt64.le_of_lt (UInt64.not_le.mp later)

theorem Kept.completeSpan (kept : timeline.Kept) (id : UInt64) (startLine : Option UInt64) (endLine : UInt64)
    (exitStatus : Option (BitVec 32)) : (timeline.completeSpan id startLine endLine exitStatus).2.Kept := by
  rcases completeSpan_cases id startLine endLine exitStatus timeline with same | ⟨held, records, floors⟩
  · rwa [same]
  · have sameIds := timeline.completeSpan_ids id startLine endLine exitStatus
    refine ⟨sameIds ▸ kept.ordered, ?_, ?_⟩
    · intro record member completed
      rw [records] at member
      rcases mem_updateFirst member with old | ⟨old, _, _, rfl⟩
      · exact kept.ended record old completed
      · exact ⟨_, rfl, startLine_le_max ..⟩
    · intro floor named
      rw [sameIds]
      rcases floors with same | ⟨here, _⟩
      · exact kept.floor floor (same ▸ named)
      · rw [here] at named
        exact Option.some.inj named ▸ held

/-- The oldest block is the floor. -/
def AtFront (timeline : CommandBlockTimeline) : Prop := timeline.canvasFloor = timeline.ids.head?

theorem AtFront.evict (atFront : timeline.AtFront) (kept : timeline.Kept) (evicted : timeline.evict = some room) :
    room.AtFront := by
  obtain ⟨front, record, back, whole, _, _, left, moved⟩ := evict_eq evicted
  have ordered := kept.ordered
  rw [AtFront, ids, whole] at atFront
  rw [ids, whole] at ordered
  rw [AtFront, moved, ids, left]
  cases front with
  | nil =>
      have here : timeline.canvasFloor = some record.id := atFront
      rw [if_pos here, List.nil_append, List.head?_map]
  | cons head rest =>
      have older : head.id < record.id := by
        rw [List.map_append, List.pairwise_append] at ordered
        exact ordered.2.2 head.id List.mem_cons_self record.id List.mem_cons_self
      have other : timeline.canvasFloor ≠ some record.id := by
        intro same
        rw [same] at atFront
        exact UInt64.lt_irrefl _ (Option.some.inj atFront ▸ older)
      rw [if_neg other]
      exact atFront

theorem AtFront.evicted (atFront : timeline.AtFront) (kept : timeline.Kept) (evicted : Evicted timeline room) :
    room.AtFront := by
  induction evicted with
  | refl => exact atFront
  | tail before last ih => exact ih.evict (kept.evicted before) last

/-- Eviction moves the floor on, if no running block is older once it leaves; and
there is no floor then only where there is no block. -/
theorem Evicted.floor (evicted : Evicted timeline room) (kept : timeline.Kept) {floor : UInt64}
    (named : timeline.canvasFloor = some floor)
    (newer : floor ∉ room.ids → ∀ record ∈ timeline.records, record.lifecycle = .running → ¬ record.id < floor) :
    (∀ after, room.canvasFloor = some after → floor ≤ after) ∧ (room.canvasFloor = none → room.ids = []) := by
  induction evicted using ReflTransGen.head_induction_on with
  | refl =>
      refine ⟨?_, ?_⟩
      · intro after same
        rw [named] at same
        exact Option.some.inj same ▸ UInt64.le_refl floor
      · intro none
        rw [named] at none
        cases none
  | head first rest ih =>
      rename_i before next
      obtain ⟨front, record, back, whole, running, _, left, moved⟩ := evict_eq first
      have ordered := kept.ordered
      rw [ids, whole, List.map_append, List.pairwise_append, List.map_cons, List.pairwise_cons] at ordered
      by_cases same : record.id = floor
      · -- The floor itself leaves: nothing stands in front of it, and what stands behind is newer.
        rw [named, same, if_pos rfl] at moved
        have behind : ∀ id ∈ next.ids, id ∈ front.map CommandBlockRecord.id ∨ floor < id := by
          intro id member
          rw [ids, left, List.map_append] at member
          exact (List.mem_append.mp member).imp_right fun after => same ▸ ordered.2.1.1 id after
        have gone : floor ∉ room.ids := by
          intro member
          cases behind floor ((Evicted.sublist rest).map CommandBlockRecord.id |>.subset member) with
          | inl earlier => exact UInt64.lt_irrefl _ (same ▸ ordered.2.2 floor earlier record.id List.mem_cons_self)
          | inr later => exact UInt64.lt_irrefl _ later
        have bare : front = [] := by
          cases front with
          | nil => rfl
          | cons head others =>
              have older := ordered.2.2 head.id List.mem_cons_self record.id List.mem_cons_self
              have member : head ∈ before.records := whole ▸ List.mem_cons_self
              exact absurd (same ▸ older) (newer gone head member (running head List.mem_cons_self))
        subst bare
        have atFront : next.AtFront := by
          rw [AtFront, moved, ids, left, List.head?_map]
        have last : room.AtFront := atFront.evicted (kept.evict first) rest
        refine ⟨?_, ?_⟩
        · intro after head
          rw [last] at head
          have member : after ∈ next.ids :=
            (Evicted.sublist rest).map CommandBlockRecord.id |>.subset (List.mem_of_mem_head? head)
          exact UInt64.le_of_lt ((behind after member).resolve_left List.not_mem_nil)
        · intro none
          rw [last] at none
          exact List.head?_eq_none_iff.mp none
      · have other : before.canvasFloor ≠ some record.id := by
          rw [named]
          exact fun equal => same (Option.some.inj equal).symm
        rw [if_neg other] at moved
        refine ih (kept.evict first) (moved.trans named) ?_
        intro gone held member
        refine newer gone held ?_
        rw [whole]
        rw [left] at member
        exact (List.sublist_cons_self record back).append_left front |>.subset member

theorem Evicted.noFloor (evicted : Evicted timeline room) (without : timeline.canvasFloor = none) :
    room.canvasFloor = none := by
  induction evicted with
  | refl => exact without
  | tail _ last ih =>
      obtain ⟨_, _, _, _, _, _, _, moved⟩ := evict_eq last
      rw [moved, ih, if_neg nofun]

theorem evictUntil_refused {needed fuel : Nat} (small : timelineHeaderBytes + needed ≤ maxFramePayload)
    (enough : timeline.records.length < fuel) (refused : (timeline.evictUntil needed fuel).1 = false) :
    (timeline.evictUntil needed fuel).2.ids ≠ [] := by
  induction fuel generalizing timeline with
  | zero => exact absurd enough (Nat.not_lt_zero _)
  | succ fuel ih =>
      rw [evictUntil] at refused ⊢
      split at refused
      next full =>
        rw [if_pos full]
        cases evicted : timeline.evict with
        | none =>
            intro empty
            have bare : timeline.records = [] := List.map_eq_nil_iff.mp empty
            rw [encodedLen, bare] at full
            simp only [List.length_nil, maxBlocksPerExecution, List.map_nil, List.sum_nil] at full
            omega
        | some next =>
            rw [evicted] at refused
            obtain ⟨front, record, back, whole, _, _, left, _⟩ := evict_eq evicted
            refine ih ?_ refused
            rw [whole, List.length_append, List.length_cons] at enough
            rw [left, List.length_append]
            omega
      next => cases refused

theorem makeRoomFor_refused {commandLen : Nat} (refused : (timeline.makeRoomFor commandLen).1 = false) :
    (timeline.makeRoomFor commandLen).2 = timeline ∨ (timeline.makeRoomFor commandLen).2.ids ≠ [] := by
  rw [makeRoomFor] at refused ⊢
  split
  next => exact .inl rfl
  next large =>
    rw [if_neg large] at refused
    exact .inr (evictUntil_refused (Nat.not_lt.mp large) (Nat.lt_succ_self _) refused)

/-- The floor was here once, and is here or at a newer block; without a floor
every block is newer. -/
structure Past (floor : UInt64) (timeline : CommandBlockTimeline) : Prop where
  moved : ∀ after, timeline.canvasFloor = some after → floor ≤ after
  cleared : timeline.canvasFloor = none → timeline.ids ≠ [] ∧ ∀ id ∈ timeline.ids, floor < id

theorem Past.same {floor : UInt64} (past : Past floor timeline) (sameIds : room.ids = timeline.ids)
    (sameFloor : room.canvasFloor = timeline.canvasFloor) : Past floor room where
  moved := fun after named => past.moved after (sameFloor ▸ named)
  cleared := fun none => sameIds ▸ past.cleared (sameFloor ▸ none)

theorem Past.roomMade {floor : UInt64} (past : Past floor timeline) (kept : timeline.Kept)
    (floored : ¬ timeline.LosesFloor command) :
    (∀ after, (timeline.makeRoomFor (encodeUtf8 command).length).2.canvasFloor = some after → floor ≤ after) ∧
      ((timeline.makeRoomFor (encodeUtf8 command).length).2.canvasFloor = none →
        ∀ id ∈ (timeline.makeRoomFor (encodeUtf8 command).length).2.ids, floor < id) := by
  have evicted := makeRoomFor_evicted (encodeUtf8 command).length timeline
  cases named : timeline.canvasFloor with
  | none =>
      refine ⟨?_, ?_⟩
      · intro after same
        rw [evicted.noFloor named] at same
        cases same
      · intro _ id member
        exact (past.cleared named).2 id ((evicted.sublist.map CommandBlockRecord.id).subset member)
  | some current =>
      obtain ⟨moved, cleared⟩ := evicted.floor kept named fun gone record member running older =>
        floored ⟨current, named, gone, record, member, running, older⟩
      refine ⟨?_, ?_⟩
      · intro after same
        exact UInt64.le_trans (past.moved current named) (moved after same)
      · intro none id member
        rw [cleared none] at member
        exact absurd member List.not_mem_nil

theorem Past.start {floor : UInt64} (past : Past floor timeline) (kept : timeline.Kept)
    (admits : timeline.Admits id command) (startLine : UInt64) :
    Past floor (timeline.start id command startLine).2 := by
  rcases start_cases id command startLine timeline with same | ⟨takes, made⟩
  · rwa [same]
  obtain ⟨ordered, floored⟩ := admits takes
  obtain ⟨moved, cleared⟩ := past.roomMade kept floored
  rcases made with ⟨refused, same⟩ | ⟨enough, same⟩
  · rw [same]
    cases makeRoomFor_refused refused with
    | inl unchanged => rwa [unchanged]
    | inr held => exact ⟨moved, fun none => ⟨held, cleared none⟩⟩
  · have behind := ordered enough
    have newer : floor < id := by
      cases named : timeline.canvasFloor with
      | none =>
          obtain ⟨held, all⟩ := past.cleared named
          obtain ⟨other, member⟩ := List.exists_mem_of_ne_nil _ held
          exact UInt64.lt_of_lt_of_le (all other member) (behind other member)
      | some current =>
          have member := kept.floor current named
          have different : current ≠ id := fun equal => takes.2 (equal ▸ member)
          exact UInt64.lt_of_le_of_lt (past.moved current named)
            (UInt64.lt_of_le_of_ne (behind current member) different)
    rw [same]
    refine ⟨moved, ?_⟩
    intro none
    rw [ids, List.map_append]
    refine ⟨List.append_ne_nil_of_right_ne_nil _ (List.cons_ne_nil _ _), ?_⟩
    intro other member
    cases List.mem_append.mp member with
    | inl old => exact cleared none other old
    | inr new => cases List.mem_singleton.mp new; exact newer

theorem Kept.perform (kept : timeline.Kept) {operation : Operation} (allowed : timeline.Allowed operation) :
    (timeline.perform operation).Kept := by
  cases operation with
  | allocateId =>
      rw [CommandBlockTimeline.perform, allocateId]
      split
      · exact ⟨kept.ordered, kept.ended, kept.floor⟩
      · exact kept
  | start id command startLine => exact kept.start allowed startLine
  | startSession id command startLine hostBlock => exact kept.startSession allowed startLine hostBlock
  | completeSpan id startLine endLine exitStatus => exact kept.completeSpan id startLine endLine exitStatus

theorem Past.perform {floor : UInt64} (past : Past floor timeline) (kept : timeline.Kept) {operation : Operation}
    (allowed : timeline.Allowed operation) : Past floor (timeline.perform operation) := by
  cases operation with
  | allocateId =>
      rw [CommandBlockTimeline.perform, allocateId]
      split
      · exact past.same rfl rfl
      · exact past
  | start id command startLine => exact past.start kept allowed startLine
  | startSession id command startLine hostBlock =>
      obtain ⟨sameIds, sameFloor⟩ := @startSession_ids timeline id command startLine hostBlock
      exact (past.start kept allowed startLine).same sameIds sameFloor
  | completeSpan id startLine endLine exitStatus =>
      rw [CommandBlockTimeline.perform]
      rcases completeSpan_cases id startLine endLine exitStatus timeline with same | ⟨held, records, floors⟩
      · rwa [same]
      · rcases floors with sameFloor | ⟨here, newer⟩
        · exact past.same (completeSpan_ids ..) sameFloor
        · refine ⟨?_, ?_⟩
          · intro after same
            rw [here] at same
            rw [← Option.some.inj same]
            cases named : timeline.canvasFloor with
            | none => exact UInt64.le_of_lt ((past.cleared named).2 id held)
            | some current => exact UInt64.le_trans (past.moved current named) (newer current named)
          · intro none
            rw [here] at none
            cases none

theorem Kept.play {operations : List Operation} (kept : timeline.Kept) (permitted : timeline.Permits operations) :
    (timeline.play operations).Kept := by
  induction operations generalizing timeline with
  | nil => exact kept
  | cons operation rest ih => exact ih (kept.perform permitted.1) permitted.2

theorem Past.play {floor : UInt64} {operations : List Operation} (past : Past floor timeline) (kept : timeline.Kept)
    (permitted : timeline.Permits operations) : Past floor (timeline.play operations) := by
  induction operations generalizing timeline with
  | nil => exact past
  | cons operation rest ih => exact ih (past.perform kept permitted.1) (kept.perform permitted.1) permitted.2

theorem Reachable.play {operations : List Operation} (reachable : timeline.Reachable) :
    (timeline.play operations).Reachable := by
  induction operations generalizing timeline with
  | nil => exact reachable
  | cons operation rest ih => exact ih (reachable.perform operation)

theorem perform_running (timeline : CommandBlockTimeline) (operation : Operation) (member : record ∈ timeline.records)
    (running : record.lifecycle = .running) :
    record.id ∈ (timeline.perform operation).ids := by
  have started (id : UInt64) (command : List Char) (startLine : UInt64) :
      record.id ∈ (timeline.start id command startLine).2.ids := by
    have room := (makeRoomFor_evicted (encodeUtf8 command).length timeline).running member running
    rcases start_cases id command startLine timeline with same | ⟨_, ⟨_, same⟩ | ⟨_, same⟩⟩
    · rw [same]
      exact List.mem_map_of_mem member
    · rw [same]
      exact List.mem_map_of_mem room
    · rw [same]
      exact List.mem_map_of_mem (List.mem_append_left _ room)
  cases operation with
  | allocateId =>
      rw [perform, allocateId]
      split <;> exact List.mem_map_of_mem member
  | start id command startLine => exact started id command startLine
  | startSession id command startLine hostBlock =>
      rw [perform, (startSession_ids id command startLine hostBlock).1]
      exact started id command startLine
  | completeSpan id startLine endLine exitStatus =>
      rw [perform, completeSpan_ids]
      exact List.mem_map_of_mem member

/-- All of it together, as long as blocks are started in the order of their
identities and no block at the floor makes room while an older one runs. -/
theorem play_invariants {operations : List Operation} (permitted : empty.Permits operations) :
    (empty.play operations).Kept ∧ (empty.play operations).records.length ≤ maxBlocksPerExecution ∧
      (empty.play operations).encodedLen ≤ maxFramePayload ∧
      (∀ operation, ∀ record ∈ (empty.play operations).records, record.lifecycle = .running →
        record.id ∈ ((empty.play operations).perform operation).ids) ∧
      ∀ more, (empty.play operations).Permits more → ∀ before after, (empty.play operations).canvasFloor = some before →
        ((empty.play operations).play more).canvasFloor = some after → before ≤ after := by
  have fresh : empty.Kept := ⟨.nil, nofun, nofun⟩
  have kept := fresh.play permitted
  have bounded := (@Reachable.play _ operations Reachable.empty).bounded
  refine ⟨kept, ?_, ?_, ?_, ?_⟩
  · have few := bounded.few
    rwa [commands, List.length_map] at few
  · rw [encodedLen_eq]
    exact bounded.encoded
  · intro operation record member running
    exact perform_running _ operation member running
  · intro more further before after named last
    have here : Past before (empty.play operations) := by
      refine ⟨?_, ?_⟩
      · intro other same
        rw [named] at same
        exact Option.some.inj same ▸ UInt64.le_refl before
      · intro none
        rw [named] at none
        cases none
    exact (here.play kept further).moved after last

/-- A command is run and cleared, and another one begins. -/
theorem play_invariants_cleared :
    let timeline := empty.play [.start 1 ['x'] 1, .completeSpan 1 (some 3) 4 (some 0), .start 2 ['y'] 5]
    timeline.ids = [1, 2] ∧ timeline.canvasFloor = some 1 ∧ timeline.Kept := by
  have first : empty.Allowed (.start 1 ['x'] 1) := fun _ => ⟨nofun, fun ⟨_, named, _⟩ => nomatch named⟩
  have second : (empty.play [.start 1 ['x'] 1, .completeSpan 1 (some 3) 4 (some 0)]).Allowed (.start 2 ['y'] 5) := by
    have only : (empty.play [.start 1 ['x'] 1, .completeSpan 1 (some 3) 4 (some 0)]).ids = [1] := by decide +kernel
    refine fun _ => ⟨?_, ?_⟩
    · intro _ other member
      rw [only] at member
      cases List.mem_singleton.mp member
      decide
    · rintro ⟨_, _, _, record, member, running, _⟩
      cases List.mem_singleton.mp member
      cases running
  have permitted :
      empty.Permits [.start 1 ['x'] 1, .completeSpan 1 (some 3) 4 (some 0), .start 2 ['y'] 5] :=
    ⟨first, trivial, second, trivial⟩
  exact ⟨by decide +kernel, by decide +kernel, (play_invariants permitted).1⟩

/-- One block runs on, the next is cleared and becomes the floor, and as many more begin as may be held. -/
def crowd : List Operation :=
  [.start 1 ['x'] 1, .start 2 ['x'] 2, .completeSpan 2 (some 3) 3 (some 0)] ++
    (List.range 126).map fun number => .start (UInt64.ofNat (number + 3)) ['x'] 4

/-- Identities are allocated in order, but not started in order. And with one
more block the floor goes back to the block that was running before the screen
was cleared. -/
theorem floor_goes_back :
    (empty.play [.allocateId, .allocateId, .start 2 ['x'] 1, .start 1 ['x'] 2]).ids = [2, 1] ∧
      (empty.play crowd).canvasFloor = some 2 ∧
      ((empty.play crowd).perform (.start 129 ['x'] 5)).canvasFloor = some 1 := by
  decide +kernel

end CommandBlockTimeline

end Seyal.Runtime
