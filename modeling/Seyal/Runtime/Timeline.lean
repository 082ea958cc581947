import Seyal.Protocol.CommandBlocks
import Seyal.Runtime.Display.Encode

namespace Seyal.Runtime

open Program Protocol Terminal BlockTimeline PresentationEnvelope

/-! The composer's command blocks of one execution, and the frames that carry them to clients. -/

def maxCommandBytes : Nat := 16 * 1024

def maxBlocksPerExecution : Nat := 128

def timelineHeaderBytes : Nat := 16

def recordHeaderBytes : Nat := 36

def scopeTrustBytes : Nat := 4

inductive CommandBlockLifecycle where
  | running
  | completed (exitStatus : Option (BitVec 32))
  deriving Repr, DecidableEq

structure CommandBlockRecord where
  id : UInt64
  command : List Char
  startLine : UInt64
  endLine : Option UInt64
  lifecycle : CommandBlockLifecycle
  scope : BlockScope
  trust : BlockTrust
  hostBlock : Option UInt64
  deriving Repr, DecidableEq

open CommandBlockRecord

structure CommandBlockTimeline where
  nextId : UInt64
  records : List CommandBlockRecord
  canvasFloor : Option UInt64
  deriving Repr, DecidableEq

open CommandBlockTimeline

inductive CommandBlockTimelineError where
  | invalidCommand
  | capacity
  | exhausted
  | unknownBlock
  | invalidCompletion
  deriving Repr, DecidableEq

/-- What `iter_mut().find` lets its caller write to. -/
def updateFirst {α : Type} (found : α → Bool) (change : α → α) : List α → List α
  | [] => []
  | item :: rest => if found item then change item :: rest else item :: updateFirst found change rest

theorem updateFirst_append {α : Type} {found : α → Bool} {change : α → α} {front back : List α} {item : α}
    (absent : ∀ other ∈ front, found other = false) (here : found item = true) :
    updateFirst found change (front ++ item :: back) = front ++ change item :: back := by
  induction front with
  | nil => rw [List.nil_append, updateFirst, if_pos here, List.nil_append]
  | cons first front ih =>
      have skipped : ¬ found first = true := by simp [absent first List.mem_cons_self]
      rw [List.cons_append, updateFirst, if_neg skipped,
        ih (List.forall_mem_cons.mp absent).2, List.cons_append]

/-- The block with its start moved forward, when the completion names a later one. -/
def CommandBlockRecord.advance (startLine : Option UInt64) (record : CommandBlockRecord) : CommandBlockRecord :=
  match startLine with
  | some line => if record.startLine < line then { record with startLine := line } else record
  | none => record

def CommandBlockRecord.complete (endLine : UInt64) (exitStatus : Option (BitVec 32)) (record : CommandBlockRecord) :
    CommandBlockRecord :=
  { record with endLine := some (max endLine record.startLine), lifecycle := .completed exitStatus }

namespace CommandBlockTimeline

def empty : CommandBlockTimeline := ⟨0, [], none⟩

def allocateId (timeline : CommandBlockTimeline) :
    Except CommandBlockTimelineError UInt64 × CommandBlockTimeline :=
  if timeline.nextId.toNat + 1 < 2 ^ 64 then
    (.ok (timeline.nextId + 1), { timeline with nextId := timeline.nextId + 1 })
  else (.error .exhausted, timeline)

def encodedLen (timeline : CommandBlockTimeline) : Nat :=
  timelineHeaderBytes +
    (timeline.records.map fun record =>
      recordHeaderBytes + scopeTrustBytes + (encodeUtf8 record.command).length).sum

def isCompleted (record : CommandBlockRecord) : Bool :=
  match record.lifecycle with
  | .completed _ => true
  | .running => false

/-- One turn of the eviction loop: the oldest completed record leaves. -/
def evict (timeline : CommandBlockTimeline) : Option CommandBlockTimeline :=
  match timeline.records.findIdx? isCompleted with
  | none => none
  | some index =>
      let records := timeline.records.eraseIdx index
      let removed := timeline.records[index]?.map CommandBlockRecord.id
      some { timeline with
        records
        canvasFloor :=
          if removed.isSome ∧ timeline.canvasFloor = removed then records.head?.map CommandBlockRecord.id
          else timeline.canvasFloor }

/-- The eviction loop; every turn drops a record, so their number bounds the
turns. The flag says that there is room; what was evicted stays so either way. -/
def evictUntil (needed : Nat) : Nat → CommandBlockTimeline → Bool × CommandBlockTimeline
  | 0, timeline => (false, timeline)
  | fuel + 1, timeline =>
      if timeline.records.length = maxBlocksPerExecution ∨ maxFramePayload < timeline.encodedLen + needed then
        match timeline.evict with
        | some room => evictUntil needed fuel room
        | none => (false, timeline)
      else (true, timeline)

def makeRoomFor (commandLen : Nat) (timeline : CommandBlockTimeline) : Bool × CommandBlockTimeline :=
  let needed := recordHeaderBytes + scopeTrustBytes + commandLen
  if maxFramePayload < timelineHeaderBytes + needed then (false, timeline)
  else evictUntil needed (timeline.records.length + 1) timeline

def start (id : UInt64) (command : List Char) (startLine : UInt64) (timeline : CommandBlockTimeline) :
    Except CommandBlockTimelineError Unit × CommandBlockTimeline :=
  let commandLen := (encodeUtf8 command).length
  if commandLen = 0 ∨ maxCommandBytes < commandLen then (.error .invalidCommand, timeline)
  else if timeline.records.any (fun record => record.id = id) then (.error .invalidCommand, timeline)
  else
    match timeline.makeRoomFor commandLen with
    | (false, room) => (.error .capacity, room)
    | (true, room) =>
        (.ok (), { room with
          records := room.records ++ [⟨id, command, startLine, none, .running, .local, .localTrusted, none⟩] })

def startSession (id : UInt64) (command : List Char) (startLine hostBlock : UInt64)
    (timeline : CommandBlockTimeline) : Except CommandBlockTimelineError Unit × CommandBlockTimeline :=
  match timeline.start id command startLine with
  | (.error error, after) => (.error error, after)
  | (.ok (), after) =>
      (.ok (), { after with
        records := updateFirst (fun record => record.id = id)
          (fun record => { record with scope := .session, trust := .sessionTrusted, hostBlock := some hostBlock })
          after.records })

def completeSpan (id : UInt64) (startLine : Option UInt64) (endLine : UInt64) (exitStatus : Option (BitVec 32))
    (timeline : CommandBlockTimeline) : Except CommandBlockTimelineError Unit × CommandBlockTimeline :=
  match timeline.records.find? (fun record => record.id = id) with
  | none => (.error .unknownBlock, timeline)
  | some record =>
      if record.lifecycle ≠ .running then (.error .invalidCompletion, timeline)
      else
        let moved := (record.advance startLine).startLine ≠ record.startLine
        let canvasFloor :=
          if moved ∧ record.scope = .local then
            match timeline.canvasFloor with
            | some floor => if id < floor then some floor else some id
            | none => some id
          else timeline.canvasFloor
        (.ok (), { timeline with
          records := updateFirst (fun record => record.id = id)
            (fun record => (record.advance startLine).complete endLine exitStatus)
            timeline.records
          canvasFloor })

/-- The timelines that the calls above lead to, whether they succeed or not. -/
inductive Reachable : CommandBlockTimeline → Prop where
  | empty : Reachable empty
  | allocateId {timeline : CommandBlockTimeline} (before : Reachable timeline) : Reachable timeline.allocateId.2
  | start {timeline : CommandBlockTimeline} (before : Reachable timeline) (id : UInt64) (command : List Char)
      (startLine : UInt64) : Reachable (timeline.start id command startLine).2
  | startSession {timeline : CommandBlockTimeline} (before : Reachable timeline) (id : UInt64) (command : List Char)
      (startLine hostBlock : UInt64) : Reachable (timeline.startSession id command startLine hostBlock).2
  | completeSpan {timeline : CommandBlockTimeline} (before : Reachable timeline) (id : UInt64)
      (startLine : Option UInt64) (endLine : UInt64) (exitStatus : Option (BitVec 32)) :
      Reachable (timeline.completeSpan id startLine endLine exitStatus).2

end CommandBlockTimeline

def CommandBlockLifecycle.state : CommandBlockLifecycle → CommandBlockState
  | .running => .running
  | .completed exitStatus => .completed exitStatus

def CommandBlockTimeline.commandBlock (timeline : CommandBlockTimeline) (record : CommandBlockRecord) : CommandBlock where
  id := record.id
  command := record.command
  startLine := record.startLine
  endLine := record.endLine
  state := record.lifecycle.state
  flags := if timeline.canvasFloor = some record.id then commandBlockFlagCanvasFloor else 0
  scope := record.scope
  trust := record.trust

def legacyRecords (records : List CommandBlock) : List CommandBlock :=
  records.filter fun record => record.scope = .local ∧ record.trust = .localTrusted

/-- The frames for the connections without and with the session schema. -/
def publishBlockTimeline (timeline : CommandBlockTimeline) (revision : UInt64) :
    Except FramingError (Frame × Frame) := do
  let records := timeline.records.map timeline.commandBlock
  let legacy ← tryEncode ⟨revision, legacyRecords records⟩
  let session ← tryEncodeSession ⟨revision, records⟩
  return (encodeFrame .blockTimeline legacy, encodeFrame .blockTimeline session)

/-! The commands of a reachable timeline fit into a frame of the session schema. -/

def commandBytes (command : List Char) : Nat := recordHeaderBytes + scopeTrustBytes + (encodeUtf8 command).length

structure Bounded (commands : List (List Char)) : Prop where
  few : commands.length ≤ maxBlocksPerExecution
  sized : ∀ command ∈ commands, (encodeUtf8 command).length ≠ 0 ∧ (encodeUtf8 command).length ≤ maxCommandBytes
  encoded : timelineHeaderBytes + (commands.map commandBytes).sum ≤ maxFramePayload

theorem Bounded.sublist {commands fewer : List (List Char)} (bounded : Bounded commands)
    (sub : fewer.Sublist commands) : Bounded fewer where
  few := Nat.le_trans sub.length_le bounded.few
  sized := fun command member => bounded.sized command (sub.subset member)
  encoded := by
    have less := (sub.map commandBytes).sum_le_sum fun _ _ => Nat.zero_le _
    have whole := bounded.encoded
    omega

theorem map_updateFirst {α β : Type} {found : α → Bool} {change : α → α} {view : α → β}
    (same : ∀ item, view (change item) = view item) (items : List α) :
    (updateFirst found change items).map view = items.map view := by
  induction items with
  | nil => rfl
  | cons item rest ih =>
      rw [updateFirst]
      split
      · rw [List.map_cons, same, List.map_cons]
      · rw [List.map_cons, ih, List.map_cons]

namespace CommandBlockTimeline

variable {timeline room : CommandBlockTimeline}

def commands (timeline : CommandBlockTimeline) : List (List Char) := timeline.records.map command

theorem encodedLen_eq (timeline : CommandBlockTimeline) :
    timeline.encodedLen = timelineHeaderBytes + (timeline.commands.map commandBytes).sum := by
  rw [encodedLen, commands, List.map_map]
  rfl

theorem evict_sublist (evicted : timeline.evict = some room) : room.commands.Sublist timeline.commands := by
  unfold evict at evicted
  split at evicted
  next => cases evicted
  next index found =>
    cases evicted
    exact (List.eraseIdx_sublist ..).map command

theorem evictUntil_sublist (needed fuel : Nat) (timeline : CommandBlockTimeline) :
    (timeline.evictUntil needed fuel).2.commands.Sublist timeline.commands := by
  induction fuel generalizing timeline with
  | zero => exact .refl _
  | succ fuel ih =>
      rw [evictUntil]
      split
      · cases evicted : timeline.evict with
        | none => exact .refl _
        | some room => exact (ih room).trans (evict_sublist evicted)
      · exact .refl _

theorem evictUntil_room {needed fuel : Nat} (done : timeline.evictUntil needed fuel = (true, room)) :
    room.records.length ≠ maxBlocksPerExecution ∧ room.encodedLen + needed ≤ maxFramePayload := by
  induction fuel generalizing timeline with
  | zero => cases done
  | succ fuel ih =>
      rw [evictUntil] at done
      split at done
      next =>
        cases evicted : timeline.evict with
        | none => simp only [evicted, Prod.mk.injEq, Bool.false_eq_true, false_and] at done
        | some next =>
            rw [evicted] at done
            exact ih done
      next full =>
        cases done
        omega

theorem makeRoomFor_sublist (commandLen : Nat) (timeline : CommandBlockTimeline) :
    (timeline.makeRoomFor commandLen).2.commands.Sublist timeline.commands := by
  rw [makeRoomFor]
  split
  · exact .refl _
  · exact evictUntil_sublist _ _ _

theorem makeRoomFor_room {commandLen : Nat} (done : timeline.makeRoomFor commandLen = (true, room)) :
    room.records.length ≠ maxBlocksPerExecution ∧
      room.encodedLen + (recordHeaderBytes + scopeTrustBytes + commandLen) ≤ maxFramePayload := by
  rw [makeRoomFor] at done
  split at done
  · cases done
  · exact evictUntil_room done

theorem start_bounded (bounded : Bounded timeline.commands) (id : UInt64) (command : List Char) (startLine : UInt64) :
    Bounded (timeline.start id command startLine).2.commands := by
  have sub := makeRoomFor_sublist (encodeUtf8 command).length timeline
  rw [start]
  split
  next => exact bounded
  next valid =>
    split
    next => exact bounded
    next =>
      cases made : timeline.makeRoomFor (encodeUtf8 command).length with
      | mk enough room =>
          rw [made] at sub
          have less := bounded.sublist sub
          cases enough with
          | false => exact less
          | true =>
              obtain ⟨notFull, fits⟩ := makeRoomFor_room made
              have count : room.commands.length = room.records.length := List.length_map ..
              rw [encodedLen_eq] at fits
              have appended : commands { room with
                  records := room.records ++ [⟨id, command, startLine, none, .running, .local, .localTrusted, none⟩] } =
                    room.commands ++ [command] := List.map_append
              dsimp only
              rw [appended]
              refine ⟨?_, ?_, ?_⟩
              · have few : room.commands.length ≤ maxBlocksPerExecution := less.few
                rw [List.length_append, List.length_singleton]
                omega
              · intro other member
                cases List.mem_append.mp member with
                | inl old => exact less.sized other old
                | inr new =>
                    cases List.mem_singleton.mp new
                    omega
              · rw [List.map_append, List.sum_append, List.map_singleton, List.sum_singleton, commandBytes]
                omega

theorem startSession_commands (id : UInt64) (command : List Char) (startLine hostBlock : UInt64) :
    (timeline.startSession id command startLine hostBlock).2.commands =
      (timeline.start id command startLine).2.commands := by
  rw [startSession]
  split
  next started => rw [started]
  next after started =>
    rw [started]
    refine @map_updateFirst _ _ _ _ CommandBlockRecord.command ?_ _
    intro record
    rfl

theorem completeSpan_commands (id : UInt64) (startLine : Option UInt64) (endLine : UInt64)
    (exitStatus : Option (BitVec 32)) :
    (timeline.completeSpan id startLine endLine exitStatus).2.commands = timeline.commands := by
  have same : ∀ record : CommandBlockRecord,
      ((record.advance startLine).complete endLine exitStatus).command = record.command := by
    intro record
    cases startLine with
    | none => rfl
    | some line =>
        simp only [complete, advance]
        split <;> rfl
  rw [completeSpan]
  split
  · rfl
  · split
    · rfl
    · exact map_updateFirst same _

theorem Reachable.bounded (reachable : Reachable timeline) : Bounded timeline.commands := by
  induction reachable with
  | empty => exact ⟨by decide, nofun, by decide⟩
  | allocateId _ ih =>
      unfold CommandBlockTimeline.allocateId
      split <;> exact ih
  | start _ id command startLine ih => exact start_bounded ih id command startLine
  | startSession _ id command startLine hostBlock ih =>
      rw [startSession_commands]
      exact start_bounded ih id command startLine
  | completeSpan _ id startLine endLine exitStatus ih => rwa [completeSpan_commands]

theorem length_layout (schema : TimelineSchema) (revision : UInt64) (records : List CommandBlock) :
    (layout schema ⟨revision, records⟩).length = timelineHeaderBytes +
      (records.map fun record => schema.recordHeaderLen + (encodeUtf8 record.command).length).sum := by
  have header : (header schema ⟨revision, records⟩).length = timelineHeaderBytes := by
    simp [header, timelineHeaderBytes]
  rw [layout, List.length_append, header, List.length_flatMap]
  simp only [CommandBlock.length_layout]

theorem flags_commandBlock (timeline : CommandBlockTimeline) (record : CommandBlockRecord) :
    ¬ CommandBlock.badFlags (timeline.commandBlock record).flags := by
  simp only [commandBlock]
  split <;> decide

theorem sum_commandBytes (records : List CommandBlock) :
    ((records.map CommandBlock.command).map commandBytes).sum = (records.map fun record =>
      TimelineSchema.legacy.recordHeaderLen + (encodeUtf8 record.command).length).sum +
        records.length * scopeTrustBytes := by
  induction records with
  | nil => rfl
  | cons record rest ih =>
      simp only [List.map_cons, List.sum_cons, List.length_cons, ih, commandBytes, Nat.succ_mul,
        TimelineSchema.recordHeaderLen, recordHeaderBytes]
      omega

/-- Six records without scope and trust leave room for the envelope; fewer are small. -/
theorem legacy_size {records : List CommandBlock} (bounded : Bounded (records.map CommandBlock.command)) :
    timelineHeaderBytes + (records.map fun record =>
      TimelineSchema.legacy.recordHeaderLen + (encodeUtf8 record.command).length).sum ≤ maxChunkPayload := by
  have encoded := bounded.encoded
  rw [sum_commandBytes] at encoded
  have each : ∀ size ∈ records.map fun record =>
      TimelineSchema.legacy.recordHeaderLen + (encodeUtf8 record.command).length,
      size ≤ recordHeaderBytes + maxCommandBytes := by
    intro size member
    obtain ⟨record, present, rfl⟩ := List.mem_map.mp member
    exact Nat.add_le_add_left (bounded.sized _ (List.mem_map_of_mem present)).2 recordHeaderBytes
  have most := List.sum_le_card_nsmul _ _ each
  rw [List.length_map, nsmul_eq_mul, Nat.cast_id] at most
  simp only [timelineHeaderBytes, recordHeaderBytes, scopeTrustBytes, maxCommandBytes, maxChunkPayload, maxFramePayload,
    prefixLen] at *
  omega

theorem commandBlocks_writable (bounded : Bounded timeline.commands) :
    ∀ record ∈ timeline.records.map timeline.commandBlock, record.Writable .session := by
  intro record member
  obtain ⟨source, present, rfl⟩ := List.mem_map.mp member
  have sized := bounded.sized source.command (List.mem_map_of_mem present)
  exact ⟨⟨sized.1, sized.2, nofun⟩, flags_commandBlock timeline source⟩

theorem legacyRecords_writable {records : List CommandBlock} (each : ∀ record ∈ records, record.Writable .session) :
    ∀ record ∈ legacyRecords records, record.Writable .legacy := by
  intro record member
  obtain ⟨present, trusted⟩ := List.mem_filter.mp member
  obtain ⟨⟨some, small, _⟩, flags⟩ := each record present
  exact ⟨⟨some, small, fun _ => of_decide_eq_true trusted⟩, flags⟩

/-- Admission enforces the wire budget, so both payloads are made. -/
theorem publishBlockTimeline_ok (bounded : Bounded timeline.commands) (revision : UInt64) :
    ∃ legacy session, publishBlockTimeline timeline revision =
        .ok (encodeFrame .blockTimeline legacy, encodeFrame .blockTimeline session) ∧
      legacy.length ≤ maxChunkPayload ∧ session.length = timeline.encodedLen := by
  have known : (timeline.records.map timeline.commandBlock).map CommandBlock.command = timeline.commands :=
    List.map_map ..
  have writable := commandBlocks_writable bounded
  have few : (timeline.records.map timeline.commandBlock).length ≤ maxCommandBlockRecords := by
    have count := bounded.few
    rwa [← known, List.length_map] at count
  generalize all : timeline.records.map timeline.commandBlock = records at known writable few
  have sub : (legacyRecords records).Sublist records := List.filter_sublist
  have room := legacy_size (bounded.sublist (known ▸ sub.map CommandBlock.command))
  rw [← length_layout .legacy revision] at room
  have whole : (layout .session ⟨revision, records⟩).length = timeline.encodedLen := by
    rw [length_layout, encodedLen_eq, ← known, List.map_map]
    rfl
  have fits : timeline.encodedLen ≤ maxFramePayload := timeline.encodedLen_eq ▸ bounded.encoded
  have legacy := tryEncodeAs_eq_ok.mpr ⟨⟨Nat.le_trans sub.length_le few, legacyRecords_writable writable,
    Nat.le_trans room (Nat.sub_le _ _)⟩, rfl⟩
  have session := tryEncodeAs_eq_ok.mpr ⟨⟨few, writable, Nat.le_trans (Nat.le_of_eq whole) fits⟩, rfl⟩
  refine ⟨_, _, ?_, room, whole⟩
  rw [publishBlockTimeline, all, tryEncode, legacy, ok_bind, tryEncodeSession, session, ok_bind]
  rfl

end CommandBlockTimeline

/-! Every frame of these goes to a client in an envelope, if the client controls the delivery. -/

inductive Presentation where
  | snapshot (source : TerminalProjectionSnapshot)
  | delta (update : TerminalProjectionUpdate) (baseGeneration : Nat)
  | snapshotV2 (source : TerminalProjectionSnapshot)
  | deltaV2 (update : TerminalProjectionUpdate) (baseGeneration : Nat)
  | timeline (blocks : CommandBlockTimeline) (revision : UInt64) (sessionSchema : Bool)

open Presentation

namespace Presentation

/-- The frames, where the encoders make them. -/
def frames : Presentation → Option (List Frame)
  | .snapshot source => (encodeSnapshot source).toOption
  | .delta update baseGeneration => (encodeDelta update baseGeneration).toOption
  | .snapshotV2 source => (encodeSnapshotV2 source).toOption
  | .deltaV2 update baseGeneration => (encodeDeltaV2 update baseGeneration).toOption
  | .timeline blocks revision sessionSchema =>
      (publishBlockTimeline blocks revision).toOption.map fun published =>
        [if sessionSchema then published.2 else published.1]

def Reachable : Presentation → Prop
  | .timeline blocks _ _ => blocks.Reachable
  | _ => True

/-- The records of a session timeline, forty bytes and the command each, hold 262104 bytes at most. Admission lets them
grow to 262128. -/
def LeavesRoom : Presentation → Prop
  | .timeline blocks _ true => (blocks.commands.map commandBytes).sum ≤ 262104
  | _ => True

theorem toOption_eq_some {ε α : Type} {result : Except ε α} {value : α} :
    result.toOption = some value ↔ result = .ok value := by
  cases result <;> simp [Except.toOption]

theorem frames_wrappable {presentation : Presentation} (displayed : ∀ blocks revision session,
    presentation ≠ .timeline blocks revision session) {frames : List Frame} (made : presentation.frames = some frames)
    {frame : Frame} (member : frame ∈ frames) : Wrappable frame := by
  cases presentation with
  | snapshot source =>
      simp only [Presentation.frames, toOption_eq_some, encodeSnapshot, bind_eq_ok] at made
      obtain ⟨_, _, _, _, encoded⟩ := made
      exact encodeRows_wrappable encoded member
  | delta update baseGeneration =>
      simp only [Presentation.frames, toOption_eq_some, encodeDelta, bind_eq_ok] at made
      obtain ⟨_, _, _, _, encoded⟩ := made
      exact encodeRows_wrappable encoded member
  | snapshotV2 source =>
      simp only [Presentation.frames, toOption_eq_some, encodeSnapshotV2, bind_eq_ok] at made
      obtain ⟨_, _, encoded⟩ := made
      exact encodeCellsV2_wrappable encoded member
  | deltaV2 update baseGeneration =>
      simp only [Presentation.frames, toOption_eq_some, encodeDeltaV2, bind_eq_ok] at made
      obtain ⟨_, _, encoded⟩ := made
      exact encodeCellsV2_wrappable encoded member
  | timeline blocks revision sessionSchema => exact absurd rfl (displayed blocks revision sessionSchema)

/-- Every frame fits into an envelope, but for a session timeline whose commands are too long. -/
theorem frames_enveloped {presentation : Presentation} (reachable : presentation.Reachable) {frames : List Frame}
    (made : presentation.frames = some frames) (attachmentId : AttachmentId) (resumeSequence : UInt64) :
    (∀ frame ∈ frames, ∃ wrapped, PresentationEnvelope.wrap frame.bytes attachmentId resumeSequence = .ok wrapped) ↔
      presentation.LeavesRoom := by
  cases presentation with
  | snapshot | delta | snapshotV2 | deltaV2 =>
      exact iff_of_true (fun frame member => (frames_wrappable (by simp) made member).wrap) trivial
  | timeline blocks revision sessionSchema =>
      have bounded := Reachable.bounded reachable
      obtain ⟨legacy, session, published, small, size⟩ := blocks.publishBlockTimeline_ok bounded revision
      rw [Presentation.frames, published] at made
      cases made
      rw [List.forall_mem_singleton]
      cases sessionSchema with
      | false => exact iff_of_true (Wrappable.wrap ⟨_, _, rfl, rfl, small⟩) trivial
      | true =>
          have counted := size.trans blocks.encodedLen_eq
          have fits : session.length ≤ maxFramePayload := counted.trans_le bounded.encoded
          refine (wrap_encodeFrame rfl fits).trans ?_
          simp only [LeavesRoom, counted, timelineHeaderBytes, maxChunkPayload, maxFramePayload,
            prefixLen]
          omega

end Presentation

def longCommand : List Char := List.replicate 16343 'x'

theorem length_longCommand : (encodeUtf8 longCommand).length = 16343 := by
  rw [encodeUtf8, longCommand, List.length_flatMap, List.map_replicate, List.sum_replicate]
  rfl

def runningRecord (number : Nat) : CommandBlockRecord :=
  ⟨UInt64.ofNat (number + 1), longCommand, 1, none, .running, .local, .localTrusted, none⟩

def longRecord (number : Nat) : CommandBlockRecord := (runningRecord number).complete 2 (some 0)

def longTimeline (count : Nat) : CommandBlockTimeline := ⟨UInt64.ofNat count, (List.range count).map longRecord, none⟩

theorem commands_longTimeline (count : Nat) : (longTimeline count).commands = List.replicate count longCommand := by
  have same : command ∘ longRecord = Function.const Nat longCommand := rfl
  rw [commands, longTimeline, List.map_map, same, List.map_const, List.length_range]

theorem encodedLen_longTimeline (count : Nat) : (longTimeline count).encodedLen = 16 + count * 16383 := by
  rw [encodedLen_eq, commands_longTimeline, List.map_replicate, List.sum_replicate, commandBytes,
    length_longCommand]
  rfl

section LongTimeline

variable {count : Nat}

theorem longTimeline_fresh (small : count < 16) :
    ∀ record ∈ (longTimeline count).records, decide (record.id = UInt64.ofNat (count + 1)) = false := by
  intro record member
  obtain ⟨number, inside, rfl⟩ := List.mem_map.mp member
  have less : number < count := List.mem_range.mp inside
  apply decide_eq_false
  intro same
  have equal : (UInt64.ofNat (number + 1)).toNat = (UInt64.ofNat (count + 1)).toNat := congrArg UInt64.toNat same
  rw [UInt64.toNat_ofNat', UInt64.toNat_ofNat'] at equal
  omega

theorem longTimeline_makeRoomFor (small : count < 16) (nextId : UInt64) :
    makeRoomFor 16343 { longTimeline count with nextId } =
      (true, { longTimeline count with nextId }) := by
  have size : encodedLen { longTimeline count with nextId } = 16 + count * 16383 :=
    encodedLen_longTimeline count
  have number : (longTimeline count).records.length = count := by
    rw [longTimeline, List.length_map, List.length_range]
  rw [makeRoomFor, if_neg (by decide), evictUntil, size, number, if_neg]
  simp only [maxBlocksPerExecution, maxFramePayload, recordHeaderBytes, scopeTrustBytes]
  omega

theorem longTimeline_start (small : count < 16) (nextId : UInt64) :
    (start (UInt64.ofNat (count + 1)) longCommand 1 { longTimeline count with nextId }).2 =
      { longTimeline count with
        nextId
        records := (longTimeline count).records ++ [runningRecord count] } := by
  have fresh := List.any_eq_false.mpr fun record member => Bool.not_eq_true _ ▸ longTimeline_fresh small record member
  have valid : ¬ ((encodeUtf8 longCommand).length = 0 ∨ maxCommandBytes < (encodeUtf8 longCommand).length) := by
    rw [length_longCommand]
    decide
  rw [start, if_neg valid, fresh, if_neg Bool.false_ne_true, length_longCommand,
    longTimeline_makeRoomFor small]
  rfl

theorem longTimeline_completeSpan (small : count < 16) :
    (completeSpan (UInt64.ofNat (count + 1)) none 2 (some 0)
      { longTimeline count with
        nextId := UInt64.ofNat (count + 1)
        records := (longTimeline count).records ++ [runningRecord count] }).2 = longTimeline (count + 1) := by
  have fresh := longTimeline_fresh small
  have found : List.find? (fun record => decide (record.id = UInt64.ofNat (count + 1)))
      ((longTimeline count).records ++ [runningRecord count]) = some (runningRecord count) := by
    rw [List.find?_append, List.find?_eq_none.mpr fun record member => Bool.not_eq_true _ ▸ fresh record member]
    simp [runningRecord]
  have running : ¬ (runningRecord count).lifecycle ≠ .running := fun other => other rfl
  rw [completeSpan, found]
  dsimp only
  rw [if_neg running, updateFirst_append fresh (by simp [runningRecord]), longTimeline, longTimeline, List.range_succ,
    List.map_append]
  rfl

theorem longTimeline_succ (small : count < 16) (reachable : (longTimeline count).Reachable) :
    (longTimeline (count + 1)).Reachable := by
  have next : UInt64.ofNat count + 1 = UInt64.ofNat (count + 1) := (UInt64.ofNat_add count 1).symm
  have allocated : (longTimeline count).allocateId.2 =
      { longTimeline count with nextId := UInt64.ofNat (count + 1) } := by
    rw [allocateId, if_pos]
    · simp only [longTimeline, next]
    · simp only [longTimeline, UInt64.toNat_ofNat']
      omega
  have run := ((reachable.allocateId).start (UInt64.ofNat (count + 1)) longCommand 1).completeSpan
    (UInt64.ofNat (count + 1)) none 2 (some 0)
  rw [allocated, longTimeline_start small] at run
  rwa [longTimeline_completeSpan small] at run

theorem longTimeline_reachable (few : count ≤ 16) : (longTimeline count).Reachable := by
  induction count with
  | zero => exact .empty
  | succ count ih => exact longTimeline_succ few (ih (Nat.le_of_succ_le few))

end LongTimeline

/-- Fifteen commands of this length are enveloped. -/
theorem frames_enveloped_long :
    (longTimeline 15).Reachable ∧ ∃ frame wrapped,
      frames (.timeline (longTimeline 15) 15 true) = some [frame] ∧
        wrap frame.bytes 0 0 = .ok wrapped := by
  have reachable : (longTimeline 15).Reachable := longTimeline_reachable (by decide)
  obtain ⟨_, session, published, _⟩ := (longTimeline 15).publishBlockTimeline_ok reachable.bounded 15
  have made : frames (.timeline (longTimeline 15) 15 true) = some [encodeFrame .blockTimeline session] := by
    rw [frames, published]
    rfl
  have room : ((longTimeline 15).commands.map commandBytes).sum ≤ 262104 := by
    rw [commands_longTimeline, List.map_replicate, List.sum_replicate, commandBytes, length_longCommand]
    decide
  have held : Reachable (.timeline (longTimeline 15) 15 true) := reachable
  obtain ⟨wrapped, done⟩ := (frames_enveloped held made 0 0).mpr room _ List.mem_cons_self
  exact ⟨reachable, _, wrapped, made, done⟩

/-- Sixteen commands fill the frame, and the frame that carries them is not accepted. -/
theorem long_commands_not_enveloped :
    (longTimeline 16).Reachable ∧ ∃ frame, frames (.timeline (longTimeline 16) 16 true) = some [frame] ∧
      ∀ attachmentId resumeSequence wrapped,
        wrap frame.bytes attachmentId resumeSequence ≠ .ok wrapped := by
  have reachable : (longTimeline 16).Reachable := longTimeline_reachable (Nat.le_refl 16)
  obtain ⟨legacy, session, published, _, size⟩ := (longTimeline 16).publishBlockTimeline_ok reachable.bounded 16
  rw [encodedLen_longTimeline] at size
  refine ⟨reachable, encodeFrame .blockTimeline session, ?_, ?_⟩
  · rw [frames, published]
    rfl
  · intro attachmentId resumeSequence wrapped accepted
    have room := (wrap_encodeFrame rfl (Nat.le_of_eq size)).mp ⟨wrapped, accepted⟩
    rw [size] at room
    exact absurd room (by decide)

end Seyal.Runtime
