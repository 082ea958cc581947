import Seyal.Agent.Store.OutputRef
import Seyal.Program.Segments

namespace Seyal.Agent.Store

open Program Slice

/-! The output of runs, stored in segments, and the references that events hold to it. -/

abbrev AgentRunId := Nat

def outputSegmentLen : Nat := 4096
def maxEventPayload : Nat := 64 * 1024

inductive StoreError where
  | payloadTooLarge
  | writeFailed
  | corrupt
  deriving Repr, DecidableEq

/-- The segments of a run after an append, and where its bytes went. The casts and the count are of 32 bits. -/
structure Placed where
  segments : List (List UInt8)
  firstSegmentIndex : UInt32
  segmentCount : UInt32
  byteOffset : UInt32

def placeFresh (segments : List (List UInt8)) (bytes : List UInt8) : Placed where
  segments := segments ++ spill outputSegmentLen bytes
  firstSegmentIndex := if bytes = [] then 0 else UInt32.ofNat segments.length
  segmentCount := UInt32.ofNat (spill outputSegmentLen bytes).length
  byteOffset := 0

def placeAfter (front : List (List UInt8)) (payload bytes : List UInt8) : Placed where
  segments := front ++ (payload ++ bytes.take (outputSegmentLen - payload.length)) ::
    spill outputSegmentLen (bytes.drop (outputSegmentLen - payload.length))
  firstSegmentIndex := UInt32.ofNat front.length
  segmentCount := UInt32.ofNat (1 + (spill outputSegmentLen (bytes.drop (outputSegmentLen - payload.length))).length)
  byteOffset := UInt32.ofNat payload.length

def place (segments : List (List UInt8)) (bytes : List UInt8) : Placed :=
  match segments.getLast? with
  | some payload =>
      if bytes ≠ [] ∧ payload.length < outputSegmentLen then placeAfter segments.dropLast payload bytes
      else placeFresh segments bytes
  | none => placeFresh segments bytes

structure OutputStore where
  segments : AgentRunId → List (List UInt8) := fun _ => []
  events : List (AgentRunId × UInt16 × List UInt8) := []

structure OutputCall where
  runId : AgentRunId
  eventKind : UInt16
  bytes : List UInt8
  firstOrdinal : UInt64
  lastOrdinal : UInt64
  streamKind : StreamKind
  fingerprintRef : FingerprintRef
  retentionPolicyRef : RetentionPolicyRef

def OutputCall.refAt (call : OutputCall) (firstSegmentIndex segmentCount byteOffset : UInt32) : OutputRef :=
  { firstSegmentIndex, segmentCount, byteOffset
    byteLength := UInt64.ofNat call.bytes.length
    firstOrdinal := call.firstOrdinal
    lastOrdinal := call.lastOrdinal
    streamKind := call.streamKind
    fingerprintRef := call.fingerprintRef
    retentionPolicyRef := call.retentionPolicyRef }

/-- `refused` is a failure of the file at any point: the transaction is then undone. -/
def OutputStore.appendOutputEventWithRefs (store : OutputStore) (refused : Bool) (call : OutputCall) :
    Except StoreError (OutputRef × OutputStore) := do
  refuse (maxEventPayload < (encodeOutputRef (call.refAt 0 0 0)).length) .payloadTooLarge
  refuse (refused = true) .writeFailed
  let placed := place (store.segments call.runId) call.bytes
  let outputRef := call.refAt placed.firstSegmentIndex placed.segmentCount placed.byteOffset
  return (outputRef,
    { segments := Function.update store.segments call.runId placed.segments
      events := store.events ++ [(call.runId, call.eventKind, encodeOutputRef outputRef)] })

def OutputStore.appendOutputEvent (store : OutputStore) (refused : Bool) (runId : AgentRunId) (eventKind : UInt16)
    (bytes : List UInt8) (firstOrdinal lastOrdinal : UInt64) : Except StoreError (OutputRef × OutputStore) :=
  store.appendOutputEventWithRefs refused
    ⟨runId, eventKind, bytes, firstOrdinal, lastOrdinal, .stdout, .ofPublicContent bytes, .retainedStream⟩

def readSegments (segments : List (List UInt8)) : Nat → Nat → Nat → Nat → Except StoreError (List UInt8)
  | 0, _, _, needed => if needed ≠ 0 then .error .corrupt else .ok []
  | count + 1, index, start, needed => do
      let payload ← orRefuse segments[index]? .corrupt
      refuse (payload.length < start) .corrupt
      let available := payload.drop start
      let taken := available.take needed
      if needed - taken.length = 0 then return taken
      else return taken ++ (← readSegments segments count (index + 1) 0 (needed - taken.length))

def OutputStore.materializeOutputRef (store : OutputStore) (runId : AgentRunId) (outputRef : OutputRef) :
    Except StoreError (List UInt8) :=
  if outputRef.byteLength = 0 then .ok []
  else if outputRef.segmentCount = 0 then .error .corrupt
  else readSegments (store.segments runId) outputRef.segmentCount.toNat outputRef.firstSegmentIndex.toNat
    outputRef.byteOffset.toNat outputRef.byteLength.toNat

/-- A run of bytes in a string: where it starts, and how many segments are looked at for it. -/
structure Window (text bytes : List UInt8) (index start count : Nat) : Prop where
  content : subrange text (index * outputSegmentLen + start) (index * outputSegmentLen + start + bytes.length) = bytes
  inside : index * outputSegmentLen + start + bytes.length ≤ text.length
  first : start < outputSegmentLen
  enough : start + bytes.length ≤ count * outputSegmentLen

variable {segments : List (List UInt8)} {bytes text : List UInt8} {index start count : Nat}

theorem Window.append (window : Window text bytes index start count) (more : List UInt8) :
    Window (text ++ more) bytes index start count where
  content := by
    have inside := window.inside
    rw [subrange, List.drop_append_of_le_length (by omega), List.take_append_of_le_length]
    · exact window.content
    · rw [List.length_drop]
      omega
  inside := by
    have inside := window.inside
    rw [List.length_append]
    omega
  first := window.first
  enough := window.enough

theorem readSegments_eq (segmented : Segmented outputSegmentLen segments) (count index start needed : Nat)
    (positive : 0 < needed) (inside : index * outputSegmentLen + start + needed ≤ segments.flatten.length)
    (first : start < outputSegmentLen) (enough : start + needed ≤ count * outputSegmentLen) :
    readSegments segments count index start needed =
      .ok (subrange segments.flatten (index * outputSegmentLen + start) (index * outputSegmentLen + start + needed)) := by
  induction count generalizing index start needed with
  | zero => omega
  | succ count ih =>
      have below : index * outputSegmentLen < segments.flatten.length := by omega
      obtain ⟨payload, found⟩ := segmented.exists_piece below
      have length : payload.length = min outputSegmentLen (segments.flatten.length - index * outputSegmentLen) := by
        rw [segmented.piece_eq found, subrange, List.length_take, List.length_drop]
        omega
      have available : payload.drop start =
          subrange segments.flatten (index * outputSegmentLen + start) (index * outputSegmentLen + outputSegmentLen) := by
        rw [segmented.piece_eq found, subrange, subrange, List.drop_take, List.drop_drop]
        congr 1
        omega
      have room : ¬ payload.length < start := by omega
      simp only [readSegments, found, orRefuse, refuse, room, if_false, ok_bind]
      by_cases here : needed ≤ payload.length - start
      · have taken : (payload.drop start).take needed = subrange segments.flatten (index * outputSegmentLen + start)
            (index * outputSegmentLen + start + needed) := by
          rw [available, subrange, subrange, List.take_take]
          congr 1
          omega
        have all : needed - ((payload.drop start).take needed).length = 0 := by
          rw [List.length_take, List.length_drop]
          omega
        rw [if_pos all, taken]
        rfl
      · have taken : (payload.drop start).take needed = subrange segments.flatten (index * outputSegmentLen + start)
            (index * outputSegmentLen + outputSegmentLen) := by
          rw [List.take_of_length_le (by rw [List.length_drop]; omega), available]
        have count : ((payload.drop start).take needed).length = outputSegmentLen - start := by
          rw [List.length_take, List.length_drop]
          omega
        have rest := ih (index + 1) 0 (needed - (outputSegmentLen - start)) (by omega)
          (by rw [Nat.add_mul]; omega) (by decide) (by rw [Nat.add_mul] at enough; omega)
        have next : (index + 1) * outputSegmentLen + 0 = index * outputSegmentLen + outputSegmentLen := by
          rw [Nat.add_mul, Nat.one_mul, Nat.add_zero]
        have past : index * outputSegmentLen + outputSegmentLen + (needed - (outputSegmentLen - start)) =
            index * outputSegmentLen + start + needed := by omega
        rw [next, past] at rest
        rw [count, if_neg (by omega), rest, taken, ok_bind]
        exact congrArg Except.ok (subrange_append_subrange (by omega) (by omega))

theorem toNat_ofNat32 {value : Nat} (small : value < 2 ^ 32) : (UInt32.ofNat value).toNat = value :=
  UInt32.toNat_ofNat_of_lt' small

/-- What an append does to the segments of a run. -/
structure Extends (segments : List (List UInt8)) (bytes : List UInt8) (placed : Placed) : Prop where
  segmented : Segmented outputSegmentLen placed.segments
  flatten : placed.segments.flatten = segments.flatten ++ bytes
  longer : segments.length ≤ placed.segments.length
  window : bytes ≠ [] → placed.segments.length < 2 ^ 32 →
    Window (segments.flatten ++ bytes) bytes placed.firstSegmentIndex.toNat placed.byteOffset.toNat
      placed.segmentCount.toNat

theorem window_at_end {text : List UInt8} (place : index * outputSegmentLen + start = text.length)
    (first : start < outputSegmentLen) (enough : start + bytes.length ≤ count * outputSegmentLen) :
    Window (text ++ bytes) bytes index start count where
  content := by
    rw [place, subrange, List.drop_left, Nat.add_sub_cancel_left, List.take_length]
  inside := by rw [place, List.length_append]
  first := first
  enough := enough

theorem placeAfter_extends {front : List (List UInt8)} {payload : List UInt8}
    (segmented : Segmented outputSegmentLen (front ++ [payload])) (some : bytes ≠ [])
    (short : payload.length < outputSegmentLen) : Extends (front ++ [payload]) bytes (placeAfter front payload bytes) := by
  have full := segmented.front_full
  have rest := @length_le_spill _ outputSegmentLen (by decide) (bytes.drop (outputSegmentLen - payload.length))
  have size := Segmented.length_flatten full
  have long := List.length_pos_iff.mpr some
  refine ⟨?_, ?_, ?_, fun _ few => ?_⟩
  · refine Segmented.append full ?_
    by_cases fits : bytes.length ≤ outputSegmentLen - payload.length
    · rw [List.drop_of_length_le fits, spill_nil, List.take_of_length_le fits]
      refine .last (by simp [some]) ?_
      rw [List.length_append]
      omega
    · refine .full ?_ (segmented_spill (by decide) _)
      rw [List.length_append, List.length_take]
      omega
  · simp [placeAfter, flatten_spill (show 0 < outputSegmentLen by decide)]
  · simp [placeAfter]
  · simp only [placeAfter, List.length_append, List.length_cons] at few
    have index : (placeAfter front payload bytes).firstSegmentIndex.toNat = front.length := toNat_ofNat32 (by omega)
    have offset : (placeAfter front payload bytes).byteOffset.toNat = payload.length :=
      toNat_ofNat32 (Nat.lt_trans short (by decide))
    have count : (placeAfter front payload bytes).segmentCount.toNat =
        1 + (spill outputSegmentLen (bytes.drop (outputSegmentLen - payload.length))).length := toNat_ofNat32 (by omega)
    rw [index, offset, count]
    apply window_at_end
    · rw [List.flatten_append, List.length_append, size, List.flatten_singleton]
    · exact short
    · rw [List.length_drop] at rest
      rw [Nat.add_mul, Nat.one_mul]
      omega

theorem placeFresh_extends (segmented : Segmented outputSegmentLen segments)
    (full : bytes ≠ [] → ∀ segment ∈ segments, segment.length = outputSegmentLen) :
    Extends segments bytes (placeFresh segments bytes) := by
  have rest := @length_le_spill _ outputSegmentLen (by decide) bytes
  refine ⟨?_, ?_, ?_, fun some few => ?_⟩
  · by_cases none : bytes = []
    · rw [placeFresh, none, spill_nil, List.append_nil]
      exact segmented
    · exact Segmented.append (full none) (segmented_spill (by decide) _)
  · simp [placeFresh, flatten_spill (show 0 < outputSegmentLen by decide)]
  · simp [placeFresh]
  · simp only [placeFresh, List.length_append] at few
    have index : (placeFresh segments bytes).firstSegmentIndex.toNat = segments.length := by
      rw [placeFresh, if_neg some]
      exact toNat_ofNat32 (by omega)
    have count : (placeFresh segments bytes).segmentCount.toNat = (spill outputSegmentLen bytes).length :=
      toNat_ofNat32 (by omega)
    rw [index, count, show (placeFresh segments bytes).byteOffset.toNat = 0 from rfl]
    apply window_at_end
    · rw [Segmented.length_flatten (full some), Nat.add_zero]
    · decide
    · rw [Nat.zero_add]
      exact rest

theorem place_extends (segmented : Segmented outputSegmentLen segments) (bytes : List UInt8) :
    Extends segments bytes (place segments bytes) := by
  rcases List.eq_nil_or_concat segments with rfl | ⟨front, payload, rfl⟩
  · exact placeFresh_extends segmented fun _ _ none => absurd none List.not_mem_nil
  · rw [List.concat_eq_append] at segmented ⊢
    rw [place, List.getLast?_concat, List.dropLast_concat]
    simp only
    by_cases partly : bytes ≠ [] ∧ payload.length < outputSegmentLen
    · rw [if_pos partly]
      exact placeAfter_extends segmented partly.1 partly.2
    · rw [if_neg partly]
      apply placeFresh_extends segmented
      intro some segment member
      rcases List.mem_append.mp member with old | last
      · exact segmented.front_full segment old
      · rw [List.mem_singleton.mp last]
        have atMost := segmented.length_le payload (List.mem_append_right _ (List.mem_singleton_self _))
        have atLeast : ¬ payload.length < outputSegmentLen := fun short => partly ⟨some, short⟩
        omega

/-- The two ways to append. -/
inductive OutputAppend where
  | event (runId : AgentRunId) (eventKind : UInt16) (bytes : List UInt8) (firstOrdinal lastOrdinal : UInt64)
  | withRefs (call : OutputCall)

namespace OutputAppend

def call : OutputAppend → OutputCall
  | .event runId eventKind bytes firstOrdinal lastOrdinal =>
      ⟨runId, eventKind, bytes, firstOrdinal, lastOrdinal, .stdout, .ofPublicContent bytes, .retainedStream⟩
  | .withRefs call => call

def run (store : OutputStore) (refused : Bool) : OutputAppend → Except StoreError (OutputRef × OutputStore)
  | .event runId eventKind bytes firstOrdinal lastOrdinal =>
      store.appendOutputEvent refused runId eventKind bytes firstOrdinal lastOrdinal
  | .withRefs call => store.appendOutputEventWithRefs refused call

theorem run_eq (append : OutputAppend) (store : OutputStore) (refused : Bool) :
    append.run store refused = store.appendOutputEventWithRefs refused append.call := by
  cases append <;> rfl

end OutputAppend

/-- The store, and the calls that succeeded with the references they returned, in order. -/
structure OutputHistory where
  store : OutputStore := {}
  appends : List (OutputCall × OutputRef) := []

namespace OutputHistory

variable {history : OutputHistory}

def perform (history : OutputHistory) (attempt : Bool × OutputAppend) : OutputHistory :=
  match attempt.2.run history.store attempt.1 with
  | .ok (outputRef, store) => ⟨store, history.appends ++ [(attempt.2.call, outputRef)]⟩
  | .error _ => history

def play (history : OutputHistory) (attempts : List (Bool × OutputAppend)) : OutputHistory :=
  attempts.foldl perform history

/-- All that was appended, to whatever run, is in one file, and SQLite has no more than 4294967294 pages of 4096 bytes
in a file: an append beyond that fails. -/
def FitsFile (history : OutputHistory) : Prop :=
  (history.appends.map fun entry => entry.1.bytes.length).sum ≤ 4294967294 * 4096

def written (history : OutputHistory) (runId : AgentRunId) : List UInt8 :=
  (history.appends.filter fun entry => entry.1.runId = runId).flatMap fun entry => entry.1.bytes

def appended (history : OutputHistory) (call : OutputCall) : OutputHistory :=
  let placed := place (history.store.segments call.runId) call.bytes
  let outputRef := call.refAt placed.firstSegmentIndex placed.segmentCount placed.byteOffset
  ⟨{ segments := Function.update history.store.segments call.runId placed.segments
     events := history.store.events ++ [(call.runId, call.eventKind, encodeOutputRef outputRef)] },
    history.appends ++ [(call, outputRef)]⟩

theorem perform_cases (history : OutputHistory) (attempt : Bool × OutputAppend) :
    history.perform attempt = history ∨ history.perform attempt = history.appended attempt.2.call := by
  unfold perform
  rw [OutputAppend.run_eq]
  split
  next outputRef store done =>
    simp only [OutputStore.appendOutputEventWithRefs, bind_eq_ok, refuse_eq_ok, pure_eq_ok, Prod.mk.injEq] at done
    obtain ⟨_, _, _, _, rfl, rfl⟩ := done
    exact .inr rfl
  next => exact .inl rfl

/-- Where a reference points to in the text of its run. -/
def Points (text : List UInt8) (entry : OutputCall × OutputRef) : Prop :=
  entry.1.bytes ≠ [] → Window text entry.1.bytes entry.2.firstSegmentIndex.toNat entry.2.byteOffset.toNat
    entry.2.segmentCount.toNat

/-- The segments of each run are what was written to it, and the references point to their bytes. -/
structure Kept (history : OutputHistory) : Prop where
  segmented : ∀ runId, Segmented outputSegmentLen (history.store.segments runId)
  text : ∀ runId, (history.store.segments runId).flatten = history.written runId
  lengths : ∀ entry ∈ history.appends, entry.2.byteLength = UInt64.ofNat entry.1.bytes.length
  points : ∀ entry ∈ history.appends, (history.store.segments entry.1.runId).length < 2 ^ 32 →
    Points (history.written entry.1.runId) entry

theorem kept_empty : Kept {} where
  segmented _ := .none
  text _ := rfl
  lengths _ none := absurd none List.not_mem_nil
  points _ none := absurd none List.not_mem_nil

theorem written_appended (call : OutputCall) (runId : AgentRunId) :
    (history.appended call).written runId =
      history.written runId ++ if call.runId = runId then call.bytes else [] := by
  by_cases same : call.runId = runId <;> simp [written, appended, same]

theorem Kept.appended (kept : Kept history) (call : OutputCall) : Kept (history.appended call) := by
  have extends_ := place_extends (kept.segmented call.runId) call.bytes
  refine ⟨fun runId => ?_, fun runId => ?_, fun entry member => ?_, fun entry member few => ?_⟩
  · by_cases same : runId = call.runId
    · subst same
      simpa [OutputHistory.appended] using extends_.segmented
    · simpa [OutputHistory.appended, same] using kept.segmented runId
  · rw [written_appended]
    by_cases same : runId = call.runId
    · subst same
      rw [if_pos rfl, ← kept.text]
      simpa [OutputHistory.appended] using extends_.flatten
    · rw [if_neg (Ne.symm same), List.append_nil, ← kept.text]
      simp [OutputHistory.appended, same]
  · rcases List.mem_append.mp member with old | new
    · exact kept.lengths entry old
    · rw [List.mem_singleton.mp new]
      rfl
  · rw [written_appended]
    rcases List.mem_append.mp member with old | new
    · have before : (history.store.segments entry.1.runId).length < 2 ^ 32 := by
        by_cases same : entry.1.runId = call.runId
        · simp only [OutputHistory.appended, same, Function.update_self] at few
          rw [same]
          exact Nat.lt_of_le_of_lt extends_.longer few
        · simpa [OutputHistory.appended, same] using few
      exact fun some => (kept.points entry old before some).append _
    · rw [List.mem_singleton.mp new, if_pos rfl, ← kept.text]
      rw [List.mem_singleton.mp new] at few
      simp only [OutputHistory.appended, Function.update_self] at few
      exact fun some => extends_.window some few

theorem kept_play (attempts : List (Bool × OutputAppend)) : Kept (play {} attempts) := by
  suffices holds : ∀ history, Kept history → Kept (history.play attempts) from holds _ kept_empty
  induction attempts with
  | nil => exact fun history kept => kept
  | cons attempt attempts ih =>
      intro history kept
      apply ih
      rcases perform_cases history attempt with same | done
      · rw [same]
        exact kept
      · rw [done]
        exact kept.appended attempt.2.call

theorem Kept.readable (kept : Kept history) {entry : OutputCall × OutputRef} (member : entry ∈ history.appends)
    (few : (history.store.segments entry.1.runId).length < 2 ^ 32) :
    history.store.materializeOutputRef entry.1.runId entry.2 = .ok entry.1.bytes ∧
      decodeOutputRef (encodeOutputRef entry.2) = .ok entry.2 := by
  have length := kept.lengths entry member
  by_cases none : entry.1.bytes = []
  · rw [none] at length
    have zero : entry.2.byteLength = 0 := length
    rw [OutputStore.materializeOutputRef, if_pos zero, none]
    exact ⟨rfl, decodeOutputRef_encodeOutputRef fun bad => bad.2 zero⟩
  · have window := kept.points entry member few none
    have long := List.length_pos_iff.mpr none
    have enough := window.enough
    have counted := entry.2.segmentCount.toNat_lt
    have fits : entry.1.bytes.length < 2 ^ 64 := by
      simp only [outputSegmentLen] at enough
      omega
    have exactly : entry.2.byteLength.toNat = entry.1.bytes.length := by
      rw [length]
      exact UInt64.toNat_ofNat_of_lt' fits
    have present : entry.2.byteLength ≠ 0 := by
      intro zero
      rw [zero] at exactly
      exact absurd exactly.symm (Nat.ne_of_gt long)
    have placed : entry.2.segmentCount ≠ 0 := by
      intro zero
      rw [zero] at enough
      simp only [UInt32.toNat_zero, Nat.zero_mul] at enough
      omega
    rw [OutputStore.materializeOutputRef, if_neg present, if_neg placed, exactly,
      readSegments_eq (kept.segmented _) _ _ _ _ long (by rw [kept.text]; exact window.inside) window.first enough,
      kept.text, window.content]
    exact ⟨rfl, decodeOutputRef_encodeOutputRef fun bad => placed bad.1⟩

theorem FitsFile.few (fits : history.FitsFile) (kept : Kept history) (runId : AgentRunId) :
    (history.store.segments runId).length < 2 ^ 32 := by
  have pieces := (kept.segmented runId).length_le_flatten
  have sub : (history.appends.filter fun entry => entry.1.runId = runId).Sublist history.appends := List.filter_sublist
  have part := (sub.map fun entry => entry.1.bytes.length).sum_le_sum (fun _ _ => Nat.zero_le _)
  rw [kept.text, written, List.length_flatMap] at pieces
  have whole := part.trans fits
  simp only [outputSegmentLen] at pieces
  omega

/-- After any appends, some of them failing: the segments of a run hold what was appended to it, all but the last
full, and every reference that was returned gives back its bytes. -/
theorem outputs_stay_addressable (attempts : List (Bool × OutputAppend)) (fits : FitsFile (play {} attempts))
    (runId : AgentRunId) :
    ((play {} attempts).store.segments runId).flatten = (play {} attempts).written runId ∧
    (∀ segment ∈ ((play {} attempts).store.segments runId).dropLast, segment.length = outputSegmentLen) ∧
    ∀ entry ∈ (play {} attempts).appends, entry.1.runId = runId →
      (play {} attempts).store.materializeOutputRef runId entry.2 = .ok entry.1.bytes ∧
        decodeOutputRef (encodeOutputRef entry.2) = .ok entry.2 := by
  have kept := kept_play attempts
  refine ⟨kept.text runId, (kept.segmented runId).dropLast_full, fun entry member owned => ?_⟩
  subst owned
  exact kept.readable member (fits.few kept _)

/-- Two runs, with a refused append between two to the same run: the second goes into the segment of the first. -/
theorem outputs_stay_addressable_interleaved :
    let attempts : List (Bool × OutputAppend) :=
      [(false, .event 1 2 [10, 11] 1 1), (false, .event 2 2 [20] 1 1), (true, .event 1 2 [12] 2 2),
        (false, .withRefs ⟨1, 2, [13], 3, 3, .stderr, .opaqueContentIdentity 5, .retainedStream⟩)]
    FitsFile (play {} attempts) ∧ (play {} attempts).store.segments 1 = [[10, 11, 13]] ∧
      (play {} attempts).appends.length = 3 ∧ ∀ entry ∈ (play {} attempts).appends, entry.1.runId = 1 →
        (play {} attempts).store.materializeOutputRef 1 entry.2 = .ok entry.1.bytes := by
  intro attempts
  have fits : FitsFile (play {} attempts) := by unfold FitsFile; decide +kernel
  exact ⟨fits, by decide +kernel, by decide +kernel, fun entry member owned =>
    ((outputs_stay_addressable attempts fits 1).2.2 entry member owned).1⟩

end OutputHistory

end Seyal.Agent.Store
