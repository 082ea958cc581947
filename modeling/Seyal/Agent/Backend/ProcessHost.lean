import Seyal.Agent.Backend.Observation

namespace Seyal.Agent.Backend

/-! The reader of a child process, and the bounded queue that its observations wait in. -/

inductive HostExitKind where
  | completed
  | failed
  | crashed
  | unknown
  deriving Repr, DecidableEq

def HostExitKind.observation : HostExitKind → HostObservationKind
  | .completed => .knownSuccess
  | .failed => .knownFailure
  | .crashed => .harnessCrashed
  | .unknown => .unknownLiveness

/-- `resolve_exit`, when waiting for the child gave `exited`. -/
def resolveExit (cancelled : Bool) (exited : Option HostExitKind) : Option HostExitKind :=
  exited.map fun kind => if cancelled && (kind = .crashed || kind = .unknown) then .failed else kind

def outputOf : HostObservationKind → List UInt8
  | .output bytes => bytes
  | _ => []

def isTerminalKind : HostObservationKind → Bool
  | .knownSuccess | .knownFailure | .harnessCrashed | .unknownLiveness | .observationDisconnected => true
  | _ => false

def maxQueuedObservations : Nat := 256
def maxQueuedOutputBytes : Nat := 256 * 1024

/-- Where the reader is: before the check of `shutdown`, before a read, or in a push. -/
inductive ReaderPhase where
  | looping
  | reading
  | pushingOutput (bytes : List UInt8)
  | pushingLast (exit : Option HostExitKind)
  | finished
  deriving Repr, DecidableEq

/-- One handle: the queue, the flag of `signal_cancel` and the reader. `returned` is what all calls of `observe`
    returned, and `read` what came from the child. -/
structure ProcessHost where
  items : List HostObservation
  outputBytes : Nat := 0
  shutdown : Bool := false
  phase : ReaderPhase := .looping
  nextOrdinal : Nat := 2
  returned : List HostObservation := []
  read : List UInt8 := []
  deriving Repr, DecidableEq

open ProcessHost HostObservation

/-- What happens next, at lock granularity: the reader goes on, the queue is drained, or the run is cancelled. A read
    that fails has no bytes, and one at the end of the output has the empty list. -/
inductive HostEvent where
  | check (exited exitedLater : Option HostExitKind)
  | read (outcome : Option (List UInt8)) (exited : Option HostExitKind)
  | push
  | observe
  | cancel
  deriving Repr, DecidableEq

namespace ProcessHost

section Steps

variable (runId : AgentRunId) (generation : BindingGeneration)

def started : ProcessHost where
  items := [⟨runId, generation, 1, .started⟩]

variable (host : ProcessHost)

def enqueue (kind : HostObservationKind) (phase : ReaderPhase) : ProcessHost :=
  { host with
    items := host.items ++ [⟨runId, generation, host.nextOrdinal, kind⟩]
    outputBytes := host.outputBytes + (outputOf kind).length
    nextOrdinal := min (host.nextOrdinal + 1) (2 ^ 64 - 1)
    phase }

/-- The observation is given up; its ordinal is counted all the same. -/
def giveUp (phase : ReaderPhase) : ProcessHost :=
  { host with nextOrdinal := min (host.nextOrdinal + 1) (2 ^ 64 - 1), phase }

def isFull (kind : HostObservationKind) : Bool :=
  maxQueuedObservations ≤ host.items.length || maxQueuedOutputBytes < host.outputBytes + (outputOf kind).length

/-- The closure `push` of `drive_reader`: in front of a full queue it waits, until the run is cancelled. -/
def push (kind : HostObservationKind) (bypassBackpressure : Bool) (phase : ReaderPhase) : ProcessHost :=
  if !bypassBackpressure && !isTerminalKind kind && host.isFull kind then
    if host.shutdown then host.giveUp phase else host
  else host.enqueue runId generation kind phase

def lastKind (exit : Option HostExitKind) : HostObservationKind :=
  (exit.map HostExitKind.observation).getD .observationDisconnected

def afterCheck (exited exitedLater : Option HostExitKind) : ReaderPhase :=
  if host.shutdown then
    .pushingLast (some (((resolveExit true exited).or (resolveExit true exitedLater)).getD .failed))
  else .reading

def afterRead (outcome : Option (List UInt8)) (exited : Option HostExitKind) : ProcessHost :=
  match outcome with
  | some [] => { host with phase := .pushingLast (resolveExit host.shutdown exited) }
  | some bytes => { host with phase := .pushingOutput bytes, read := host.read ++ bytes }
  | none =>
      { host with
        phase := .pushingLast (if host.shutdown then some ((resolveExit true exited).getD .failed) else none) }

/-- An event that the reader is not ready for changes nothing. -/
def step : HostEvent → ProcessHost
  | .check exited exitedLater =>
      match host.phase with
      | .looping => { host with phase := host.afterCheck exited exitedLater }
      | _ => host
  | .read outcome exited =>
      match host.phase with
      | .reading => host.afterRead outcome exited
      | _ => host
  | .push =>
      match host.phase with
      | .pushingOutput bytes => host.push runId generation (.output bytes) false .looping
      | .pushingLast exit => host.push runId generation (lastKind exit) true .finished
      | _ => host
  | .observe => { host with returned := host.returned ++ host.items, items := [], outputBytes := 0 }
  | .cancel => { host with shutdown := true }

def run (events : List HostEvent) : ProcessHost := events.foldl (step runId generation) host

/-- The reader has an output for a full queue after the cancellation. -/
def leavesOutput : Bool :=
  match host.phase with
  | .pushingOutput bytes => host.shutdown && host.isFull (.output bytes)
  | _ => false

def givesUp : ProcessHost → List HostEvent → Bool
  | _, [] => false
  | host, event :: rest =>
      (event = .push && host.leavesOutput) || givesUp (host.step runId generation event) rest

end Steps

variable {runId : AgentRunId} {generation : BindingGeneration} {host : ProcessHost}

def emitted (host : ProcessHost) : List HostObservation := host.returned ++ host.items

def payload (observations : List HostObservation) : List UInt8 :=
  observations.flatMap fun observation => outputOf observation.kind

def inHand : ReaderPhase → List UInt8
  | .pushingOutput bytes => bytes
  | _ => []

/-- What the reader is about to do ends its work. -/
def Ending : ReaderPhase → Prop
  | .pushingLast _ | .finished => True
  | _ => False

/-- The ordinals that are counted from the start. -/
def counted (count : Nat) : List Nat := (List.range' 1 count).map (min · (2 ^ 64 - 1))

def Numbered (observations : List HostObservation) : Prop :=
  observations.map ordinal = counted observations.length ∧
  ∀ observation ∈ observations, isTerminalKind observation.kind = false

/-- Numbered from the start, up to a last observation, whose number leaves out the one of an output that was `left`. -/
def Streamed (left : Bool) (observations : List HostObservation) : Prop :=
  Numbered observations ∨ ∃ front last, observations = front ++ [last] ∧ Numbered front ∧
    isTerminalKind last.kind = true ∧ last.ordinal = min (front.length + 1 + left.toNat) (2 ^ 64 - 1)

structure Kept (left : Bool) (host : ProcessHost) : Prop where
  streamed : Streamed left host.emitted
  going : host.phase ≠ .finished →
    Numbered host.emitted ∧ host.nextOrdinal = min (host.emitted.length + 1 + left.toNat) (2 ^ 64 - 1)
  bytes : left = false → payload host.emitted ++ inHand host.phase = host.read
  ending : left = true → payload host.emitted <+: host.read ∧ host.shutdown = true ∧
    (host.phase = .looping ∨ Ending host.phase)

section Streamed

variable {left : Bool} {first second observations : List HostObservation} {last : HostObservation}

theorem counted_succ (count : Nat) : counted (count + 1) = counted count ++ [min (count + 1) (2 ^ 64 - 1)] := by
  simp [counted, List.range'_1_concat, Nat.add_comm]

theorem counted_eq_range_iff (count : Nat) : counted count = List.range' 1 count ↔ count < 2 ^ 64 := by
  induction count with
  | zero => simp [counted]
  | succ count ih =>
      rw [counted_succ, List.range'_1_concat, List.append_singleton_inj, ih]
      omega

theorem Numbered.front (numbered : Numbered (first ++ second)) : Numbered first := by
  induction second using List.reverseRecOn with
  | nil => simpa using numbered
  | append_singleton second last ih =>
      apply ih
      obtain ⟨ordinals, plain⟩ := numbered
      rw [← List.append_assoc] at ordinals plain
      rw [List.length_append, List.length_singleton, counted_succ, List.map_append, List.map_singleton,
        List.append_singleton_inj] at ordinals
      exact ⟨ordinals.1, fun observation member => plain observation (List.mem_append_left _ member)⟩

theorem Numbered.snoc (numbered : Numbered observations) (plain : isTerminalKind last.kind = false)
    (next : last.ordinal = min (observations.length + 1) (2 ^ 64 - 1)) : Numbered (observations ++ [last]) := by
  refine ⟨?_, fun observation member => ?_⟩
  · rw [List.map_append, List.map_singleton, numbered.1, next, List.length_append, List.length_singleton, counted_succ]
  · rcases List.mem_append.mp member with old | new
    · exact numbered.2 observation old
    · rwa [List.mem_singleton.mp new]

theorem Streamed.front (streamed : Streamed left (first ++ second)) : Streamed left first := by
  rcases streamed with numbered | ⟨front, last, split, numbered, rest⟩
  · exact .inl numbered.front
  · rcases List.eq_nil_or_concat second with rfl | ⟨second, final, rfl⟩
    · exact .inr ⟨front, last, List.append_nil first ▸ split, numbered, rest⟩
    · rw [List.concat_eq_append, ← List.append_assoc, List.append_singleton_inj] at split
      exact .inl (split.1 ▸ numbered).front

theorem Streamed.nothing_follows (streamed : Streamed left (first ++ last :: second))
    (terminal : isTerminalKind last.kind = true) : second = [] := by
  have plain : ∀ front, Numbered front → last ∉ front := fun front numbered member => by
    cases terminal.symm.trans (numbered.2 last member)
  rcases streamed with numbered | ⟨front, final, split, numbered, _⟩
  · exact absurd (List.mem_append_right _ List.mem_cons_self) (plain _ numbered)
  · rcases List.eq_nil_or_concat second with rfl | ⟨second, other, rfl⟩
    · rfl
    · rw [List.concat_eq_append, ← List.cons_append, ← List.append_assoc, List.append_singleton_inj] at split
      exact absurd (split.1 ▸ List.mem_append_right _ List.mem_cons_self) (plain _ numbered)

theorem Streamed.ordinals_iff (streamed : Streamed left observations) :
    observations.map ordinal = List.range' 1 observations.length ↔
      observations.length < 2 ^ 64 ∧ (left = true →
        (∃ observation ∈ observations, isTerminalKind observation.kind = true) →
          observations.length = 2 ^ 64 - 1) := by
  rcases streamed with ⟨ordinals, plain⟩ | ⟨front, last, rfl, ⟨ordinals, _⟩, terminal, next⟩
  · have none : ¬ ∃ observation ∈ observations, isTerminalKind observation.kind = true := by
      simpa using plain
    rw [ordinals, counted_eq_range_iff]
    simp only [none, false_implies, implies_true, and_true]
  · have some : ∃ observation ∈ front ++ [last], isTerminalKind observation.kind = true := ⟨last, by simp, terminal⟩
    rw [List.map_append, List.map_singleton, ordinals, next, List.length_append, List.length_singleton,
      List.range'_1_concat, List.append_singleton_inj, counted_eq_range_iff]
    simp only [some, true_implies]
    cases left <;> simp <;> omega

end Streamed

variable {left : Bool}

theorem kept_started : Kept false (started runId generation) := by
  have numbered : Numbered (started runId generation).emitted :=
    ⟨by simp [started, emitted, counted], by simp [started, emitted, isTerminalKind]⟩
  refine ⟨.inl numbered, fun _ => ⟨numbered, by simp [started, emitted]⟩, fun _ => ?_, nofun⟩
  simp [started, emitted, payload, inHand, outputOf]

theorem Kept.moved (kept : Kept left host) {phase : ReaderPhase} {read : List UInt8} (running : host.phase ≠ .finished)
    (bytes : left = false → payload host.emitted ++ inHand phase = read)
    (ending : left = true → host.read = read ∧ (phase = .looping ∨ Ending phase)) :
    Kept left { host with phase, read } where
  streamed := kept.streamed
  going _ := kept.going running
  bytes := bytes
  ending gone := by
    obtain ⟨within, cancelled, _⟩ := kept.ending gone
    obtain ⟨same, where_⟩ := ending gone
    exact ⟨same ▸ within, cancelled, where_⟩

theorem emitted_enqueue (kind : HostObservationKind) (phase : ReaderPhase) :
    (host.enqueue runId generation kind phase).emitted =
      host.emitted ++ [⟨runId, generation, host.nextOrdinal, kind⟩] := by
  simp [emitted, enqueue]

theorem payload_append (first second : List HostObservation) :
    payload (first ++ second) = payload first ++ payload second :=
  List.flatMap_append

theorem outputOf_lastKind (exit : Option HostExitKind) : outputOf (lastKind exit) = [] := by
  cases exit with
  | none => rfl
  | some kind => cases kind <;> rfl

theorem isTerminalKind_lastKind (exit : Option HostExitKind) : isTerminalKind (lastKind exit) = true := by
  cases exit with
  | none => rfl
  | some kind => cases kind <;> rfl

/-- Once an output was left the reader only ends. -/
theorem Kept.whole (kept : Kept left host) (busy : host.phase ≠ .looping) (open_ : ¬Ending host.phase) :
    left = false := by
  cases left with
  | false => rfl
  | true =>
      obtain ⟨_, _, looping | ending⟩ := kept.ending rfl
      · exact absurd looping busy
      · exact absurd ending open_

theorem Kept.giveUp (kept : Kept false host) (running : host.phase ≠ .finished) (cancelled : host.shutdown = true) :
    Kept true (host.giveUp .looping) where
  streamed := .inl (kept.going running).1
  going _ := by
    obtain ⟨numbered, next⟩ := kept.going running
    refine ⟨numbered, ?_⟩
    change min (host.nextOrdinal + 1) (2 ^ 64 - 1) = min (host.emitted.length + 1 + 1) (2 ^ 64 - 1)
    rw [next, Bool.toNat_false]
    omega
  bytes := nofun
  ending _ := by
    have within : payload host.emitted <+: host.read := by
      rw [← kept.bytes rfl]
      exact List.prefix_append _ _
    exact ⟨within, cancelled, .inl rfl⟩

theorem Kept.enqueueOutput (kept : Kept false host) {bytes : List UInt8} (here : host.phase = .pushingOutput bytes) :
    Kept false (host.enqueue runId generation (.output bytes) .looping) := by
  obtain ⟨numbered, next⟩ := kept.going (by simp [here])
  have longer : Numbered (host.enqueue runId generation (.output bytes) .looping).emitted := by
    rw [emitted_enqueue]
    exact numbered.snoc rfl next
  refine ⟨.inl longer, fun _ => ⟨longer, ?_⟩, fun _ => ?_, nofun⟩
  · rw [emitted_enqueue, List.length_append, List.length_singleton]
    change min (host.nextOrdinal + 1) (2 ^ 64 - 1) = _
    rw [next, Bool.toNat_false]
    omega
  · have whole := kept.bytes rfl
    rw [here] at whole
    rw [emitted_enqueue, payload_append]
    simpa [payload, inHand, outputOf, enqueue] using whole

theorem Kept.pushOutput (kept : Kept left host) {bytes : List UInt8} (here : host.phase = .pushingOutput bytes) :
    Kept (left || host.leavesOutput) (host.push runId generation (.output bytes) false .looping) := by
  obtain rfl := kept.whole (by simp [here]) (by simp [here, Ending])
  simp only [push, leavesOutput, here, isTerminalKind, Bool.not_false, Bool.true_and, Bool.false_or]
  cases full : host.isFull (.output bytes) with
  | false => simpa using kept.enqueueOutput here
  | true =>
      cases cancelled : host.shutdown with
      | false => simpa using kept
      | true => simpa using kept.giveUp (by simp [here]) cancelled

theorem Kept.pushLast (kept : Kept left host) {exit : Option HostExitKind} (here : host.phase = .pushingLast exit) :
    Kept left (host.push runId generation (lastKind exit) true .finished) := by
  have past : host.push runId generation (lastKind exit) true .finished =
      host.enqueue runId generation (lastKind exit) .finished := by simp [push]
  obtain ⟨numbered, next⟩ := kept.going (by simp [here])
  have same : payload (host.enqueue runId generation (lastKind exit) .finished).emitted = payload host.emitted := by
    simp [emitted_enqueue, payload, outputOf_lastKind]
  rw [past]
  refine ⟨.inr ⟨_, _, emitted_enqueue _ _, numbered, isTerminalKind_lastKind exit, next⟩, nofun, fun whole => ?_,
    fun gone => ?_⟩
  · rw [same]
    simpa [here, inHand, enqueue] using kept.bytes whole
  · rw [same]
    obtain ⟨within, cancelled, _⟩ := kept.ending gone
    exact ⟨within, cancelled, .inr trivial⟩

theorem Kept.afterRead (kept : Kept left host) (here : host.phase = .reading) (outcome : Option (List UInt8))
    (exited : Option HostExitKind) : Kept left (host.afterRead outcome exited) := by
  have running : host.phase ≠ .finished := by simp [here]
  obtain rfl := kept.whole (by simp [here]) (by simp [here, Ending])
  have bytes : payload host.emitted = host.read := by simpa [here, inHand] using kept.bytes rfl
  unfold afterRead
  split
  all_goals
    apply kept.moved running
    · simp [inHand, bytes]
    · nofun

theorem Kept.step (kept : Kept left host) (event : HostEvent) :
    Kept (left || (event = .push && host.leavesOutput)) (host.step runId generation event) := by
  cases event with
  | check exited exitedLater =>
      simp only [ProcessHost.step, reduceCtorEq, decide_false, Bool.false_and, Bool.or_false]
      split
      next here =>
        apply kept.moved
        · simp [here]
        · intro whole
          have bytes : payload host.emitted = host.read := by simpa [here, inHand] using kept.bytes whole
          unfold afterCheck
          split
          next => simpa [inHand] using bytes
          next => simpa [inHand] using bytes
        · intro gone
          obtain ⟨_, cancelled, _⟩ := kept.ending gone
          simp [afterCheck, cancelled, Ending]
      next => exact kept
  | read outcome exited =>
      simp only [ProcessHost.step, reduceCtorEq, decide_false, Bool.false_and, Bool.or_false]
      split
      next here => exact kept.afterRead here outcome exited
      next => exact kept
  | push =>
      simp only [ProcessHost.step, decide_true, Bool.true_and]
      split
      next bytes here => exact kept.pushOutput here
      next exit here => simpa [leavesOutput, here] using kept.pushLast here
      next output last =>
        have stays : host.leavesOutput = false := by
          unfold leavesOutput
          split
          next bytes here => exact absurd here (output bytes)
          next => rfl
        simpa [stays] using kept
  | observe =>
      have same : (host.step runId generation .observe).emitted = host.emitted := by simp [ProcessHost.step, emitted]
      simp only [reduceCtorEq, decide_false, Bool.false_and, Bool.or_false]
      refine ⟨?_, ?_, ?_, ?_⟩
      all_goals rw [same]
      · exact kept.streamed
      · exact kept.going
      · exact kept.bytes
      · exact kept.ending
  | cancel =>
      simp only [reduceCtorEq, decide_false, Bool.false_and, Bool.or_false]
      refine ⟨kept.streamed, kept.going, kept.bytes, fun gone => ?_⟩
      obtain ⟨within, _, where_⟩ := kept.ending gone
      exact ⟨within, rfl, where_⟩

theorem Kept.run (kept : Kept left host) (events : List HostEvent) :
    Kept (left || givesUp runId generation host events) (run runId generation host events) := by
  induction events generalizing left host with
  | nil => simpa [givesUp, run] using kept
  | cons event events ih => simpa [givesUp, run, Bool.or_assoc] using ih (kept.step event)

/-- What the calls of `observe` returned, over every interleaving: the outputs are a beginning of what the child wrote
    and nothing follows a terminal observation. The ordinals have a gap exactly if the reader has left an output in
    front of a full queue and the terminal observation behind it was returned, up to where the counter saturates. -/
theorem observed_stream (runId : AgentRunId) (generation : BindingGeneration) (events : List HostEvent) :
    let host := run runId generation (started runId generation) events
    payload host.returned <+: host.read ∧
    (∀ earlier observation later, host.returned = earlier ++ observation :: later →
      isTerminalKind observation.kind = true → later = []) ∧
    (host.returned.map ordinal = List.range' 1 host.returned.length ↔
      host.returned.length < 2 ^ 64 ∧ (givesUp runId generation (started runId generation) events = true →
        (∃ observation ∈ host.returned, isTerminalKind observation.kind = true) →
          host.returned.length = 2 ^ 64 - 1)) := by
  intro host
  have kept : Kept (false || givesUp runId generation (started runId generation) events) host :=
    kept_started.run events
  rw [Bool.false_or] at kept
  have streamed := kept.streamed.front
  refine ⟨?_, fun earlier observation later split terminal => ?_, streamed.ordinals_iff⟩
  · have within : payload host.emitted <+: host.read := by
      cases gone : givesUp runId generation (started runId generation) events with
      | true => exact (kept.ending gone).1
      | false => exact kept.bytes gone ▸ List.prefix_append _ _
    refine List.IsPrefix.trans ?_ within
    rw [emitted, payload_append]
    exact List.prefix_append _ _
  · rw [split] at streamed
    exact streamed.nothing_follows terminal

def oneByte : List HostEvent := [.check none none, .read (some [0]) none, .push]

/-- The run is cancelled while the reader has an output in hand, and there is room for it. -/
theorem observed_stream_cancelled :
    (run 1 1 (started 1 1) (oneByte ++ [.check none none, .read (some [1]) none, .cancel, .push, .check none none, .push,
      .observe])).returned.map ordinal = [1, 2, 3, 4] :=
  (observed_stream 1 1 _).2.2.mpr ⟨by decide, fun left => by revert left; decide⟩

/-- The queue is full, the reader waits with one more output, and the run is cancelled: ordinal 257 is counted for an
    observation that is given up, and the terminal one has ordinal 258. -/
theorem cancel_leaves_a_gap :
    (run 1 1 (started 1 1) ((List.replicate 255 oneByte).flatten ++
      [.check none none, .read (some [0]) none, .cancel, .push, .check (some .failed) none, .push, .observe])).returned.map
        ordinal = List.range' 1 256 ++ [258] := by
  decide +kernel

/-- The counter is right, and the queue within its bounds; only the last observation passes them. -/
structure Bounded (host : ProcessHost) : Prop where
  counted : host.outputBytes = (payload host.items).length
  bytes : host.outputBytes ≤ maxQueuedOutputBytes
  items : host.items.length ≤ maxQueuedObservations + if host.phase = .finished then 1 else 0

theorem Bounded.moved (bounded : Bounded host) {phase : ReaderPhase} {read : List UInt8}
    (running : host.phase ≠ .finished) (going : phase ≠ .finished) : Bounded { host with phase, read } :=
  ⟨bounded.counted, bounded.bytes, by simpa [running, going] using bounded.items⟩

theorem Bounded.push (bounded : Bounded host) (running : host.phase ≠ .finished) {kind : HostObservationKind}
    {last : Bool} {phase : ReaderPhase} (terminal : isTerminalKind kind = last)
    (ends : last = true → outputOf kind = [] ∧ phase = .finished) (going : last = false → phase ≠ .finished) :
    Bounded (host.push runId generation kind last phase) := by
  obtain ⟨counted, bytes, items⟩ := bounded
  have grown : payload (host.items ++ [⟨runId, generation, host.nextOrdinal, kind⟩]) =
      payload host.items ++ outputOf kind := by simp [payload]
  unfold ProcessHost.push isFull enqueue giveUp
  constructor <;> grind

theorem Bounded.step (bounded : Bounded host) (event : HostEvent) : Bounded (host.step runId generation event) := by
  cases event with
  | observe => exact ⟨rfl, Nat.zero_le _, Nat.zero_le _⟩
  | cancel => exact ⟨bounded.counted, bounded.bytes, bounded.items⟩
  | check exited exitedLater =>
      simp only [ProcessHost.step]
      split
      next here => exact bounded.moved (by simp [here]) (by grind [afterCheck])
      next => exact bounded
  | read outcome exited =>
      simp only [ProcessHost.step]
      split
      next here =>
          unfold ProcessHost.afterRead
          split <;> exact bounded.moved (by simp [here]) nofun
      next => exact bounded
  | push =>
      simp only [ProcessHost.step]
      split
      next bytes here => exact bounded.push (by simp [here]) rfl nofun nofun
      next exit here =>
          exact bounded.push (by simp [here]) (isTerminalKind_lastKind exit) (fun _ => ⟨outputOf_lastKind exit, rfl⟩) nofun
      next => exact bounded

/-- Whatever the child writes and whenever the queue is drained: up to 256 observations wait, and behind them the last
one, with no more output than the queue may hold. -/
theorem queue_within_limits (runId : AgentRunId) (generation : BindingGeneration) (events : List HostEvent) :
    let host := run runId generation (started runId generation) events
    (payload host.items).length ≤ maxQueuedOutputBytes ∧
      host.items.length ≤ maxQueuedObservations + if host.phase = .finished then 1 else 0 := by
  have bounded (host : ProcessHost) (holds : Bounded host) : Bounded (run runId generation host events) := by
    induction events generalizing host with
    | nil => exact holds
    | cons event events ih => exact ih _ (holds.step event)
  have final := bounded (started runId generation) ⟨rfl, Nat.zero_le _, by simp [started, maxQueuedObservations]⟩
  exact ⟨final.counted ▸ final.bytes, final.items⟩

end ProcessHost

end Seyal.Agent.Backend
