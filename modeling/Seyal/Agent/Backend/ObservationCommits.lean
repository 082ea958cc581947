import Seyal.Agent.Backend.Observation
import Seyal.Program.Bytes

namespace Seyal.Agent.Backend

open Program Run ObservationAuthority HostObservation

/-! Batches of observations, committed to the authority and to the durable log together. -/

inductive EventContent where
  | payload (bytes : List UInt8)
  | output (bytes : List UInt8) (firstOrdinal lastOrdinal : Nat)
  deriving Repr, DecidableEq

structure StoredEvent where
  runId : AgentRunId
  content : EventContent
  deriving Repr, DecidableEq

inductive CommandError where
  | staleBinding
  | notFound
  | failed
  deriving Repr, DecidableEq

def mapObserve : ObserveError → CommandError
  | .staleGeneration => .staleBinding
  | .unknownAgentRun => .notFound
  | .outOfOrder | .conflict => .failed

/-- The authority, the durable events, and how many appends the store was asked for. -/
structure ObservationSession where
  authority : ObservationAuthority := {}
  events : List StoredEvent := []
  appends : Nat := 0

def absoluteMaxFrameSize : Nat := 64 * 1024
def replayResultOverhead : Nat := 16
def replayEventOverhead : Nat := 14
def outputRefLen : Nat := 83

def maxPayload : Nat := absoluteMaxFrameSize - replayResultOverhead - replayEventOverhead

def HostObservationKind.isOutput : HostObservationKind → Bool
  | .output _ => true
  | _ => false

def observationPayload (observation : HostObservation) : Option (List UInt8) :=
  (match observation.kind with
  | .started => some [1]
  | .progress step => some (2 :: le step)
  | .knownSuccess => some [3]
  | .knownFailure => some [4]
  | .harnessCrashed | .unknownLiveness => some [5]
  | .observationDisconnected => some [6]
  | .observationReconnected => some [7]
  | .output _ => none
  | .result bytes => some (9 :: (toLe 4 bytes.length ++ bytes))
  | .effectUnknown => some [10]
  | .delayed ticks => some (11 :: le ticks)).map (toLe 8 observation.ordinal ++ ·)

namespace ObservationSession

section Commits

variable (accepts : Nat → Bool) (bindings : Bindings)

/-- The store takes an event or refuses it, by `accepts`. -/
def append (event : StoredEvent) : Run ObservationSession CommandError Bool := do
  let session ← get
  set { session with
    appends := session.appends + 1
    events := if accepts session.appends then session.events ++ [event] else session.events }
  return accepts session.appends

def commitObservation (observation : HostObservation) : Run ObservationSession CommandError Unit := do
  let payload ← observationPayload observation
  check (refuse (maxPayload < payload.length) .failed)
  let session ← get
  let authority ← check ((session.authority.apply observation bindings).mapError mapObserve)
  set { session with authority := authority }
  if authority.appliedCount = session.authority.appliedCount then return
  if ← append accepts ⟨observation.runId, .payload payload⟩ then return
  modify fun after => { after with
    authority := after.authority.undoApply observation (session.authority.recordedLiveness observation.runId)
      session.authority.effectsPerformed }
  throw .failed

/-- What `commit_output_group` has applied so far, the latest first. -/
structure OutputGroup where
  authority : ObservationAuthority
  applied : List (HostObservation × Option RunLiveness × UInt64) := []
  joined : List UInt8 := []
  firstOrdinal : Option Nat := none
  lastOrdinal : Option Nat := none

open OutputGroup

def OutputGroup.undone (group : OutputGroup) : ObservationAuthority :=
  group.applied.foldl (fun authority entry => authority.undoApply entry.1 entry.2.1 entry.2.2) group.authority

def OutputGroup.push (group : OutputGroup) (observation : HostObservation) (authority : ObservationAuthority) :
    OutputGroup :=
  let applied := (observation, group.authority.recordedLiveness observation.runId,
    group.authority.effectsPerformed) :: group.applied
  match observation.kind with
  | .output bytes =>
      { authority, applied
        joined := group.joined ++ bytes
        firstOrdinal := group.firstOrdinal.or (some observation.ordinal)
        lastOrdinal := some observation.ordinal }
  | _ => { group with authority, applied }

def OutputGroup.takeAll (group : OutputGroup) : List HostObservation → OutputGroup × Option ObserveError
  | [] => (group, none)
  | observation :: rest =>
      match group.authority.apply observation bindings with
      | .error error => (group, some error)
      | .ok authority =>
          if authority.appliedCount = group.authority.appliedCount then takeAll { group with authority } rest
          else takeAll (group.push observation authority) rest

def commitOutputGroup (observations : List HostObservation) : Run ObservationSession CommandError Unit := do
  let session ← get
  let (group, error) := takeAll bindings { authority := session.authority } observations
  match error with
  | some error => do
      set { session with authority := group.undone }
      throw (mapObserve error)
  | none => do
      set { session with authority := group.authority }
      match group.applied.getLast? with
      | none => return
      | some (oldest, _) => do
          let first := group.firstOrdinal.getD oldest.ordinal
          let last := group.lastOrdinal.getD oldest.ordinal
          if maxPayload < outputRefLen then do
            set { session with authority := group.undone }
            throw .failed
          else do
            if ← append accepts ⟨oldest.runId, .output group.joined first last⟩ then return
            modify fun after => { after with authority := group.undone }
            throw .failed

/-- Whether the inner loop of `commit_observation_batch` goes on. -/
def joins (first next : HostObservation) : Bool :=
  first.kind.isOutput && next.runId = first.runId && next.kind.isOutput

def groupsFrom (first : HostObservation) (more : List HostObservation) :
    List HostObservation → List (List HostObservation)
  | [] => [first :: more]
  | next :: rest =>
      if joins first next then groupsFrom first (more ++ [next]) rest
      else (first :: more) :: groupsFrom next [] rest

def outputGroups : List HostObservation → List (List HostObservation)
  | [] => []
  | first :: rest => groupsFrom first [] rest

def commitGroup : List HostObservation → Run ObservationSession CommandError Unit
  | [] => return ()
  | first :: more =>
      if first.kind.isOutput then commitOutputGroup accepts bindings (first :: more)
      else commitObservation accepts bindings first

def commitObservationBatch (observations : List HostObservation) : Run ObservationSession CommandError Unit :=
  Run.forEach (commitGroup accepts bindings) (outputGroups observations)

end Commits

theorem flatten_groupsFrom (first : HostObservation) (more rest : List HostObservation) :
    (groupsFrom first more rest).flatten = first :: (more ++ rest) := by
  induction rest generalizing first more with
  | nil => simp [groupsFrom]
  | cons next rest ih =>
      rw [groupsFrom]
      split
      · rw [ih]
        simp
      · simp [ih]

theorem flatten_outputGroups (observations : List HostObservation) :
    (outputGroups observations).flatten = observations := by
  cases observations with
  | nil => rfl
  | cons first rest => exact flatten_groupsFrom first [] rest

def Joined (group : List HostObservation) : Prop :=
  ∃ first more, group = first :: more ∧ ∀ next ∈ more, joins first next = true

theorem joined_of_mem_groupsFrom {first : HostObservation} {more rest group : List HostObservation}
    (begun : ∀ next ∈ more, joins first next = true) (member : group ∈ groupsFrom first more rest) : Joined group := by
  induction rest generalizing first more with
  | nil => exact ⟨first, more, List.mem_singleton.mp member, begun⟩
  | cons next rest ih =>
      rw [groupsFrom] at member
      split at member
      next join =>
        apply ih _ member
        intro other listed
        rcases List.mem_append.mp listed with old | new
        · exact begun other old
        · exact List.mem_singleton.mp new ▸ join
      next =>
        rcases List.mem_cons.mp member with rfl | later
        · exact ⟨first, more, rfl, begun⟩
        · exact ih (List.forall_mem_nil _) later

theorem joined_of_mem_outputGroups {observations group : List HostObservation}
    (member : group ∈ outputGroups observations) : Joined group := by
  cases observations with
  | nil => cases member
  | cons first rest => exact joined_of_mem_groupsFrom (List.forall_mem_nil _) member

theorem Joined.cases {group : List HostObservation} (joined : Joined group) :
    (∃ observation, group = [observation] ∧ observation.kind.isOutput = false) ∨
      ∃ first more, group = first :: more ∧ (∀ other ∈ group, other.kind.isOutput = true) ∧
        ∀ other ∈ more, other.runId = first.runId := by
  obtain ⟨first, more, rfl, join⟩ := joined
  simp only [joins, Bool.and_eq_true, decide_eq_true_eq] at join
  cases output : first.kind.isOutput with
  | true =>
      refine .inr ⟨first, more, rfl, ?_, fun other later => (join other later).1.2⟩
      intro other member
      rcases List.mem_cons.mp member with rfl | later
      · exact output
      · exact (join other later).2
  | false =>
      cases more with
      | nil => exact .inl ⟨first, rfl, output⟩
      | cons next more =>
          have both := (join next List.mem_cons_self).1.1
          rw [output] at both
          cases both

/-- The event of observations that are committed together. -/
inductive Records : List HostObservation → StoredEvent → Prop where
  | payload {observation : HostObservation} {bytes : List UInt8} (encoded : observationPayload observation = some bytes) :
      Records [observation] ⟨observation.runId, .payload bytes⟩
  | output {first : HostObservation} {more : List HostObservation} {chunks : List (List UInt8)} {last : Nat}
      (run : ∀ other ∈ more, other.runId = first.runId)
      (bytes : (first :: more).map kind = chunks.map .output)
      (latest : (first :: more).getLast?.map ordinal = some last) :
      Records (first :: more) ⟨first.runId, .output chunks.flatten first.ordinal last⟩

/-- The session holds these groups: the authority in memory, and an event for each in the log. -/
structure Recorded (session : ObservationSession) (committed : List (List HostObservation)) : Prop where
  took : Took session.authority committed.flatten
  events : List.Forall₂ Records committed session.events

/-- The store was asked for one more event, and answered. -/
structure Asked (accepts : Nat → Bool) (session after : ObservationSession) (answer : Bool) : Prop where
  appends : after.appends = session.appends + 1
  answer : accepts session.appends = answer

def Grown (session : ObservationSession) (committed : List (List HostObservation)) (group : List HostObservation)
    (after : ObservationSession) : Prop :=
  session.appends ≤ after.appends ∧
    (after.Recorded committed ∨ ∃ fresh, fresh.Sublist group ∧ after.Recorded (committed ++ [fresh]))

section Steps

variable {accepts : Nat → Bool} {bindings : Bindings} {session : ObservationSession}
  {committed : List (List HostObservation)}

variable {fails : CommandError → ObservationSession → Prop} {observation : HostObservation}

theorem wp_append {event : StoredEvent} {post : Bool → ObservationSession → Prop}
    (stored : accepts session.appends = true →
      post true ⟨session.authority, session.events ++ [event], session.appends + 1⟩)
    (refused : accepts session.appends = false → post false ⟨session.authority, session.events, session.appends + 1⟩) :
    wp (append accepts event) post fails session := by
  simp only [append, wp_bind, wp_get, wp_set, wp_pure]
  cases answer : accepts session.appends with
  | true => exact stored answer
  | false => exact refused answer

theorem exists_payload (plain : observation.kind.isOutput = false) :
    ∃ payload, observationPayload observation = some payload := by
  cases kind : observation.kind with
  | output bytes =>
      rw [kind] at plain
      cases plain
  | _ => simp [observationPayload, kind]

theorem Asked.le {after : ObservationSession} {answer : Bool} (asked : Asked accepts session after answer) :
    session.appends ≤ after.appends :=
  asked.appends ▸ Nat.le_succ _

theorem Recorded.snoc {authority : ObservationAuthority} {fresh : List HostObservation} {event : StoredEvent}
    {appends : Nat} (recorded : session.Recorded committed)
    (took : Took authority (committed.flatten ++ fresh)) (records : Records fresh event) :
    Recorded ⟨authority, session.events ++ [event], appends⟩ (committed ++ [fresh]) where
  took := by simpa using took
  events := List.rel_append recorded.events (List.Forall₂.cons records .nil)

theorem wp_commitObservation_of_takes {payload : List UInt8} {post : Unit → ObservationSession → Prop}
    (recorded : session.Recorded committed) (encoded : observationPayload observation = some payload)
    (small : ¬ maxPayload < payload.length)
    (applied : session.authority.apply observation bindings = .ok (session.authority.accepted observation))
    (takes : session.authority.Takes observation)
    (stored : ∀ after, Asked accepts session after true → after.Recorded (committed ++ [[observation]]) → post () after)
    (refused : ∀ after, Asked accepts session after false → after.Recorded committed → fails .failed after) :
    wp (commitObservation accepts bindings observation) post fails session := by
  have more := appliedCount_accepted takes
  have undone := undoApply_accepted takes (recorded.took.positive observation.runId)
  simp only [commitObservation, encoded, wp_bind, wp_some]
  refine wp_check (fun _ _ => ?_) (fun _ bad => ?_)
  · rw [wp_get, applied]
    change wp (check (Except.ok _)) _ _ _
    refine wp_check (fun authority equal => ?_) (fun _ bad => by cases bad)
    cases equal
    rw [wp_set, if_neg (by omega)]
    simp only [wp_bind]
    refine wp_append (fun yes => ?_) (fun no => ?_)
    · exact stored _ ⟨rfl, yes⟩ (recorded.snoc (.next recorded.took takes) (.payload encoded))
    · refine refused _ ⟨rfl, no⟩ ⟨?_, recorded.events⟩
      change Took (undoApply _ _ _ _) _
      rw [undone]
      exact recorded.took
  · simp [refuse, small] at bad

theorem wp_commitObservation (recorded : session.Recorded committed) (plain : observation.kind.isOutput = false) :
    wp (commitObservation accepts bindings observation) (fun _ => Grown session committed [observation])
      (fun _ => Grown session committed [observation]) session := by
  have same : Grown session committed [observation] session := ⟨Nat.le_refl _, .inl recorded⟩
  obtain ⟨payload, encoded⟩ := exists_payload plain
  by_cases takes : session.authority.apply observation bindings = .ok (session.authority.accepted observation) ∧
      session.authority.Takes observation ∧ ¬ maxPayload < payload.length
  · obtain ⟨applied, takes, small⟩ := takes
    exact wp_commitObservation_of_takes recorded encoded small applied takes
      (fun _ asked holds => ⟨asked.le, .inr ⟨_, .refl _, holds⟩⟩) (fun _ asked holds => ⟨asked.le, .inl holds⟩)
  · simp only [commitObservation, encoded, wp_bind, wp_some]
    refine wp_check (fun _ small => ?_) (fun _ _ => same)
    rw [wp_get]
    refine wp_check (fun authority applied => ?_) (fun _ _ => same)
    have applied := mapError_eq_ok applied
    rw [wp_set]
    rcases apply_ok applied with ⟨rfl, _⟩ | ⟨rfl, new⟩
    · rw [if_pos rfl]
      exact same
    · exact absurd ⟨applied, new, refuse_eq_ok.mp small⟩ takes

/-- The loop over a group has applied `fresh` to an authority that had taken `before`. -/
structure OutputGroup.Holds (start : ObservationAuthority) (before : List HostObservation) (group : OutputGroup)
    (fresh : List HostObservation) : Prop where
  took : Took group.authority (before ++ fresh)
  undone : group.undone = start
  taken : group.applied.map Prod.fst = fresh.reverse
  joined : ∃ chunks : List (List UInt8), fresh.map kind = chunks.map .output ∧ group.joined = chunks.flatten
  first : group.firstOrdinal = fresh.head?.map ordinal
  last : group.lastOrdinal = fresh.getLast?.map ordinal

section Groups

variable {start : ObservationAuthority} {before fresh : List HostObservation} {group : OutputGroup}
  {observation : HostObservation}

theorem OutputGroup.holds_start (took : Took start before) :
    Holds start before { authority := start } [] where
  took := by simpa using took
  undone := rfl
  taken := rfl
  joined := ⟨[], rfl, rfl⟩
  first := rfl
  last := rfl

theorem OutputGroup.Holds.push {bytes : List UInt8} (holds : OutputGroup.Holds start before group fresh)
    (takes : group.authority.Takes observation) (output : observation.kind = .output bytes) :
    OutputGroup.Holds start before (group.push observation (group.authority.accepted observation))
      (fresh ++ [observation]) where
  took := by
    rw [← List.append_assoc]
    have next := Took.next holds.took takes
    simpa [OutputGroup.push, output] using next
  undone := by
    have back := undoApply_accepted takes (holds.took.positive observation.runId)
    have same := holds.undone
    simp only [OutputGroup.undone, OutputGroup.push, output, List.foldl_cons] at same ⊢
    rw [back, same]
  taken := by simp [OutputGroup.push, output, holds.taken]
  joined := by
    obtain ⟨chunks, kinds, joined⟩ := holds.joined
    exact ⟨chunks ++ [bytes], by simp [kinds, output], by simp [OutputGroup.push, output, joined]⟩
  first := by
    cases fresh with
    | nil | cons oldest fresh => simp [OutputGroup.push, output, holds.first]
  last := by simp [OutputGroup.push, output]

theorem exists_output {kind : HostObservationKind} (output : kind.isOutput = true) : ∃ bytes, kind = .output bytes := by
  cases kind with
  | output bytes => exact ⟨bytes, rfl⟩
  | _ => cases output

theorem OutputGroup.Holds.takeAll {observations : List HostObservation} (bindings : Bindings)
    (holds : Holds start before group fresh) (outputs : ∀ other ∈ observations, other.kind.isOutput = true) :
    ∃ more, more.Sublist observations ∧
      Holds start before (takeAll bindings group observations).1 (fresh ++ more) := by
  induction observations generalizing group fresh with
  | nil => exact ⟨[], .slnil, by simpa [takeAll] using holds⟩
  | cons observation rest ih =>
      have others : ∀ other ∈ rest, other.kind.isOutput = true :=
        (List.forall_mem_cons.mp outputs).2
      rw [takeAll]
      split
      next => exact ⟨[], List.nil_sublist _, by simpa using holds⟩
      next authority applied =>
        rcases apply_ok applied with ⟨rfl, _⟩ | ⟨rfl, takes⟩
        · obtain ⟨more, part, after⟩ := ih holds others
          rw [if_pos rfl]
          exact ⟨more, part.cons _, after⟩
        · have counted := appliedCount_accepted takes
          obtain ⟨bytes, output⟩ := exists_output (outputs observation List.mem_cons_self)
          obtain ⟨more, part, after⟩ := ih (holds.push takes output) others
          rw [if_neg (by omega)]
          exact ⟨observation :: more, part.cons_cons _, by simpa using after⟩

theorem OutputGroup.Holds.records {oldest : HostObservation} {more : List HostObservation}
    (holds : Holds start before group (oldest :: more)) (run : ∀ other ∈ more, other.runId = oldest.runId) :
    Records (oldest :: more) ⟨oldest.runId, .output group.joined (group.firstOrdinal.getD oldest.ordinal)
      (group.lastOrdinal.getD oldest.ordinal)⟩ := by
  obtain ⟨chunks, kinds, joined⟩ := holds.joined
  rw [joined, holds.first]
  apply Records.output run kinds
  rw [holds.last, List.getLast?_eq_some_getLast (List.cons_ne_nil oldest more)]
  rfl

end Groups

theorem wp_commitOutputGroup_of_taken {observations more : List HostObservation} {group : OutputGroup}
    {first : HostObservation} {post : Unit → ObservationSession → Prop}
    (recorded : session.Recorded committed)
    (taken : OutputGroup.takeAll bindings { authority := session.authority } observations = (group, none))
    (holds : OutputGroup.Holds session.authority committed.flatten group (first :: more))
    (run : ∀ other ∈ more, other.runId = first.runId)
    (stored : ∀ after, Asked accepts session after true → after.Recorded (committed ++ [first :: more]) → post () after)
    (refused : ∀ after, Asked accepts session after false → after.Recorded committed → fails .failed after) :
    wp (commitOutputGroup accepts bindings observations) post fails session := by
  have oldest : group.applied.getLast?.map Prod.fst = some first := by
    rw [← List.getLast?_map, holds.taken, List.getLast?_reverse]
    rfl
  obtain ⟨entry, found, rfl⟩ := Option.map_eq_some_iff.mp oldest
  simp only [commitOutputGroup, wp_bind, wp_get, taken, wp_set, found, show ¬ maxPayload < outputRefLen by decide,
    if_false]
  refine wp_append (fun yes => ?_) (fun no => ?_)
  · exact stored _ ⟨rfl, yes⟩ (recorded.snoc holds.took (holds.records run))
  · refine refused _ ⟨rfl, no⟩ ⟨?_, recorded.events⟩
    change Took group.undone _
    rw [holds.undone]
    exact recorded.took

theorem wp_commitOutputGroup {observations : List HostObservation} (runId : AgentRunId)
    (recorded : session.Recorded committed) (outputs : ∀ other ∈ observations, other.kind.isOutput = true)
    (run : ∀ other ∈ observations, other.runId = runId) :
    wp (commitOutputGroup accepts bindings observations) (fun _ => Grown session committed observations)
      (fun _ => Grown session committed observations) session := by
  obtain ⟨fresh, part, holds⟩ := (OutputGroup.holds_start recorded.took).takeAll bindings outputs
  rw [List.nil_append] at holds
  rcases taken : OutputGroup.takeAll bindings { authority := session.authority } observations with ⟨group, error⟩
  rw [taken] at holds
  cases error with
  | some error =>
      simp only [commitOutputGroup, wp_bind, wp_get, taken]
      refine ⟨Nat.le_refl _, .inl ⟨?_, recorded.events⟩⟩
      rw [holds.undone]
      exact recorded.took
  | none =>
      cases fresh with
      | nil =>
          have none : group.applied = [] := List.map_eq_nil_iff.mp holds.taken
          simp only [commitOutputGroup, wp_bind, wp_get, taken, wp_set, none]
          exact ⟨Nat.le_refl _, .inl ⟨by simpa using holds.took, recorded.events⟩⟩
      | cons first more =>
          refine wp_commitOutputGroup_of_taken recorded taken holds ?_
            (fun _ asked more => ⟨asked.le, .inr ⟨_, part, more⟩⟩) (fun _ asked same => ⟨asked.le, .inl same⟩)
          intro other member
          rw [run other (part.subset (List.mem_cons_of_mem _ member)), run first (part.subset List.mem_cons_self)]

theorem wp_commitGroup {group : List HostObservation} (recorded : session.Recorded committed) (joined : Joined group) :
    wp (commitGroup accepts bindings group) (fun _ => Grown session committed group)
      (fun _ => Grown session committed group) session := by
  rcases joined.cases with ⟨observation, rfl, plain⟩ | ⟨first, more, rfl, outputs, run⟩
  · rw [commitGroup, if_neg (by simp [plain])]
    exact wp_commitObservation recorded plain
  · rw [commitGroup, if_pos (outputs first List.mem_cons_self)]
    refine wp_commitOutputGroup first.runId recorded outputs ?_
    intro other member
    rcases List.mem_cons.mp member with rfl | later
    · rfl
    · exact run other later

def GrownBy (committed groups : List (List HostObservation)) (session : ObservationSession) : Prop :=
  ∃ more, List.SublistForall₂ List.Sublist more groups ∧ session.Recorded (committed ++ more)

theorem wp_commitGroups {groups : List (List HostObservation)} (recorded : session.Recorded committed)
    (joined : ∀ group ∈ groups, Joined group) :
    wp (Run.forEach (commitGroup accepts bindings) groups) (fun _ => GrownBy committed groups)
      (fun _ => GrownBy committed groups) session := by
  induction groups generalizing session committed with
  | nil => exact ⟨[], .nil, by simpa using recorded⟩
  | cons group groups ih =>
      have others : ∀ other ∈ groups, Joined other := (List.forall_mem_cons.mp joined).2
      change wp (commitGroup accepts bindings group >>= fun _ => Run.forEach (commitGroup accepts bindings) groups) _ _ _
      rw [wp_bind]
      refine wp_mono (wp_commitGroup recorded (joined group List.mem_cons_self)) (fun _ after grown => ?_)
        (fun _ after grown => ?_)
      · rcases grown.2 with same | ⟨fresh, part, more⟩
        · refine wp_mono (ih same others) ?_ ?_
          all_goals
            rintro _ last ⟨more, parts, holds⟩
            exact ⟨more, .cons_right parts, holds⟩
        · refine wp_mono (ih more others) ?_ ?_
          all_goals
            rintro _ last ⟨more, parts, holds⟩
            exact ⟨fresh :: more, .cons part parts, by simpa using holds⟩
      · rcases grown.2 with same | ⟨fresh, part, more⟩
        · exact ⟨[], .nil, by simpa using same⟩
        · exact ⟨[fresh], .cons part .nil, more⟩

end Steps

structure BatchCall where
  bindings : Bindings
  observations : List HostObservation

def commitAll (accepts : Nat → Bool) (session : ObservationSession) (calls : List BatchCall) :
    Option ObservationSession :=
  calls.foldlM (fun session call =>
    (commitObservationBatch accepts call.bindings call.observations session).map Prod.snd) session

/-- The parts of each batch that are committed. -/
abbrev Committed (calls : List BatchCall) (committed : List (List (List HostObservation))) : Prop :=
  List.Forall₂ (fun call groups => List.SublistForall₂ List.Sublist groups (outputGroups call.observations))
    calls committed

theorem commitAll_recorded {accepts : Nat → Bool} {session : ObservationSession}
    {earlier : List (List HostObservation)} (recorded : session.Recorded earlier) (calls : List BatchCall) :
    ∃ after committed, session.commitAll accepts calls = some after ∧ Committed calls committed ∧
      after.Recorded (earlier ++ committed.flatten) := by
  induction calls generalizing session earlier with
  | nil => exact ⟨session, [], rfl, .nil, by simpa using recorded⟩
  | cons call calls ih =>
      obtain ⟨outcome, middle, ran, groups, parts, holds⟩ := exists_of_wp
        (@wp_commitGroups accepts call.bindings _ _ _ recorded fun group => joined_of_mem_outputGroups)
      obtain ⟨after, committed, rest, batches, last⟩ := ih holds
      refine ⟨after, groups :: committed, ?_, .cons parts batches, by simpa using last⟩
      rw [commitAll, List.foldlM_cons, commitObservationBatch, ran]
      exact rest

/-- The log and the authority agree after any batches and any refused appends: the events record groups of
    observations, whose ordinals count up from one in each run, and the authority is what these observations make
    of an empty one. -/
theorem events_match_authority (accepts : Nat → Bool) (calls : List BatchCall) :
    ∃ after committed, commitAll accepts {} calls = some after ∧ Committed calls committed ∧
      List.Forall₂ Records committed.flatten after.events ∧
      after.authority = committed.flatten.flatten.foldl accepted {} ∧
      ∀ runId, ∃ count,
        (ofRun runId committed.flatten.flatten).map ordinal =
          List.range' 1 count ∧
        after.authority.nextExpectedOrdinal runId = count + 1 ∧
        ∀ ordinal kind, after.authority.applied.lookup (runId, ordinal) = some kind ↔
          ∃ observation ∈ committed.flatten.flatten,
            observation.runId = runId ∧ observation.ordinal = ordinal ∧ observation.kind = kind := by
  have start : Recorded {} [] := ⟨.nothing, .nil⟩
  obtain ⟨after, committed, ran, batches, recorded⟩ := commitAll_recorded start calls
  rw [List.nil_append] at recorded
  refine ⟨after, committed, ran, batches, recorded.events, recorded.took.eq_foldl, fun runId => ?_⟩
  exact ⟨_, recorded.took.ordinals runId, recorded.took.nextExpectedOrdinal_eq runId, recorded.took.lookup runId⟩

end ObservationSession

end Seyal.Agent.Backend
