import Seyal.Agent.Memory.Store
import Seyal.Program.Check

namespace Seyal.Agent.Memory

open Program

/-! Working sets of agent runs, and the total that is kept of their sizes. -/

abbrev RunWorkingSetId := Nat

inductive WorkingSetEntryClass where
  | userInstructionOrCorrection
  | modelVisibleAssistantMessage
  | contextBundleDependencyRef
  | memoryRecordDependencyRef
  | agentRunEventOrEvidenceRef
  | pendingActionOrResultRef
  | artifactRef
  | planOrTaskState
  | toolOrCapabilityObservation
  | providerContinuationRef
  | derivedSummaryOrCompaction
  deriving Repr, DecidableEq

inductive RetentionAvailability where
  | retainedPayload
  | reconstructableFromCurrentAuthority
  | referenceOnly
  | unavailable
  | revokedOrForbidden
  | expired
  | stale
  deriving Repr, DecidableEq

structure WorkingSetEntry where
  entryId : Nat
  entryClass : WorkingSetEntryClass
  availability : RetentionAvailability
  sensitivity : Sensitivity
  payload : Option (List UInt8)
  dependencyRef : List UInt8
  sourceGeneration : Nat
  reconstructable : Bool
  deriving Repr, DecidableEq

/-- What a working set and its row have in common. -/
structure WorkingSetColumns where
  id : RunWorkingSetId
  workItemId : Nat
  attemptId : Nat
  agentRunId : Nat
  workingSetGeneration : UInt64
  policyFence : List UInt8
  builderVersion : Nat
  createdAtUnixMs : Nat
  lastCompactedAtUnixMs : Option Nat
  providerContinuationRef : Option (List UInt8)
  degraded : Bool
  deriving Repr, DecidableEq

structure RunWorkingSet extends WorkingSetColumns where
  entries : List WorkingSetEntry
  deriving Repr, DecidableEq

open RunWorkingSet

def RunWorkingSet.byteFootprint (set : RunWorkingSet) : Nat :=
  (set.entries.map fun entry => (entry.payload.map List.length).getD 0 + entry.dependencyRef.length + 64).sum

def maxWorkingSetEntries : Nat := 4096
def maxWorkingSetBytes : Nat := 16 * 1024 * 1024
def maxWorkingSetAggregateBytes : Nat := 128 * 1024 * 1024

inductive WorkingSetError where
  | memory (error : MemoryError)
  | aliasDenied
  | capExceeded
  | notFound
  | staleGeneration
  deriving Repr, DecidableEq

structure WorkingSetRow extends WorkingSetColumns where
  encodedBytes : Nat
  current : Bool
  deriving Repr, DecidableEq

/-- The order in which a database returns rows. -/
structure Scan where
  order : List WorkingSetEntry → List WorkingSetEntry
  perm : ∀ entries, (order entries).Perm entries

/-- The same working set, with its entries in any order. -/
def RunWorkingSet.Alike (first second : RunWorkingSet) : Prop :=
  first.toWorkingSetColumns = second.toWorkingSetColumns ∧ first.entries.Perm second.entries

/-- `run_working_set`, `run_working_set_entry` and the total in `memory_store_meta`. -/
structure WorkingSets where
  sets : List WorkingSetRow := []
  entries : List (RunWorkingSetId × WorkingSetEntry) := []
  aggregateWorkingSetBytes : Nat := 0

open WorkingSets

namespace WorkingSets

variable (store : WorkingSets)

def row? (id : RunWorkingSetId) : Option WorkingSetRow := store.sets.find? fun row => row.id = id

def retired (agentRunId : Nat) : List WorkingSetRow :=
  store.sets.map fun row => if row.agentRunId = agentRunId then { row with current := false } else row

def replaced (rows : List WorkingSetRow) (row : WorkingSetRow) : List WorkingSetRow :=
  row :: rows.filter fun other =>
    other.id ≠ row.id && !(row.current && other.current && other.agentRunId = row.agentRunId)

def rowOf (set : RunWorkingSet) : WorkingSetRow :=
  { set.toWorkingSetColumns with encodedBytes := set.byteFootprint, current := true }

def written (set : RunWorkingSet) : WorkingSets where
  sets := replaced (store.retired set.agentRunId) (rowOf set)
  entries := store.entries.filter (fun entry => entry.1 ≠ set.id) ++ set.entries.map fun entry => (set.id, entry)
  aggregateWorkingSetBytes := store.aggregateWorkingSetBytes + set.byteFootprint

/-- `refused` is a failure of the file at any point: the transaction is then undone. -/
def putWorkingSet (refused : Bool) (set : RunWorkingSet) : Except WorkingSetError (RunWorkingSet × WorkingSets) := do
  refuse (maxWorkingSetEntries < set.entries.length) .capExceeded
  refuse (maxWorkingSetBytes < set.byteFootprint) .capExceeded
  refuse (∃ row ∈ store.row? set.id, row.agentRunId ≠ set.agentRunId) .aliasDenied
  refuse (maxWorkingSetAggregateBytes < store.aggregateWorkingSetBytes + set.byteFootprint) .capExceeded
  -- Two entries under one key violate the primary key of the table of entries.
  refuse (refused = true ∨ ¬ (set.entries.map WorkingSetEntry.entryId).Nodup) (.memory (.store .writeFailed))
  return (set, store.written set)

/-- The order of the rows is the database's: the query of the entries asks for none. -/
def getWorkingSet (scan : Scan) (id : RunWorkingSetId) : Option RunWorkingSet :=
  (store.row? id).map fun row =>
    { row.toWorkingSetColumns with
      entries := scan.order ((store.entries.filter fun entry => entry.1 = id).map Prod.snd) }

def nextGeneration (generation : UInt64) : Option UInt64 :=
  if generation.toNat + 1 < 2 ^ 64 then some (generation + 1) else none

def abandonProviderContinuation (scan : Scan) (refused : Bool) (id : RunWorkingSetId) (expected : UInt64) :
    Except WorkingSetError (RunWorkingSet × WorkingSets) := do
  let set ← orRefuse (store.getWorkingSet scan id) .notFound
  refuse (set.workingSetGeneration ≠ expected) .staleGeneration
  let next ← orRefuse (nextGeneration expected) (.memory .invalidInput)
  store.putWorkingSet refused { set with providerContinuationRef := none, workingSetGeneration := next }

end WorkingSets

inductive WorkingSetCall where
  | put (refused : Bool) (set : RunWorkingSet)
  | abandon (scan : Scan) (refused : Bool) (id : RunWorkingSetId) (expected : UInt64)

def WorkingSets.call (store : WorkingSets) : WorkingSetCall → Except WorkingSetError (RunWorkingSet × WorkingSets)
  | .put refused set => store.putWorkingSet refused set
  | .abandon scan refused id expected => store.abandonProviderContinuation scan refused id expected

/-- The store, and what was put into it, the latest first. -/
structure WorkingSetHistory where
  store : WorkingSets := {}
  puts : List RunWorkingSet := []

namespace WorkingSetHistory

variable (history : WorkingSetHistory)

def perform (call : WorkingSetCall) : WorkingSetHistory :=
  match history.store.call call with
  | .ok (set, store) => ⟨store, set :: history.puts⟩
  | .error _ => history

def play (calls : List WorkingSetCall) : WorkingSetHistory := calls.foldl perform history

def lastPut (id : RunWorkingSetId) : Option RunWorkingSet := history.puts.find? fun set => set.id = id

def lastPutFor (agentRunId : Nat) : Option RunWorkingSet := history.puts.find? fun set => set.agentRunId = agentRunId

structure Puts (call : WorkingSetCall) (set : RunWorkingSet) : Prop where
  owner : ∀ row ∈ history.store.row? set.id, row.agentRunId = set.agentRunId
  later : (∃ refused, call = .put refused set ∧ ∃ made, history.store.putWorkingSet refused set = .ok made) ∨
    ∀ row ∈ history.store.row? set.id, row.workingSetGeneration ≤ set.workingSetGeneration

variable {history} {call : WorkingSetCall}

variable {set : RunWorkingSet} {id : RunWorkingSetId}

theorem putWorkingSet_ok {store after : WorkingSets} {refused : Bool} {value : RunWorkingSet}
    (put : store.putWorkingSet refused set = .ok (value, after)) :
    value = set ∧ after = store.written set ∧ ∀ row ∈ store.row? set.id, row.agentRunId = set.agentRunId := by
  simp only [putWorkingSet, refuse_bind_eq_ok, pure_eq_ok, Prod.mk.injEq, not_exists, not_and,
    Decidable.not_not] at put
  obtain ⟨_, _, owner, _, _, rfl, rfl⟩ := put
  exact ⟨rfl, rfl, owner⟩

theorem nextGeneration_le {generation next : UInt64} (found : nextGeneration generation = some next) :
    generation ≤ next := by
  unfold nextGeneration at found
  split at found
  next fits =>
    cases found
    rw [UInt64.le_iff_toNat_le, UInt64.toNat_add, UInt64.toNat_one, Nat.mod_eq_of_lt fits]
    omega
  next => cases found

theorem perform_cases (history : WorkingSetHistory) (call : WorkingSetCall) :
    history.perform call = history ∨
      ∃ set, history.Puts call set ∧ history.perform call = ⟨history.store.written set, set :: history.puts⟩ := by
  unfold perform
  split
  next set store called =>
    right
    cases call with
    | put refused given =>
        obtain ⟨rfl, rfl, owner⟩ := putWorkingSet_ok called
        exact ⟨set, ⟨owner, .inl ⟨refused, rfl, _, called⟩⟩, rfl⟩
    | abandon scan refused id expected =>
        simp only [call, abandonProviderContinuation, bind_eq_ok, orRefuse_eq_ok,
          refuse_eq_ok, Decidable.not_not] at called
        obtain ⟨found, got, _, same, next, later, put⟩ := called
        obtain ⟨rfl, rfl, owner⟩ := putWorkingSet_ok put
        refine ⟨_, ⟨owner, .inr ?_⟩, rfl⟩
        intro row stored
        obtain ⟨kept, held, rfl⟩ := Option.map_eq_some_iff.mp got
        have named : kept.id = id := by simpa using List.find?_some held
        have equal : kept = row := by
          rw [row?, ← named] at held
          exact Option.some.inj (held.symm.trans stored)
        change kept.workingSetGeneration = expected at same
        rw [← equal, same]
        exact nextGeneration_le later
  next => exact .inl rfl

def rowNow (history : WorkingSetHistory) (set : RunWorkingSet) : WorkingSetRow :=
  { rowOf set with
    current := ((history.lastPutFor set.agentRunId).map fun last => last.id) = some set.id }

/-- The tables hold what was put last under each key. -/
structure Kept (history : WorkingSetHistory) : Prop where
  rows : ∀ row, row ∈ history.store.sets ↔ ∃ set, history.lastPut row.id = some set ∧ row = history.rowNow set
  distinct : (history.store.sets.map fun row => row.id).Nodup
  entries : ∀ id set, history.lastPut id = some set →
    (history.store.entries.filter fun entry => entry.1 = id).map Prod.snd = set.entries
  owners : ∀ first ∈ history.puts, ∀ second ∈ history.puts, first.id = second.id →
    first.agentRunId = second.agentRunId
  total : history.store.aggregateWorkingSetBytes = (history.puts.map byteFootprint).sum
  exact_ : (history.puts.map fun set => set.id).Nodup →
    (history.store.sets.map WorkingSetRow.encodedBytes).sum = (history.puts.map byteFootprint).sum

theorem kept_empty : Kept {} where
  rows row := by simp [lastPut]
  distinct := List.nodup_nil
  entries id set found := by simp [lastPut] at found
  owners first member := absurd member List.not_mem_nil
  total := rfl
  exact_ _ := rfl

theorem lastPut_id (found : history.lastPut id = some set) :
    set.id = id := by
  simpa using List.find?_some found

theorem Kept.row? (kept : Kept history) (id : RunWorkingSetId) :
    history.store.row? id = (history.lastPut id).map history.rowNow := by
  cases found : history.lastPut id with
  | none =>
      rw [Option.map_none, WorkingSets.row?, List.find?_eq_none]
      intro row member
      obtain ⟨set, last, rfl⟩ := (kept.rows row).mp member
      intro named
      rw [of_decide_eq_true named, found] at last
      cases last
  | some set =>
      have named := lastPut_id found
      have member : history.rowNow set ∈ history.store.sets := (kept.rows _).mpr ⟨set, named ▸ found, rfl⟩
      cases stored : history.store.row? id with
      | none => exact absurd (List.find?_eq_none.mp stored _ member) (by simpa [rowNow, WorkingSets.rowOf] using named)
      | some row =>
          obtain ⟨other, last, rfl⟩ := (kept.rows row).mp (List.mem_of_find?_eq_some stored)
          have key : (history.rowNow other).id = id := by simpa using List.find?_some stored
          rw [key, found] at last
          cases last
          rfl

/-- The filter of `INSERT OR REPLACE` takes only the row of the same key: no other of the run is current by then. -/
theorem written_sets (store : WorkingSets) (set : RunWorkingSet) :
    (store.written set).sets =
      rowOf set :: (store.retired set.agentRunId).filter fun other => other.id ≠ set.id := by
  refine congrArg _ (List.filter_congr fun other member => ?_)
  obtain ⟨row, _, rfl⟩ := List.mem_map.mp member
  by_cases same : row.agentRunId = set.agentRunId <;> simp [same, rowOf]

section Written

variable {set : RunWorkingSet}

def put (history : WorkingSetHistory) (set : RunWorkingSet) : WorkingSetHistory :=
  ⟨history.store.written set, set :: history.puts⟩

theorem lastPut_put (id : RunWorkingSetId) :
    (history.put set).lastPut id = if set.id = id then some set else history.lastPut id := by
  simp only [lastPut, put, List.find?_cons]
  by_cases same : set.id = id <;> simp [same]

theorem rowNow_put {other : RunWorkingSet} (different : other.id ≠ set.id) :
    (history.put set).rowNow other =
      if other.agentRunId = set.agentRunId then { history.rowNow other with current := false }
      else history.rowNow other := by
  simp only [rowNow, lastPutFor, put, List.find?_cons]
  by_cases same : other.agentRunId = set.agentRunId
  · simp [same, different.symm]
  · simp [same, Ne.symm same]

theorem rowNow_put_self : (history.put set).rowNow set = rowOf set := by
  simp [rowNow, lastPutFor, put, rowOf]

theorem Kept.rows_put (kept : Kept history) (row : WorkingSetRow) :
    row ∈ (history.put set).store.sets ↔
      ∃ found, (history.put set).lastPut row.id = some found ∧ row = (history.put set).rowNow found := by
  change row ∈ (history.store.written set).sets ↔ _
  rw [written_sets, List.mem_cons, List.mem_filter]
  by_cases same : row.id = set.id
  · rw [lastPut_put, if_pos same.symm]
    simp [same, rowNow_put_self]
  · rw [lastPut_put, if_neg (Ne.symm same)]
    have other : row ≠ rowOf set := by
      rintro rfl
      exact same rfl
    simp only [other, false_or, retired, List.mem_map, ne_eq, same, not_false_eq_true, decide_true,
      and_true]
    constructor
    · rintro ⟨old, member, rfl⟩
      obtain ⟨found, last, rfl⟩ := (kept.rows old).mp member
      have key : found.id ≠ set.id := by
        intro equal
        apply same
        split <;> exact equal
      refine ⟨found, ?_, (rowNow_put key).symm⟩
      split <;> exact last
    · rintro ⟨found, last, equal⟩
      have named := lastPut_id last
      rw [rowNow_put (named ▸ same)] at equal
      exact ⟨history.rowNow found, (kept.rows _).mpr ⟨found, named ▸ last, rfl⟩, equal.symm⟩

theorem retired_map {β : Type} (view : WorkingSetRow → β)
    (blind : ∀ row : WorkingSetRow, view { row with current := false } = view row) (agentRunId : Nat) :
    (history.store.retired agentRunId).map view = history.store.sets.map view := by
  rw [retired, List.map_map]
  apply List.map_congr_left
  intro row _
  change view (if _ then _ else _) = view row
  split
  · exact blind row
  · rfl

theorem Kept.put (kept : Kept history)
    (owner : ∀ row ∈ history.store.row? set.id, row.agentRunId = set.agentRunId) : Kept (history.put set) where
  rows := kept.rows_put
  distinct := by
    change ((history.store.written set).sets.map _).Nodup
    rw [written_sets, List.map_cons, List.nodup_cons]
    constructor
    · simp [rowOf]
    · have all : ((history.store.retired set.agentRunId).map fun row => row.id).Nodup := by
        rw [retired_map _ fun _ => rfl]
        exact kept.distinct
      exact all.sublist (List.filter_sublist.map _)
  entries id found last := by
    rw [lastPut_put] at last
    change ((history.store.entries.filter _ ++ set.entries.map _).filter _).map _ = _
    rw [List.filter_append, List.filter_filter, List.map_append]
    by_cases same : set.id = id
    · rw [if_pos same] at last
      cases last
      subst same
      simp [List.filter_map, Function.comp_def]
    · rw [if_neg same] at last
      have kept_ : (history.store.entries.filter fun entry => decide (entry.1 = id) && decide (entry.1 ≠ set.id)) =
          history.store.entries.filter fun entry => entry.1 = id := by
        apply List.filter_congr
        intro entry _
        by_cases here : entry.1 = id
        · simp [here, Ne.symm same]
        · simp [here]
      simp only [kept_, List.filter_map, Function.comp_def, same, decide_false, List.filter_false, List.map_nil,
        List.append_nil]
      exact kept.entries id found last
  owners first firstMember second secondMember same := by
    have earlier : ∀ other ∈ history.puts, other.id = set.id → other.agentRunId = set.agentRunId := by
      intro other member named
      have present : (history.lastPut set.id).isSome := by
        rw [lastPut, List.find?_isSome]
        exact ⟨other, member, by simpa using named⟩
      obtain ⟨last, found⟩ := Option.isSome_iff_exists.mp present
      have stored := owner (history.rowNow last) (by rw [kept.row?, found]; rfl)
      have also := kept.owners other member last (List.mem_of_find?_eq_some found) (named.trans (lastPut_id found).symm)
      exact also.trans stored
    rcases List.mem_cons.mp firstMember with rfl | firstOld
    · rcases List.mem_cons.mp secondMember with rfl | secondOld
      · rfl
      · exact (earlier second secondOld same.symm).symm
    · rcases List.mem_cons.mp secondMember with rfl | secondOld
      · exact earlier first firstOld same
      · exact kept.owners first firstOld second secondOld same
  total := by
    change history.store.aggregateWorkingSetBytes + set.byteFootprint = _
    rw [kept.total, WorkingSetHistory.put, List.map_cons, List.sum_cons, Nat.add_comm]
  exact_ fresh := by
    obtain ⟨new, rest⟩ := List.nodup_cons.mp fresh
    change ((history.store.written set).sets.map _).sum = _
    have all : (history.store.retired set.agentRunId).filter (fun other => other.id ≠ set.id) =
        history.store.retired set.agentRunId := by
      rw [List.filter_eq_self]
      intro row member
      obtain ⟨old, stored, rfl⟩ := List.mem_map.mp member
      obtain ⟨found, last, rfl⟩ := (kept.rows old).mp stored
      have other : found.id ≠ set.id := by
        intro equal
        exact new (List.mem_map.mpr ⟨found, List.mem_of_find?_eq_some last, equal⟩)
      split <;> simpa [rowNow, rowOf] using other
    rw [written_sets, all, List.map_cons, List.sum_cons, retired_map _ fun _ => rfl, kept.exact_ rest]
    rfl

end Written

theorem Kept.perform (kept : Kept history) (call : WorkingSetCall) : Kept (history.perform call) := by
  rcases perform_cases history call with same | ⟨set, puts, after⟩
  · rw [same]
    exact kept
  · rw [after]
    exact kept.put puts.owner

theorem kept_play (calls : List WorkingSetCall) : Kept (play {} calls) := by
  suffices holds : ∀ history, Kept history → Kept (history.play calls) from holds _ kept_empty
  induction calls with
  | nil => exact fun history kept => kept
  | cons call calls ih => exact fun history kept => ih _ (kept.perform call)

theorem find?_agree {α : Type} {p q : α → Bool} {items : List α} {a b : α} (first : items.find? p = some a)
    (second : items.find? q = some b) (also : q a = true) (too : p b = true) : a = b := by
  induction items with
  | nil => cases first
  | cons item items ih =>
      rw [List.find?_cons] at first second
      split at first
      next holds =>
        cases first
        rw [also] at second
        exact Option.some.inj second
      next fails =>
        split at second
        next holds =>
          cases second
          rw [fails] at too
          cases too
        next => exact ih first second

theorem Kept.lastPut_of_run (kept : Kept history) {agentRunId : Nat} (last : history.lastPutFor agentRunId = some set) :
    history.lastPut set.id = some set := by
  have member := List.mem_of_find?_eq_some last
  have present : (history.lastPut set.id).isSome := by
    rw [lastPut, List.find?_isSome]
    exact ⟨set, member, by simp⟩
  obtain ⟨found, same⟩ := Option.isSome_iff_exists.mp present
  have owned := kept.owners found (List.mem_of_find?_eq_some same) set member (lastPut_id same)
  have run : set.agentRunId = agentRunId := by simpa using List.find?_some last
  rw [same, find?_agree last same (by simp) (by simpa [owned] using run)]

theorem Kept.current (kept : Kept history) (agentRunId : Nat) (row : WorkingSetRow) :
    row ∈ history.store.sets ∧ row.agentRunId = agentRunId ∧ row.current = true ↔
      ∃ set, history.lastPutFor agentRunId = some set ∧ row = rowOf set := by
  constructor
  · rintro ⟨member, owned, isCurrent⟩
    obtain ⟨found, last, rfl⟩ := (kept.rows row).mp member
    change found.agentRunId = agentRunId at owned
    obtain ⟨set, newest, same⟩ := Option.map_eq_some_iff.mp (of_decide_eq_true isCurrent)
    have equal := kept.lastPut_of_run newest
    change history.lastPut found.id = some found at last
    rw [same, last] at equal
    cases equal
    refine ⟨found, owned ▸ newest, ?_⟩
    simp [rowNow, newest, rowOf]
  · rintro ⟨set, newest, rfl⟩
    have run : set.agentRunId = agentRunId := by simpa using List.find?_some newest
    have now : history.rowNow set = rowOf set := by simp [rowNow, run, newest, rowOf]
    exact ⟨(kept.rows _).mpr ⟨set, kept.lastPut_of_run newest, now.symm⟩, run, rfl⟩

theorem Kept.getWorkingSet (kept : Kept history) (scan : Scan) (id : RunWorkingSetId) :
    Option.Rel Alike (history.store.getWorkingSet scan id) (history.lastPut id) := by
  rw [WorkingSets.getWorkingSet, kept.row?]
  cases found : history.lastPut id with
  | none => exact .none
  | some set =>
      rw [Option.map_some, Option.map_some, kept.entries id set found]
      exact .some ⟨rfl, scan.perm set.entries⟩

/-- The call does not put a working set under a stored key with a smaller generation; where it fails, it may try. -/
def Keeps (history : WorkingSetHistory) (call : WorkingSetCall) : Prop :=
  ∀ refused set made, call = .put refused set → history.store.putWorkingSet refused set = .ok made →
    ∀ row ∈ history.store.row? set.id, row.workingSetGeneration ≤ set.workingSetGeneration

def Fenced (history : WorkingSetHistory) : List WorkingSetCall → Prop
  | [] => True
  | call :: calls => history.Keeps call ∧ (history.perform call).Fenced calls

theorem generation_perform (kept : Kept history) {old : RunWorkingSet} (keeps : history.Keeps call)
    (stored : history.lastPut id = some old) :
    ∃ new, (history.perform call).lastPut id = some new ∧ old.workingSetGeneration ≤ new.workingSetGeneration := by
  rcases perform_cases history call with same | ⟨set, puts, after⟩
  · exact ⟨old, by rw [same, stored], UInt64.le_refl _⟩
  · change history.perform call = history.put set at after
    rw [after, lastPut_put]
    by_cases named : set.id = id
    · have row : history.store.row? set.id = some (history.rowNow old) := by rw [kept.row?, named, stored]; rfl
      rw [if_pos named]
      refine ⟨set, rfl, ?_⟩
      rcases puts.later with ⟨refused, called, made, stores⟩ | later
      · exact keeps refused set made called stores _ row
      · exact later _ row
    · rw [if_neg named]
      exact ⟨old, stored, UInt64.le_refl _⟩

theorem generation_play {calls : List WorkingSetCall} (kept : Kept history) (fenced : history.Fenced calls)
    {old : RunWorkingSet} (stored : history.lastPut id = some old) :
    ∃ new, (history.play calls).lastPut id = some new ∧ old.workingSetGeneration ≤ new.workingSetGeneration := by
  induction calls generalizing history old with
  | nil => exact ⟨old, stored, UInt64.le_refl _⟩
  | cons call calls ih =>
      obtain ⟨middle, held, atLeast⟩ := generation_perform kept fenced.1 stored
      obtain ⟨new, last, further⟩ := ih (kept.perform call) fenced.2 held
      exact ⟨new, last, UInt64.le_trans atLeast further⟩

/-- What the tables hold after any calls. The total counts every put and takes nothing back for a row that was
    replaced, and only `abandonProviderContinuation` looks at the stored generation. -/
theorem workingSets_after_calls (calls later : List WorkingSetCall) :
    ((play {} calls).store.aggregateWorkingSetBytes =
      ((play {} calls).puts.map byteFootprint).sum) ∧
    (((play {} calls).puts.map fun set => set.id).Nodup →
      (play {} calls).store.aggregateWorkingSetBytes =
        ((play {} calls).store.sets.map WorkingSetRow.encodedBytes).sum) ∧
    (∀ agentRunId row,
      row ∈ (play {} calls).store.sets ∧ row.agentRunId = agentRunId ∧ row.current = true ↔
        ∃ set, (play {} calls).lastPutFor agentRunId = some set ∧ row = rowOf set) ∧
    ((play {} calls).Fenced later → ∀ id old, (play {} calls).store.row? id = some old →
      ∃ new, (play {} (calls ++ later)).store.row? id = some new ∧
        old.workingSetGeneration ≤ new.workingSetGeneration) ∧
    ∀ scan id, Option.Rel Alike ((play {} calls).store.getWorkingSet scan id)
      ((play {} calls).lastPut id) := by
  have kept := kept_play calls
  refine ⟨kept.total, fun fresh => kept.total.trans (kept.exact_ fresh).symm, kept.current, ?_, kept.getWorkingSet⟩
  intro fenced id old stored
  rw [kept.row?] at stored
  obtain ⟨set, last, rfl⟩ := Option.map_eq_some_iff.mp stored
  obtain ⟨new, newest, atLeast⟩ := generation_play kept fenced last
  have after : play {} (calls ++ later) = (play {} calls).play later := List.foldl_append
  refine ⟨(play {} (calls ++ later)).rowNow new, ?_, atLeast⟩
  rw [(kept_play _).row?, after, newest]
  rfl

def oneEntry (generation : UInt64) : RunWorkingSet where
  id := 1
  workItemId := 1
  attemptId := 1
  agentRunId := 1
  workingSetGeneration := generation
  policyFence := []
  builderVersion := 1
  createdAtUnixMs := 0
  lastCompactedAtUnixMs := none
  providerContinuationRef := none
  degraded := false
  entries := [⟨1, .planOrTaskState, .referenceOnly, .public, none, [], 0, false⟩]

/-- The continuation is abandoned under the next generation. -/
theorem workingSets_after_abandon :
    (play {} [.put false (oneEntry 2)]).store.aggregateWorkingSetBytes =
      ((play {} [.put false (oneEntry 2)]).store.sets.map WorkingSetRow.encodedBytes).sum ∧
    ∃ new, (play {} ([.put false (oneEntry 2)] ++
        [.abandon ⟨List.reverse, List.reverse_perm⟩ false 1 2])).store.row? 1 = some new ∧
      2 ≤ new.workingSetGeneration := by
  obtain ⟨_, total, _, generation, _⟩ :=
    workingSets_after_calls [.put false (oneEntry 2)] [.abandon ⟨List.reverse, List.reverse_perm⟩ false 1 2]
  refine ⟨total (by decide +kernel), ?_⟩
  exact generation ⟨fun _ _ _ other => (by cases other), trivial⟩ 1 (rowOf (oneEntry 2)) (by decide +kernel)

/-- A second put under the same key is counted twice, and may carry an older generation. -/
theorem replaced_workingSet_is_counted_twice :
    (play {} [.put false (oneEntry 2)]).store.row? 1 = some (rowOf (oneEntry 2)) ∧
    (play {} [.put false (oneEntry 2), .put false (oneEntry 1)]).store.row? 1 =
      some (rowOf (oneEntry 1)) ∧
    (play {} [.put false (oneEntry 2), .put false (oneEntry 1)]).store.aggregateWorkingSetBytes = 128 ∧
    ((play {} [.put false (oneEntry 2), .put false (oneEntry 1)]).store.sets.map
      WorkingSetRow.encodedBytes).sum = 64 := by
  decide +kernel

end WorkingSetHistory

end Seyal.Agent.Memory
