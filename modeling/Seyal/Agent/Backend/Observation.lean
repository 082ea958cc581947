import Mathlib.Data.Finmap
import Seyal.Program.Check

namespace Seyal.Agent.Backend

open Program

/-! What a host reports of a run, and the authority that takes the reports of each run in order. -/

abbrev AgentRunId := Nat
abbrev BindingGeneration := Nat

abbrev Bindings := AgentRunId → Option BindingGeneration

inductive HostObservationKind where
  | started
  | progress (step : UInt64)
  | result (bytes : List UInt8)
  | knownFailure
  | knownSuccess
  | observationDisconnected
  | observationReconnected
  | harnessCrashed
  | unknownLiveness
  | effectUnknown
  | output (bytes : List UInt8)
  | delayed (ticks : UInt64)
  deriving Repr, DecidableEq

structure HostObservation where
  runId : AgentRunId
  bindingGeneration : BindingGeneration
  ordinal : Nat
  kind : HostObservationKind
  deriving Repr, DecidableEq

def HostObservation.key (observation : HostObservation) : AgentRunId × Nat := (observation.runId, observation.ordinal)

inductive RunLiveness where
  | scriptedLive
  | observationLost
  | unknownAfterCrash
  | knownTerminated
  deriving Repr, DecidableEq

inductive ObserveError where
  | unknownAgentRun
  | staleGeneration
  | outOfOrder
  | conflict
  deriving Repr, DecidableEq

structure ObservationAuthority where
  applied : Finmap (fun _ : AgentRunId × Nat => HostObservationKind) := ∅
  nextOrdinal : Finmap (fun _ : AgentRunId => Nat) := ∅
  recorded : Finmap (fun _ : AgentRunId => RunLiveness) := ∅
  effectsPerformed : UInt64 := 0

namespace ObservationAuthority

variable (authority : ObservationAuthority) (observation : HostObservation)

def nextExpectedOrdinal (runId : AgentRunId) : Nat := (authority.nextOrdinal.lookup runId).getD 1

def recordedLiveness (runId : AgentRunId) : Option RunLiveness := authority.recorded.lookup runId

def liveness (runId : AgentRunId) : RunLiveness := (authority.recordedLiveness runId).getD .scriptedLive

def appliedCount : Nat := authority.applied.keys.card

def setLiveness (runId : AgentRunId) (next : RunLiveness) : Finmap (fun _ : AgentRunId => RunLiveness) :=
  match authority.liveness runId, next with
  | .knownTerminated, _ => authority.recorded
  | .unknownAfterCrash, .observationLost => authority.recorded
  | .unknownAfterCrash, .scriptedLive => authority.recorded
  | _, next => authority.recorded.insert runId next

def firstLive (runId : AgentRunId) : Finmap (fun _ : AgentRunId => RunLiveness) :=
  if runId ∈ authority.recorded then authority.recorded else authority.setLiveness runId .scriptedLive

def livenessAfter : Finmap (fun _ : AgentRunId => RunLiveness) :=
  match observation.kind with
  | .observationDisconnected => authority.setLiveness observation.runId .observationLost
  | .observationReconnected =>
      if authority.liveness observation.runId = .observationLost then
        authority.setLiveness observation.runId .scriptedLive
      else authority.recorded
  | .harnessCrashed | .unknownLiveness => authority.setLiveness observation.runId .unknownAfterCrash
  | .knownSuccess | .knownFailure => authority.setLiveness observation.runId .knownTerminated
  | .effectUnknown => authority.recorded
  | .started | .progress _ | .delayed _ | .result _ | .output _ => authority.firstLive observation.runId

def effectsAfter : UInt64 :=
  match observation.kind with
  | .result _ | .output _ => authority.effectsPerformed + 1
  | _ => authority.effectsPerformed

def accepted : ObservationAuthority where
  applied := authority.applied.insert observation.key observation.kind
  nextOrdinal := authority.nextOrdinal.insert observation.runId (authority.nextExpectedOrdinal observation.runId + 1)
  recorded := authority.livenessAfter observation
  effectsPerformed := authority.effectsAfter observation

def apply (bindings : Bindings) : Except ObserveError ObservationAuthority := do
  let current ← orRefuse (bindings observation.runId) .unknownAgentRun
  refuse (current ≠ observation.bindingGeneration) .staleGeneration
  match authority.applied.lookup observation.key with
  | some previous =>
      refuse (previous ≠ observation.kind) .conflict
      return authority
  | none =>
      refuse (observation.ordinal ≠ authority.nextExpectedOrdinal observation.runId) .outOfOrder
      refuse (2 ^ 64 ≤ authority.nextExpectedOrdinal observation.runId + 1) .outOfOrder
      return authority.accepted observation

def undoApply (previousLiveness : Option RunLiveness) (previousEffects : UInt64) : ObservationAuthority where
  applied := authority.applied.erase observation.key
  nextOrdinal :=
    if observation.ordinal + 1 = authority.nextExpectedOrdinal observation.runId ∧ observation.ordinal + 1 < 2 ^ 64 then
      if observation.ordinal ≤ 1 then authority.nextOrdinal.erase observation.runId
      else authority.nextOrdinal.insert observation.runId observation.ordinal
    else authority.nextOrdinal
  recorded :=
    match previousLiveness with
    | some liveness => authority.recorded.insert observation.runId liveness
    | none => authority.recorded.erase observation.runId
  effectsPerformed := previousEffects

/-- The authority takes the observation as a new one. -/
structure Takes : Prop where
  new : authority.applied.lookup observation.key = none
  next : observation.ordinal = authority.nextExpectedOrdinal observation.runId
  fits : observation.ordinal + 1 < 2 ^ 64

variable {authority} {observation} {bindings : Bindings}

theorem apply_ok {after : ObservationAuthority} (applied : authority.apply observation bindings = .ok after) :
    (after = authority ∧ authority.applied.lookup observation.key = some observation.kind) ∨
      (after = authority.accepted observation ∧ authority.Takes observation) := by
  simp only [apply, bind_eq_ok, orRefuse_eq_ok, refuse_eq_ok, Decidable.not_not] at applied
  obtain ⟨_, _, _, _, rest⟩ := applied
  split at rest
  next previous found =>
    simp only [bind_eq_ok, refuse_eq_ok, Decidable.not_not, pure_eq_ok] at rest
    obtain ⟨_, same, rfl⟩ := rest
    exact .inl ⟨rfl, same ▸ found⟩
  next absent =>
    simp only [bind_eq_ok, refuse_eq_ok, Decidable.not_not, pure_eq_ok, not_le] at rest
    obtain ⟨_, next, _, fits, rfl⟩ := rest
    exact .inr ⟨rfl, absent, next, next ▸ fits⟩

theorem apply_next (bound : bindings observation.runId = some observation.bindingGeneration)
    (takes : authority.Takes observation) :
    authority.apply observation bindings = .ok (authority.accepted observation) := by
  simp only [apply, bind_eq_ok, orRefuse_eq_ok, refuse_eq_ok]
  refine ⟨_, bound, (), not_not.mpr rfl, ?_⟩
  rw [takes.new]
  simp only [bind_eq_ok, refuse_eq_ok, pure_eq_ok]
  exact ⟨(), not_not.mpr takes.next, (), Nat.not_le.mpr (takes.next ▸ takes.fits), trivial⟩

theorem appliedCount_accepted (takes : authority.Takes observation) :
    (authority.accepted observation).appliedCount = authority.appliedCount + 1 := by
  have absent : observation.key ∉ authority.applied := Finmap.lookup_eq_none.mp takes.new
  have keys : (authority.accepted observation).applied.keys = insert observation.key authority.applied.keys := by
    ext other
    simp [accepted, Finmap.mem_keys, Finmap.mem_insert]
  rw [appliedCount, keys, Finset.card_insert_of_notMem (by simpa [Finmap.mem_keys] using absent)]
  rfl

theorem livenessAfter_lookup {other : AgentRunId} (different : other ≠ observation.runId) :
    (authority.livenessAfter observation).lookup other = authority.recorded.lookup other := by
  have set : ∀ next, (authority.setLiveness observation.runId next).lookup other = authority.recorded.lookup other := by
    intro next
    unfold setLiveness
    split <;> simp [Finmap.lookup_insert_of_ne _ different]
  unfold livenessAfter firstLive
  split <;> first | exact set _ | rfl | (split <;> first | exact set _ | rfl)

/-- `undo_apply` with the values from before an observation takes exactly that observation back. -/
theorem undoApply_accepted (takes : authority.Takes observation)
    (positive : ∀ next ∈ authority.nextOrdinal.lookup observation.runId, 1 < next) :
    (authority.accepted observation).undoApply observation (authority.recordedLiveness observation.runId)
      authority.effectsPerformed = authority := by
  have applied : ((authority.accepted observation).applied.erase observation.key) = authority.applied := by
    apply Finmap.ext_lookup
    intro key
    by_cases same : key = observation.key
    · rw [same, Finmap.lookup_erase, takes.new]
    · rw [Finmap.lookup_erase_ne same, accepted, Finmap.lookup_insert_of_ne _ same]
  have expected : (authority.accepted observation).nextExpectedOrdinal observation.runId = observation.ordinal + 1 := by
    simp [nextExpectedOrdinal, accepted, takes.next]
  have ordinals : (if observation.ordinal ≤ 1 then
        (authority.accepted observation).nextOrdinal.erase observation.runId
      else (authority.accepted observation).nextOrdinal.insert observation.runId observation.ordinal) =
      authority.nextOrdinal := by
    apply Finmap.ext_lookup
    intro run
    have next := takes.next
    unfold nextExpectedOrdinal at next
    by_cases same : run = observation.runId
    · subst same
      cases found : authority.nextOrdinal.lookup observation.runId with
      | none =>
          rw [found] at next
          simp [show observation.ordinal = 1 from next]
      | some value =>
          rw [found] at next
          have large := positive value found
          have equal : observation.ordinal = value := next
          rw [if_neg (by omega), Finmap.lookup_insert, equal]
    · split
      · rw [Finmap.lookup_erase_ne same, accepted, Finmap.lookup_insert_of_ne _ same]
      · rw [Finmap.lookup_insert_of_ne _ same, accepted, Finmap.lookup_insert_of_ne _ same]
  have recorded : (match authority.recordedLiveness observation.runId with
      | some liveness => (authority.accepted observation).recorded.insert observation.runId liveness
      | none => (authority.accepted observation).recorded.erase observation.runId) = authority.recorded := by
    apply Finmap.ext_lookup
    intro run
    by_cases same : run = observation.runId
    · subst same
      cases found : authority.recordedLiveness observation.runId with
      | none => exact (Finmap.lookup_erase ..).trans found.symm
      | some liveness => exact (Finmap.lookup_insert ..).trans found.symm
    · have kept : (authority.livenessAfter observation).lookup run = authority.recorded.lookup run :=
        livenessAfter_lookup same
      split
      · rw [Finmap.lookup_insert_of_ne _ same]
        exact kept
      · rw [Finmap.lookup_erase_ne same]
        exact kept
  unfold undoApply
  rw [applied, recorded, if_pos ⟨expected.symm, takes.fits⟩, ordinals]

/-! The authority after a list of new observations. -/

/-- The authority has taken these observations, in this order. -/
inductive Took : ObservationAuthority → List HostObservation → Prop where
  | nothing : Took {} []
  | next {authority : ObservationAuthority} {observations : List HostObservation} {observation : HostObservation}
      (before : Took authority observations) (takes : authority.Takes observation) :
      Took (authority.accepted observation) (observations ++ [observation])

def ofRun (runId : AgentRunId) (observations : List HostObservation) : List HostObservation :=
  observations.filter fun observation => observation.runId = runId

variable {observations : List HostObservation}

theorem Took.eq_foldl (took : Took authority observations) : authority = observations.foldl accepted {} := by
  induction took with
  | nothing => rfl
  | next before takes ih => rw [List.foldl_append, ← ih]; rfl

theorem Took.nextExpectedOrdinal_eq (took : Took authority observations) (runId : AgentRunId) :
    authority.nextExpectedOrdinal runId = (ofRun runId observations).length + 1 := by
  induction took with
  | nothing => rfl
  | @next authority observations observation before takes ih =>
      rw [ofRun, List.filter_append, List.length_append]
      by_cases same : observation.runId = runId
      · subst same
        have expected : (authority.accepted observation).nextExpectedOrdinal observation.runId =
            authority.nextExpectedOrdinal observation.runId + 1 := by
          simp [nextExpectedOrdinal, accepted]
        rw [expected, ih]
        simp [ofRun]
      · have expected : (authority.accepted observation).nextExpectedOrdinal runId =
            authority.nextExpectedOrdinal runId := by
          simp [nextExpectedOrdinal, accepted, Finmap.lookup_insert_of_ne _ (Ne.symm same)]
        rw [expected, ih]
        simp [ofRun, same]

theorem Took.ordinals (took : Took authority observations) (runId : AgentRunId) :
    (ofRun runId observations).map HostObservation.ordinal = List.range' 1 (ofRun runId observations).length := by
  induction took with
  | nothing => rfl
  | @next authority observations observation before takes ih =>
      have next := before.nextExpectedOrdinal_eq observation.runId
      rw [ofRun, List.filter_append]
      by_cases same : observation.runId = runId
      · subst same
        rw [← takes.next] at next
        have one : [observation].filter (fun other => other.runId = observation.runId) = [observation] := by simp
        rw [one, List.map_append, List.length_append, List.map_singleton, List.length_singleton, List.range'_1_concat]
        change (ofRun observation.runId observations).map _ ++ _ = _
        rw [ih, next]
        simp [ofRun, Nat.add_comm]
      · have none : [observation].filter (fun other => other.runId = runId) = [] := by simp [same]
        rw [none, List.append_nil]
        exact ih

theorem Took.lookup (took : Took authority observations) (runId : AgentRunId) (ordinal : Nat)
    (kind : HostObservationKind) :
    authority.applied.lookup (runId, ordinal) = some kind ↔
      ∃ observation ∈ observations, observation.runId = runId ∧ observation.ordinal = ordinal ∧
        observation.kind = kind := by
  induction took with
  | nothing => simp
  | @next authority observations observation before takes ih =>
      simp only [List.mem_append, List.mem_singleton]
      by_cases same : (runId, ordinal) = observation.key
      · have none : authority.applied.lookup (runId, ordinal) = none := same ▸ takes.new
        rw [none] at ih
        have earlier : ¬ ∃ other ∈ observations, other.runId = runId ∧ other.ordinal = ordinal ∧ other.kind = kind := by
          intro found
          cases ih.mpr found
        obtain ⟨rfl, rfl⟩ := Prod.mk.inj same
        rw [accepted, same, Finmap.lookup_insert, Option.some.injEq]
        constructor
        · intro equal
          exact ⟨observation, .inr rfl, rfl, rfl, equal⟩
        · rintro ⟨other, old | rfl, named⟩
          · exact absurd ⟨other, old, named⟩ earlier
          · exact named.2.2
      · rw [accepted, Finmap.lookup_insert_of_ne _ same, ih]
        constructor
        · rintro ⟨other, old, named⟩
          exact ⟨other, .inl old, named⟩
        · rintro ⟨other, old | rfl, named, placed, _⟩
          · exact ⟨other, old, named, placed, by assumption⟩
          · exact absurd (by rw [HostObservation.key, named, placed]) same

theorem Took.positive (took : Took authority observations) (runId : AgentRunId) :
    ∀ next ∈ authority.nextOrdinal.lookup runId, 1 < next := by
  induction took with
  | nothing => simp
  | @next authority observations observation before takes ih =>
      intro next found
      by_cases same : runId = observation.runId
      · subst same
        rw [accepted, Finmap.lookup_insert] at found
        cases found
        rw [before.nextExpectedOrdinal_eq]
        omega
      · rw [accepted, Finmap.lookup_insert_of_ne _ same] at found
        exact ih next found

theorem Took.takes (took : Took authority observations)
    (next : observation.ordinal = (ofRun observation.runId observations).length + 1)
    (fits : observation.ordinal + 1 < 2 ^ 64) : authority.Takes observation where
  new := by
    cases found : authority.applied.lookup observation.key with
    | none => rfl
    | some kind =>
        obtain ⟨other, member, named, placed, _⟩ := (took.lookup _ _ _).mp found
        have listed : observation.ordinal ∈ (ofRun observation.runId observations).map HostObservation.ordinal :=
          List.mem_map.mpr ⟨other, by simpa [ofRun, named] using member, placed⟩
        rw [took.ordinals, List.mem_range'_1] at listed
        omega
  next := by rw [next, took.nextExpectedOrdinal_eq]
  fits := fits

end ObservationAuthority

end Seyal.Agent.Backend
