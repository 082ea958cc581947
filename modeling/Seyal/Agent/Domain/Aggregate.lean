import Seyal.Agent.Routing.Score
import Seyal.Program.Run
import Seyal.Program.Table
import Seyal.Terminal.Types

namespace Seyal.Agent.Domain

open Program Mapping

/-! The agent domain: work scopes, work items, attempts and agent runs, and the clients attached to the runs.
Identifiers of every kind are drawn from one sequence and never drawn twice: an identifier is
its place in the order in which identifiers were issued. -/

abbrev WorkScopeId := Nat
abbrev WorkItemId := Nat
abbrev AttemptId := Nat
abbrev AgentRunId := Nat
abbrev ClientSessionId := Nat
/-- Opaque execution-host reference for binding / detection (SPEC-018). -/
abbrev ExecutionRef := Nat
/-- Opaque routing-decision reference set when Prepared (SPEC-020). -/
abbrev RoutingDecisionRef := Nat
abbrev BindingGeneration := Nat
/-- Client control epoch (SPEC-026 O1). -/
abbrev ControlGeneration := Nat

def firstGeneration : Nat := 1

def nextGeneration (generation : Nat) : Option Nat := Terminal.checkedAdd 64 generation 1

theorem nextGeneration_gt {generation next : Nat} (found : nextGeneration generation = some next) :
    generation < next := by
  unfold nextGeneration Terminal.checkedAdd at found
  split at found
  · cases found
    exact Nat.lt_succ_self _
  · cases found

inductive WorkScopeKind where
  | project
  | repository
  | adHoc
  | hostBound
  deriving Repr, DecidableEq

/-- WorkItem lifecycle (SPEC-026 §4). -/
inductive WorkItemLifecycle where
  | «open»
  | finalized
  deriving Repr, DecidableEq

/-- Detection-created work uses `HumanFinal` per SPEC-026 O3. -/
inductive AcceptanceContractMode where
  | humanFinal
  | policyFinal
  | hybrid
  deriving Repr, DecidableEq

/-- Owned only by WorkItem finalization (SPEC-019 §9). -/
inductive WorkItemOutcome where
  | accepted
  | rejected
  | unresolved
  | abandoned
  deriving Repr, DecidableEq

/-- Attempt origin (SPEC-026 §5). Set at creation; never changes. -/
inductive AttemptOrigin where
  | initial
  | retryOf (attempt : AttemptId)
  | forkOf (attempt : AttemptId)
  | parallelCandidateOf (attempt : AttemptId)
  | strategyChangeFrom (attempt : AttemptId)
  deriving Repr, DecidableEq

def AttemptOrigin.parent : AttemptOrigin → Option AttemptId
  | .initial => none
  | .retryOf id => some id
  | .forkOf id => some id
  | .parallelCandidateOf id => some id
  | .strategyChangeFrom id => some id

/-- Attempt lifecycle (SPEC-026 §5). -/
inductive AttemptLifecycle where
  | created
  | active
  | closing
  | closed
  deriving Repr, DecidableEq

/-- Attempt disposition (SPEC-019 §8). Immutable once Closed. -/
inductive AttemptDisposition where
  | candidateAccepted
  | rejected
  | inconclusive
  | cancelled
  | interrupted
  | superseded
  deriving Repr, DecidableEq

/-- AgentRun lifecycle (SPEC-026 §6.2). -/
inductive AgentRunLifecycle where
  | created
  | prepared
  | dispatching
  | active
  | terminating
  | terminated
  deriving Repr, DecidableEq

/-- Orthogonal execution liveness (SPEC-026 §6.1). -/
inductive ExecutionLiveness where
  | notStarted
  | alive
  | exited
  | unknown
  deriving Repr, DecidableEq

/-- Orthogonal observation connectivity (SPEC-026 §6.1). -/
inductive ObservationFact where
  | connected
  | degraded
  | disconnected
  deriving Repr, DecidableEq

/-- Behavioral resumability (SPEC-014 §9) plus `NotEvaluated` (SPEC-026 §6.1). -/
inductive ResumabilityFact where
  | notEvaluated
  | behavioralResumeAvailable
  | reconciliationRequired
  | resumeUnavailable
  deriving Repr, DecidableEq

inductive TerminationKind where
  | completed
  | failed
  | cancelled
  | interrupted
  | lost
  | superseded
  deriving Repr, DecidableEq

inductive TerminationSource where
  | backend
  | harness
  | provider
  | execution
  | user
  | policy
  deriving Repr, DecidableEq

/-- Run termination record (SPEC-026 §6.3). Never implies WorkItem outcome. -/
structure RunTermination where
  kind : TerminationKind
  source : TerminationSource
  reasonCode : Option Nat
  deriving Repr, DecidableEq

/-- AgentRun lineage for forks (SPEC-026 §9.4). -/
inductive AgentRunLineage where
  | forkOf (run : AgentRunId)
  deriving Repr, DecidableEq

inductive ExecutionHostKind where
  | fake
  | standaloneProcess
  deriving Repr, DecidableEq

/-- Immutable execution-target binding recorded at `Created → Prepared` (SPEC-027 §4.2). -/
structure RoutingDecision where
  adapterId : Nat
  adapterManifestGeneration : Nat
  routeOfferingId : Nat
  executionHostKind : ExecutionHostKind
  launchDescriptorRef : Nat
  selectionKind : Routing.SelectionKind
  deriving Repr, DecidableEq

/-- Durable binding evidence for external detection idempotency (SPEC-026 §9.9). -/
structure ExternalIdentityKey where
  executionRef : ExecutionRef
  externalIdentity : Nat
  deriving Repr, DecidableEq

/-- Ephemeral client attachment access (SPEC-026 §8). Not durable identity. -/
inductive AttachmentAccess where
  | observe
  | interact
  | control
  deriving Repr, DecidableEq

/-- Usage/cost accounting: missing is unknown, never zero (SPEC-026 §11). -/
inductive AccountingValue where
  | unknown
  | observed (value : Nat)
  deriving Repr, DecidableEq

inductive ObservationKind where
  | harnessStarted
  | harnessExited
  | output
  | progress
  | usage
  | warning
  | controlBearing
  deriving Repr, DecidableEq

def ObservationKind.requiresCurrentBinding : ObservationKind → Bool
  | .controlBearing => true
  | _ => false

inductive ObservationRecordResult where
  | accepted
  | duplicateAcknowledged
  | staleRetained
  | lateRetained
  deriving Repr, DecidableEq

structure LoggedObservation where
  agentRunId : AgentRunId
  kind : ObservationKind
  late : Bool
  stale : Bool
  deriving Repr, DecidableEq

structure WorkScope where
  kind : WorkScopeKind
  deriving Repr, DecidableEq

structure WorkItem where
  workScopeId : WorkScopeId
  lifecycle : WorkItemLifecycle
  outcome : Option WorkItemOutcome
  acceptanceMode : AcceptanceContractMode
  relatedTo : Option WorkItemId
  deriving Repr, DecidableEq

structure Attempt where
  workItemId : WorkItemId
  origin : AttemptOrigin
  lifecycle : AttemptLifecycle
  disposition : Option AttemptDisposition
  usage : AccountingValue
  cost : AccountingValue
  deriving Repr, DecidableEq

/-- Durable AgentRun aggregate (SPEC-026 §6). -/
structure AgentRun where
  attemptId : AttemptId
  workItemId : WorkItemId
  bindingGeneration : BindingGeneration
  /-- The client control epoch. -/
  controlGeneration : ControlGeneration
  runRevision : Nat
  lifecycle : AgentRunLifecycle
  executionLiveness : ExecutionLiveness
  observation : ObservationFact
  resumability : ResumabilityFact
  termination : Option RunTermination
  lineage : Option AgentRunLineage
  routingDecisionRef : Option RoutingDecisionRef
  currentExecution : Option ExecutionRef
  deriving Repr, DecidableEq

def AgentRun.bumpRevision (run : AgentRun) : AgentRun :=
  { run with runRevision := Terminal.saturatingAdd 64 run.runRevision 1 }

/-- What is kept for an attached session: the run, and the epoch and revision it was issued at. -/
structure Attachment where
  agentRunId : AgentRunId
  access : AttachmentAccess
  controlEpoch : ControlGeneration
  issuedRunRevision : Nat
  deriving Repr, DecidableEq

inductive DomainError where
  | unknownWorkScope (id : WorkScopeId)
  | unknownWorkItem (id : WorkItemId)
  | unknownAttempt (id : AttemptId)
  | unknownAgentRun (id : AgentRunId)
  | staleBinding (current presented : BindingGeneration)
  | staleControlEpoch (current presented : ControlGeneration)
  | generationExhausted
  | conflict
  | invalidTransition
  | staleRevision (expected current : Nat)
  | notAuthorized
  | multipleRunsNotPermitted
  | resumeNotAvailable (reason : ResumabilityFact)
  | reconciliationRequired
  | attemptNotClosable
  | workItemFinalized
  deriving Repr, DecidableEq

/-- Pure in-memory aggregate used as the sole agent-domain transition authority. -/
structure AgentDomain where
  workScopes : Mapping WorkScopeId WorkScope := ∅
  workItems : Mapping WorkItemId WorkItem := ∅
  attempts : Mapping AttemptId Attempt := ∅
  agentRuns : Mapping AgentRunId AgentRun := ∅
  attachments : Mapping ClientSessionId Attachment := ∅
  detectionBindings : Mapping ExternalIdentityKey AgentRunId := ∅
  retiredExecutions : List ExecutionRef := []
  observationKeys : List (Nat × Nat × Nat) := []
  observationLog : List LoggedObservation := []
  routingDecisions : Mapping RoutingDecisionRef RoutingDecision := ∅
  nextRoutingDecision : Nat := 0

/-- The domain in its process, with the sequence identifiers are drawn from. -/
structure Process where
  domain : AgentDomain := {}
  nextId : Nat := 1

namespace Process

variable (process : Process)

def minted : Process := { process with nextId := process.nextId + 1 }

def withItem (id : WorkItemId) (item : WorkItem) : Process :=
  { process with domain := { process.domain with workItems := process.domain.workItems.insert id item } }

def withAttempt (id : AttemptId) (attempt : Attempt) : Process :=
  { process with domain := { process.domain with attempts := process.domain.attempts.insert id attempt } }

def withRun (id : AgentRunId) (run : AgentRun) : Process :=
  { process with domain := { process.domain with agentRuns := process.domain.agentRuns.insert id run } }

def withAttachments (attachments : Mapping ClientSessionId Attachment) : Process :=
  { process with domain := { process.domain with attachments } }

end Process

/-- A transition of the domain. An error keeps the changes made in front of it. -/
abbrev Transition := Run Process DomainError

namespace Transition

variable {α : Type}

def uniqueId : Transition Nat := do
  let process ← get
  set process.minted
  return process.nextId

def read : Transition AgentDomain := do
  let process ← get
  return process.domain

def write (update : AgentDomain → AgentDomain) : Transition Unit :=
  modify fun process => { process with domain := update process.domain }

def okOr (value : Option α) (error : DomainError) : Transition α :=
  match value with
  | some found => pure found
  | none => throw error

def refuseIf (bad : Prop) [Decidable bad] (error : DomainError) : Transition Unit :=
  if bad then throw error else pure ()

section Rules

open Run

variable {fails : DomainError → Process → Prop} {process : Process}

@[simp] theorem wp_uniqueId {post : Nat → Process → Prop} :
    wp uniqueId post fails process = post process.nextId process.minted := rfl

@[simp] theorem wp_read {post : AgentDomain → Process → Prop} :
    wp read post fails process = post process.domain process := rfl

@[simp] theorem wp_write {post : Unit → Process → Prop} (update : AgentDomain → AgentDomain) :
    wp (write update) post fails process = post () { process with domain := update process.domain } := rfl

@[simp] theorem wp_okOr {post : α → Process → Prop} {value : Option α} {error : DomainError} :
    wp (okOr value error) post fails process ↔
      (∀ found, value = some found → post found process) ∧ (value = none → fails error process) := by
  cases value with
  | none | some found => simp [okOr]

@[simp] theorem wp_refuseIf {post : Unit → Process → Prop} {bad : Prop} [Decidable bad] {error : DomainError} :
    wp (refuseIf bad error) post fails process ↔ (bad → fails error process) ∧ (¬ bad → post () process) := by
  by_cases refused : bad <;> simp [refuseIf, refused]

end Rules

end Transition

end Seyal.Agent.Domain
