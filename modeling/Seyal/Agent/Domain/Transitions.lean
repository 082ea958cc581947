import Seyal.Agent.Domain.Aggregate

namespace Seyal.Agent.Domain

open Program Mapping

/-! The public transitions of the domain. -/

/-- The identities a transition preserved or minted. -/
structure TransitionIds where
  workItemId : WorkItemId
  attemptId : AttemptId
  agentRunId : AgentRunId
  deriving Repr, DecidableEq

def AgentRun.terminate (run : AgentRun) (kind : TerminationKind) (source : TerminationSource)
    (executionLiveness : ExecutionLiveness) : AgentRun :=
  { run with
    lifecycle := .terminated
    termination := some { kind, source, reasonCode := none }
    executionLiveness }.bumpRevision

def AgentRun.unreconciled (run : AgentRun) : AgentRun :=
  { run with
    executionLiveness := .unknown
    observation := .disconnected
    resumability := .reconciliationRequired }.bumpRevision

def WorkItem.compatible (existing item : WorkItem) : Bool :=
  existing = item ∨
    existing.workScopeId = item.workScopeId ∧ existing.lifecycle = .open ∧ item.lifecycle = .open

namespace Transition

def runMut (agentRunId : AgentRunId) : Transition AgentRun := do
  let domain ← read
  okOr (domain.agentRuns.lookup agentRunId) (.unknownAgentRun agentRunId)

def putRun (agentRunId : AgentRunId) (run : AgentRun) : Transition Unit :=
  modify fun process => process.withRun agentRunId run

def findAttempt (attemptId : AttemptId) : Transition Attempt := do
  let domain ← read
  okOr (domain.attempts.lookup attemptId) (.unknownAttempt attemptId)

def putAttempt (attemptId : AttemptId) (attempt : Attempt) : Transition Unit :=
  modify fun process => process.withAttempt attemptId attempt

def findItem (workItemId : WorkItemId) : Transition WorkItem := do
  let domain ← read
  okOr (domain.workItems.lookup workItemId) (.unknownWorkItem workItemId)

def putItem (workItemId : WorkItemId) (item : WorkItem) : Transition Unit :=
  modify fun process => process.withItem workItemId item

def requireScope (workScopeId : WorkScopeId) : Transition Unit := do
  let domain ← read
  refuseIf (domain.workScopes.lookup workScopeId = none) (.unknownWorkScope workScopeId)

def requireLifecycle (current allowed : AgentRunLifecycle) : Transition Unit :=
  if current = allowed then pure () else throw .invalidTransition

def createWorkScope (kind : WorkScopeKind) : Transition WorkScopeId := do
  let id ← uniqueId
  write fun domain => { domain with workScopes := domain.workScopes.insert id { kind } }
  return id

def mintWorkItem (item : WorkItem) : Transition WorkItemId := do
  let id ← uniqueId
  putItem id item
  return id

/-- Create a WorkItem with an explicit AcceptanceContract mode (SPEC-019 §4). -/
def createWorkItemWithMode (workScopeId : WorkScopeId) (acceptanceMode : AcceptanceContractMode) :
    Transition WorkItemId := do
  requireScope workScopeId
  mintWorkItem { workScopeId, lifecycle := .open, outcome := none, acceptanceMode, relatedTo := none }

def createWorkItem (workScopeId : WorkScopeId) : Transition WorkItemId :=
  createWorkItemWithMode workScopeId .humanFinal

def requireParent (workItemId : WorkItemId) : Option AttemptId → Transition Unit
  | none => pure ()
  | some parent => do
      let parentAttempt ← findAttempt parent
      refuseIf (parentAttempt.workItemId ≠ workItemId) .invalidTransition

def createAttemptWithOrigin (workItemId : WorkItemId) (origin : AttemptOrigin) : Transition AttemptId := do
  let item ← findItem workItemId
  refuseIf (item.lifecycle = .finalized) .workItemFinalized
  requireParent workItemId origin.parent
  let id ← uniqueId
  putAttempt id
    { workItemId, origin, lifecycle := .created, disposition := none, usage := .unknown, cost := .unknown }
  return id

def createAttempt (workItemId : WorkItemId) : Transition AttemptId :=
  createAttemptWithOrigin workItemId .initial

def itemFinalized (domain : AgentDomain) (workItemId : WorkItemId) : Bool :=
  match domain.workItems.lookup workItemId with
  | some item => item.lifecycle = .finalized
  | none => false

def createdRun (attemptId : AttemptId) (workItemId : WorkItemId) (lineage : Option AgentRunLineage) : AgentRun where
  attemptId := attemptId
  workItemId := workItemId
  bindingGeneration := firstGeneration
  controlGeneration := firstGeneration
  runRevision := 1
  lifecycle := .created
  executionLiveness := .notStarted
  observation := .disconnected
  resumability := .notEvaluated
  termination := none
  lineage := lineage
  routingDecisionRef := none
  currentExecution := none

def createAgentRunWithLineage (attemptId : AttemptId) (lineage : Option AgentRunLineage) : Transition AgentRunId := do
  let attempt ← findAttempt attemptId
  let domain ← read
  refuseIf (itemFinalized domain attempt.workItemId) .workItemFinalized
  refuseIf (anyValue domain.agentRuns fun run => run.attemptId = attemptId) .multipleRunsNotPermitted
  let id ← uniqueId
  putRun id (createdRun attemptId attempt.workItemId lineage)
  return id

def createAgentRun (attemptId : AttemptId) : Transition AgentRunId :=
  createAgentRunWithLineage attemptId none

def advanceBindingGeneration (agentRunId : AgentRunId) (presented : BindingGeneration) :
    Transition BindingGeneration := do
  let run ← runMut agentRunId
  let current := run.bindingGeneration
  refuseIf (current ≠ presented) (.staleBinding current presented)
  let next ← okOr (nextGeneration current) .generationExhausted
  putRun agentRunId { run with bindingGeneration := next }.bumpRevision
  return next

def validateControlGeneration (agentRunId : AgentRunId) (presented : ControlGeneration) : Transition Unit := do
  let run ← runMut agentRunId
  let current := run.controlGeneration
  refuseIf (current ≠ presented) (.staleControlEpoch current presented)

def advanceControlGeneration (agentRunId : AgentRunId) (presented : ControlGeneration) :
    Transition ControlGeneration := do
  let run ← runMut agentRunId
  let current := run.controlGeneration
  refuseIf (current ≠ presented) (.staleControlEpoch current presented)
  let next ← okOr (nextGeneration current) .generationExhausted
  putRun agentRunId { run with controlGeneration := next }.bumpRevision
  return next

/-- Finalize a WorkItem via the authorized outcome path (SPEC-019 / SPEC-026 §4). -/
def finalizeWorkItem (workItemId : WorkItemId) (outcome : WorkItemOutcome) (authorized : Bool) : Transition Unit := do
  refuseIf (!authorized) .notAuthorized
  let item ← findItem workItemId
  refuseIf (item.lifecycle = .finalized) .workItemFinalized
  putItem workItemId { item with lifecycle := .finalized, outcome := some outcome }

/-- Regression creates a related Open item. -/
def createRelatedWorkItem (prior : WorkItemId) : Transition WorkItemId := do
  let priorItem ← findItem prior
  refuseIf (priorItem.lifecycle ≠ .finalized) .invalidTransition
  mintWorkItem
    { workScopeId := priorItem.workScopeId
      lifecycle := .open
      outcome := none
      acceptanceMode := priorItem.acceptanceMode
      relatedTo := some prior }

/-- Append one immutable RoutingDecision and return its reference (SPEC-027 §4.2). -/
def recordRoutingDecision (decision : RoutingDecision) : Transition RoutingDecisionRef := do
  let domain ← read
  let reference := Terminal.saturatingAdd 64 domain.nextRoutingDecision 1
  write fun domain => { domain with
    nextRoutingDecision := reference
    routingDecisions := domain.routingDecisions.insert reference decision }
  return reference

def commitRouting (agentRunId : AgentRunId) (routing : RoutingDecision) : Transition Unit := do
  let reference ← recordRoutingDecision routing
  let run ← runMut agentRunId
  putRun agentRunId { run with lifecycle := .prepared, routingDecisionRef := some reference }.bumpRevision

/-- Bind route/context/permission prerequisites (Created → Prepared). -/
def prepareAgentRun (agentRunId : AgentRunId) (routing : RoutingDecision) : Transition Unit := do
  let run ← runMut agentRunId
  requireLifecycle run.lifecycle .created
  commitRouting agentRunId routing

def activateAttemptOnFirstDispatch (attemptId : AttemptId) : Transition Unit := do
  let attempt ← findAttempt attemptId
  if attempt.lifecycle = .created then putAttempt attemptId { attempt with lifecycle := .active }

/-- Dispatch commits Dispatching before the ExecutionHost is invoked (§9.1). -/
def dispatchAgentRun (agentRunId : AgentRunId) : Transition Unit := do
  let run ← runMut agentRunId
  requireLifecycle run.lifecycle .prepared
  putRun agentRunId { run with lifecycle := .dispatching }.bumpRevision
  activateAttemptOnFirstDispatch run.attemptId

/-- Host confirms execution started (Dispatching → Active, liveness Alive). -/
def activateAgentRun (agentRunId : AgentRunId) : Transition Unit := do
  let run ← runMut agentRunId
  requireLifecycle run.lifecycle .dispatching
  putRun agentRunId
    { run with lifecycle := .active, executionLiveness := .alive, observation := .connected }.bumpRevision

/-- Full §9.1 start sequence after Created: Prepared → Dispatching. -/
def startPrepareAndDispatch (agentRunId : AgentRunId) (routing : RoutingDecision) : Transition Unit := do
  prepareAgentRun agentRunId routing
  dispatchAgentRun agentRunId

def requireRevision (expected : Option Nat) (run : AgentRun) : Transition Unit :=
  match expected with
  | none => pure ()
  | some expected => refuseIf (run.runRevision ≠ expected) (.staleRevision expected run.runRevision)

/-- Leaves the run to be reconciled, and says so. -/
def reconcileIf (unclear : Bool) (agentRunId : AgentRunId) (run : AgentRun) : Transition Unit :=
  if unclear then do
    putRun agentRunId { run with resumability := .reconciliationRequired }.bumpRevision
    throw .reconciliationRequired
  else pure ()

/-- Cancel intent (SPEC-026 §9.2). Returns whether the run is already Terminated. -/
def cancelAgentRun (agentRunId : AgentRunId) (control : ControlGeneration) (expectedRevision : Option Nat)
    (ambiguousEffect : Bool) : Transition Unit := do
  validateControlGeneration agentRunId control
  let run ← runMut agentRunId
  requireRevision expectedRevision run
  refuseIf (run.lifecycle = .terminated) .invalidTransition
  reconcileIf ambiguousEffect agentRunId run
  match run.lifecycle with
  | .created | .prepared => putRun agentRunId (run.terminate .cancelled .user .notStarted)
  | .dispatching | .active => putRun agentRunId { run with lifecycle := .terminating }.bumpRevision
  | .terminating | .terminated => throw .invalidTransition

/-- Evidence completes a cancel that was in Terminating. -/
def confirmCancelTermination (agentRunId : AgentRunId) : Transition Unit := do
  let run ← runMut agentRunId
  requireLifecycle run.lifecycle .terminating
  putRun agentRunId (run.terminate .cancelled .user .exited)

/-- `terminate_completed` and `terminate_failed` differ in the kind they record. -/
def terminateAs (kind : TerminationKind) (agentRunId : AgentRunId) (source : TerminationSource) :
    Transition Unit := do
  let run ← runMut agentRunId
  refuseIf (run.lifecycle = .terminated) .invalidTransition
  putRun agentRunId (run.terminate kind source .exited)

/-- Harness/execution completion — never implies WorkItem outcome (§6.3). -/
def terminateCompleted : AgentRunId → TerminationSource → Transition Unit := terminateAs .completed

def terminateFailed : AgentRunId → TerminationSource → Transition Unit := terminateAs .failed

/-- Close Attempt with disposition when every AgentRun is terminal (§5). -/
def closeAttempt (attemptId : AttemptId) (disposition : AttemptDisposition) : Transition Unit := do
  let domain ← read
  refuseIf (anyValue domain.agentRuns fun run => run.attemptId = attemptId ∧ run.lifecycle ≠ .terminated)
    .attemptNotClosable
  let attempt ← findAttempt attemptId
  refuseIf (attempt.lifecycle = .closed) .invalidTransition
  putAttempt attemptId { attempt with lifecycle := .closed, disposition := some disposition }

def createCandidate (workItemId : WorkItemId) (origin : AttemptOrigin) (lineage : Option AgentRunLineage) :
    Transition TransitionIds := do
  let attemptId ← createAttemptWithOrigin workItemId origin
  let agentRunId ← createAgentRunWithLineage attemptId lineage
  return { workItemId, attemptId, agentRunId }

/-- Closes the prior attempt, or checks that it was closed in the same way. -/
def settlePrior (priorAttemptId : AttemptId) (prior : Attempt) (priorDisposition : AttemptDisposition) :
    Transition Unit :=
  if prior.lifecycle ≠ .closed then closeAttempt priorAttemptId priorDisposition
  else refuseIf (prior.disposition ≠ some priorDisposition) .invalidTransition

/-- Fresh retry from scratch: new Attempt(RetryOf) + new AgentRun (§9.3). -/
def freshRetry (priorAttemptId : AttemptId) (priorDisposition : AttemptDisposition) : Transition TransitionIds := do
  let prior ← findAttempt priorAttemptId
  settlePrior priorAttemptId prior priorDisposition
  createCandidate prior.workItemId (.retryOf priorAttemptId) none

/-- New Attempt(ForkOf) + new AgentRun with lineage; no inherited control (§9.4). -/
def forkRun (parentRunId : AgentRunId) : Transition TransitionIds := do
  let parent ← runMut parentRunId
  createCandidate parent.workItemId (.forkOf parent.attemptId) (some (.forkOf parentRunId))

/-- Parallel competing candidate (§9.4). -/
def parallelCandidate (parentAttemptId : AttemptId) : Transition TransitionIds := do
  let parent ← findAttempt parentAttemptId
  createCandidate parent.workItemId (.parallelCandidateOf parentAttemptId) none

/-- Strategy/model change as a new candidate (§9.4). -/
def strategyChangeCandidate (parentAttemptId : AttemptId) : Transition TransitionIds := do
  let parent ← findAttempt parentAttemptId
  createCandidate parent.workItemId (.strategyChangeFrom parentAttemptId) none

/-- Resume same AgentRun when BehavioralResumeAvailable (§9.5). No retry budget. -/
def resumeAgentRun (agentRunId : AgentRunId) : Transition Unit := do
  let run ← runMut agentRunId
  refuseIf (run.lifecycle = .terminated) .invalidTransition
  refuseIf (run.resumability = .reconciliationRequired) .reconciliationRequired
  refuseIf (run.resumability ≠ .behavioralResumeAvailable) (.resumeNotAvailable run.resumability)
  putRun agentRunId { run with observation := .connected }.bumpRevision

/-- Adapter/worker replacement: same run, new binding generation (§9.5 / §7). -/
def rebindAgentRun (agentRunId : AgentRunId) (presented : BindingGeneration) : Transition BindingGeneration :=
  tryCatch
    (do
      let next ← advanceBindingGeneration agentRunId presented
      let run ← runMut agentRunId
      putRun agentRunId { run with observation := .disconnected }.bumpRevision
      return next)
    fun error =>
      if error = .generationExhausted then do
        let run ← runMut agentRunId
        putRun agentRunId { run with resumability := .reconciliationRequired }.bumpRevision
        throw .reconciliationRequired
      else throw error

/-- Pre-start route fallback on typed not-started evidence (§9.6 / O2). -/
def preStartFallback (agentRunId : AgentRunId) (newRouting : RoutingDecision) (proofNotStarted : Bool) :
    Transition Unit := do
  let run ← runMut agentRunId
  requireLifecycle run.lifecycle .dispatching
  refuseIf (run.executionLiveness ≠ .notStarted) .invalidTransition
  reconcileIf (!proofNotStarted) agentRunId run
  commitRouting agentRunId newRouting

def fenceRun (agentRunId : AgentRunId) (run : AgentRun) : Transition (BindingGeneration × ControlGeneration) := do
  match nextGeneration run.bindingGeneration with
  | none =>
      putRun agentRunId run.unreconciled
      throw .reconciliationRequired
  | some nextBinding =>
      let nextControl ← okOr (nextGeneration run.controlGeneration) .reconciliationRequired
      modify fun process => process.withAttachments
        (retainValues process.domain.attachments fun attachment => attachment.agentRunId ≠ agentRunId)
      putRun agentRunId { run with bindingGeneration := nextBinding, controlGeneration := nextControl }.unreconciled
      return (nextBinding, nextControl)

/-- Agent Backend restart recovery fence before accepting new control (§9.7). -/
def backendRestartRecovery (agentRunId : AgentRunId) : Transition (BindingGeneration × ControlGeneration) := do
  let run ← runMut agentRunId
  if run.lifecycle = .terminated then return (run.bindingGeneration, run.controlGeneration)
  else fenceRun agentRunId run

/-- Terminal Runtime replacement execution: new ExecutionId only (§9.8). -/
def replaceExecution (agentRunId : AgentRunId) (newExecution oldExecution : ExecutionRef) : Transition Unit := do
  refuseIf (newExecution = oldExecution) .invalidTransition
  let domain ← read
  refuseIf (oldExecution ∈ domain.retiredExecutions) .invalidTransition
  write fun domain => { domain with retiredExecutions := oldExecution :: domain.retiredExecutions }
  let run ← runMut agentRunId
  refuseIf (run.lifecycle = .terminated) .invalidTransition
  putRun agentRunId
    { run with
      currentExecution := some newExecution
      resumability := .reconciliationRequired
      executionLiveness := .unknown }.bumpRevision

def bindDetected (workScopeId : WorkScopeId) (key : ExternalIdentityKey) : Transition (TransitionIds × Bool) := do
  requireScope workScopeId
  let workItemId ← mintWorkItem
    { workScopeId, lifecycle := .open, outcome := none, acceptanceMode := .humanFinal, relatedTo := none }
  let ids ← createCandidate workItemId .initial none
  let run ← runMut ids.agentRunId
  putRun ids.agentRunId { run with currentExecution := some key.executionRef }
  write fun domain => { domain with detectionBindings := domain.detectionBindings.insert key ids.agentRunId }
  return (ids, false)

/-- External detection bind — idempotent on (execution_ref, external identity) (§9.9). -/
def detectAndBind (workScopeId : WorkScopeId) (key : ExternalIdentityKey) : Transition (TransitionIds × Bool) := do
  let domain ← read
  match domain.detectionBindings.lookup key with
  | some existing =>
      let run ← runMut existing
      return ({ workItemId := run.workItemId, attemptId := run.attemptId, agentRunId := existing }, true)
  | none => bindDetected workScopeId key

def attachClient (agentRunId : AgentRunId) (sessionId : ClientSessionId) (access : AttachmentAccess) :
    Transition Unit := do
  let run ← runMut agentRunId
  modify fun process => process.withAttachments (process.domain.attachments.insert sessionId
    { agentRunId, access, controlEpoch := run.controlGeneration, issuedRunRevision := run.runRevision })

/-- Attachment only; never cancels/terminates (§8.4). -/
def detachClient (sessionId : ClientSessionId) : Transition Unit := do
  let domain ← read
  refuseIf (domain.attachments.lookup sessionId = none) .notAuthorized
  modify fun process => process.withAttachments (process.domain.attachments.erase sessionId)

def clientControl (sessionId : ClientSessionId) (agentRunId : AgentRunId) (presentedEpoch : ControlGeneration)
    (expectedRevision : Nat) : Transition Unit := do
  let domain ← read
  let attachment ← okOr (domain.attachments.lookup sessionId) .notAuthorized
  refuseIf (attachment.agentRunId ≠ agentRunId) .notAuthorized
  refuseIf (attachment.access ≠ .control ∧ attachment.access ≠ .interact) .notAuthorized
  refuseIf (attachment.controlEpoch ≠ presentedEpoch) (.staleControlEpoch attachment.controlEpoch presentedEpoch)
  let run ← runMut agentRunId
  refuseIf (run.runRevision ≠ expectedRevision) (.staleRevision expectedRevision run.runRevision)
  refuseIf (attachment.access ≠ .control) .notAuthorized

def observe (agentRunId : AgentRunId) (run : AgentRun) : ObservationKind → Transition Unit
  | .harnessExited => do
      if run.lifecycle = .active ∨ run.lifecycle = .terminating ∨ run.lifecycle = .dispatching then
        putRun agentRunId { run with executionLiveness := .exited }.bumpRevision
  | .harnessStarted => do
      if run.lifecycle = .dispatching then activateAgentRun agentRunId
  | .output | .progress | .usage | .warning => pure ()
  | .controlBearing => pure ()

def observeCurrent (current : Bool) (agentRunId : AgentRunId) (run : AgentRun) (kind : ObservationKind) :
    Transition Unit :=
  if current then observe agentRunId run kind else pure ()

def recordNew (agentRunId : AgentRunId) (run : AgentRun) (kind : ObservationKind) (stale late : Bool) :
    Transition ObservationRecordResult := do
  observeCurrent (!stale && !late) agentRunId run kind
  write fun domain => { domain with
    observationLog := domain.observationLog ++ [{ agentRunId, kind, late, stale }] }
  return if late then .lateRetained else if stale then .staleRetained else .accepted

/-- Record a producer observation with de-dup / late / stale handling (§10). -/
def recordObservation (agentRunId : AgentRunId) (producerId : Nat) (bindingGeneration : BindingGeneration)
    (producerEventId : Option Nat) (kind : ObservationKind) (attemptClosed : Bool) :
    Transition ObservationRecordResult := do
  let run ← runMut agentRunId
  let stale : Bool := run.bindingGeneration ≠ bindingGeneration
  refuseIf (stale && kind.requiresCurrentBinding) (.staleBinding run.bindingGeneration bindingGeneration)
  match producerEventId with
  | none => recordNew agentRunId run kind stale attemptClosed
  | some eventId => do
      let domain ← read
      if (producerId, bindingGeneration, eventId) ∈ domain.observationKeys then return .duplicateAcknowledged
      else do
        write fun domain => { domain with
          observationKeys := (producerId, bindingGeneration, eventId) :: domain.observationKeys }
        recordNew agentRunId run kind stale attemptClosed

def setResumability (agentRunId : AgentRunId) (fact : ResumabilityFact) : Transition Unit := do
  let run ← runMut agentRunId
  putRun agentRunId { run with resumability := fact }.bumpRevision

def setObservationFact (agentRunId : AgentRunId) (fact : ObservationFact) : Transition Unit := do
  let run ← runMut agentRunId
  putRun agentRunId { run with observation := fact }.bumpRevision

def setAttemptUsage (attemptId : AttemptId) (usage cost : AccountingValue) : Transition Unit := do
  let attempt ← findAttempt attemptId
  putAttempt attemptId { attempt with usage, cost }

def restoreWorkScope (id : WorkScopeId) (kind : WorkScopeKind) : Transition Unit := do
  let domain ← read
  match domain.workScopes.lookup id with
  | some existing => refuseIf (existing.kind ≠ kind) .conflict
  | none => write fun domain => { domain with workScopes := domain.workScopes.insert id { kind } }

def restoreWorkItemState (id : WorkItemId) (item : WorkItem) : Transition Unit := do
  requireScope item.workScopeId
  let domain ← read
  match domain.workItems.lookup id with
  | some existing => refuseIf (!existing.compatible item) .conflict
  | none => putItem id item

def restoreAttemptState (id : AttemptId) (attempt : Attempt) : Transition Unit := do
  let domain ← read
  refuseIf (domain.workItems.lookup attempt.workItemId = none) (.unknownWorkItem attempt.workItemId)
  match domain.attempts.lookup id with
  | some existing => refuseIf (existing.workItemId ≠ attempt.workItemId) .conflict
  | none => putAttempt id attempt

def restoredItem (attemptId : AttemptId) : Transition WorkItemId := do
  let domain ← read
  match domain.attempts.lookup attemptId with
  | some attempt => return attempt.workItemId
  | none => uniqueId

def insertRestoredAgentRun (id : AgentRunId) (row : AgentRun) : Transition Unit := do
  let workItemId ← restoredItem row.attemptId
  let domain ← read
  match domain.agentRuns.lookup id with
  | some existing =>
      refuseIf (existing.attemptId ≠ row.attemptId ∨ existing.bindingGeneration ≠ row.bindingGeneration ∨
        existing.controlGeneration ≠ row.controlGeneration) .conflict
  | none => putRun id { row with workItemId, currentExecution := none }

def restoreAgentRunState (id : AgentRunId) (row : AgentRun) : Transition Unit := do
  let _ ← findAttempt row.attemptId
  insertRestoredAgentRun id row

def restoredRow (attemptId : AttemptId) (bindingGeneration : BindingGeneration)
    (controlGeneration : ControlGeneration) : AgentRun :=
  { createdRun attemptId 0 none with bindingGeneration, controlGeneration }

def restoreAgentRun (id : AgentRunId) (attemptId : AttemptId) (bindingGeneration : BindingGeneration)
    (controlGeneration : ControlGeneration) : Transition Unit :=
  restoreAgentRunState id (restoredRow attemptId bindingGeneration controlGeneration)

/-- Recover a persisted AgentRun whose Attempt parent is absent. -/
def restoreOrphanedAgentRun (id : AgentRunId) (attemptId : AttemptId) (bindingGeneration : BindingGeneration)
    (controlGeneration : ControlGeneration) : Transition Unit := do
  let domain ← read
  if domain.attempts.lookup attemptId ≠ none then
    restoreAgentRun id attemptId bindingGeneration controlGeneration
  else
    insertRestoredAgentRun id
      { restoredRow attemptId bindingGeneration controlGeneration with
        executionLiveness := .unknown
        resumability := .reconciliationRequired }

def done {α : Type} (body : Transition α) : Transition Unit := do
  let _ ← body
  return ()

end Transition

/-- A public transition with its arguments, or identifiers drawn by other parts of the process. -/
inductive Operation where
  | issueIds (count : Nat)
  | createWorkScope (kind : WorkScopeKind)
  | createWorkItem (workScopeId : WorkScopeId)
  | createWorkItemWithMode (workScopeId : WorkScopeId) (acceptanceMode : AcceptanceContractMode)
  | createAttempt (workItemId : WorkItemId)
  | createAttemptWithOrigin (workItemId : WorkItemId) (origin : AttemptOrigin)
  | createAgentRun (attemptId : AttemptId)
  | advanceBindingGeneration (agentRunId : AgentRunId) (presented : BindingGeneration)
  | advanceControlGeneration (agentRunId : AgentRunId) (presented : ControlGeneration)
  | finalizeWorkItem (workItemId : WorkItemId) (outcome : WorkItemOutcome) (authorized : Bool)
  | createRelatedWorkItem (prior : WorkItemId)
  | prepareAgentRun (agentRunId : AgentRunId) (routing : RoutingDecision)
  | dispatchAgentRun (agentRunId : AgentRunId)
  | activateAgentRun (agentRunId : AgentRunId)
  | startPrepareAndDispatch (agentRunId : AgentRunId) (routing : RoutingDecision)
  | cancelAgentRun (agentRunId : AgentRunId) (control : ControlGeneration) (expectedRevision : Option Nat)
      (ambiguousEffect : Bool)
  | confirmCancelTermination (agentRunId : AgentRunId)
  | terminateCompleted (agentRunId : AgentRunId) (source : TerminationSource)
  | terminateFailed (agentRunId : AgentRunId) (source : TerminationSource)
  | closeAttempt (attemptId : AttemptId) (disposition : AttemptDisposition)
  | freshRetry (priorAttemptId : AttemptId) (priorDisposition : AttemptDisposition)
  | forkRun (parentRunId : AgentRunId)
  | parallelCandidate (parentAttemptId : AttemptId)
  | strategyChangeCandidate (parentAttemptId : AttemptId)
  | resumeAgentRun (agentRunId : AgentRunId)
  | rebindAgentRun (agentRunId : AgentRunId) (presented : BindingGeneration)
  | preStartFallback (agentRunId : AgentRunId) (newRouting : RoutingDecision) (proofNotStarted : Bool)
  | backendRestartRecovery (agentRunId : AgentRunId)
  | replaceExecution (agentRunId : AgentRunId) (newExecution oldExecution : ExecutionRef)
  | detectAndBind (workScopeId : WorkScopeId) (key : ExternalIdentityKey)
  | attachClient (agentRunId : AgentRunId) (sessionId : ClientSessionId) (access : AttachmentAccess)
  | detachClient (sessionId : ClientSessionId)
  | clientControl (sessionId : ClientSessionId) (agentRunId : AgentRunId) (presentedEpoch : ControlGeneration)
      (expectedRevision : Nat)
  | recordObservation (agentRunId : AgentRunId) (producerId : Nat) (bindingGeneration : BindingGeneration)
      (producerEventId : Option Nat) (kind : ObservationKind) (attemptClosed : Bool)
  | setResumability (agentRunId : AgentRunId) (fact : ResumabilityFact)
  | setObservationFact (agentRunId : AgentRunId) (fact : ObservationFact)
  | setAttemptUsage (attemptId : AttemptId) (usage cost : AccountingValue)
  | restoreWorkScope (id : WorkScopeId) (kind : WorkScopeKind)
  | restoreWorkItemState (id : WorkItemId) (item : WorkItem)
  | restoreAttemptState (id : AttemptId) (attempt : Attempt)
  | restoreAgentRunState (id : AgentRunId) (row : AgentRun)
  | restoreAgentRun (id : AgentRunId) (attemptId : AttemptId) (bindingGeneration : BindingGeneration)
      (controlGeneration : ControlGeneration)
  | restoreOrphanedAgentRun (id : AgentRunId) (attemptId : AttemptId) (bindingGeneration : BindingGeneration)
      (controlGeneration : ControlGeneration)

namespace Operation

open Transition in
def perform : Operation → Transition Unit
  | issueIds count => modify fun process => { process with nextId := process.nextId + count }
  | createWorkScope kind => done (Transition.createWorkScope kind)
  | createWorkItem workScopeId => done (Transition.createWorkItem workScopeId)
  | createWorkItemWithMode workScopeId acceptanceMode =>
      done (Transition.createWorkItemWithMode workScopeId acceptanceMode)
  | createAttempt workItemId => done (Transition.createAttempt workItemId)
  | createAttemptWithOrigin workItemId origin => done (Transition.createAttemptWithOrigin workItemId origin)
  | createAgentRun attemptId => done (Transition.createAgentRun attemptId)
  | advanceBindingGeneration agentRunId presented => done (Transition.advanceBindingGeneration agentRunId presented)
  | advanceControlGeneration agentRunId presented => done (Transition.advanceControlGeneration agentRunId presented)
  | finalizeWorkItem workItemId outcome authorized => Transition.finalizeWorkItem workItemId outcome authorized
  | createRelatedWorkItem prior => done (Transition.createRelatedWorkItem prior)
  | prepareAgentRun agentRunId routing => Transition.prepareAgentRun agentRunId routing
  | dispatchAgentRun agentRunId => Transition.dispatchAgentRun agentRunId
  | activateAgentRun agentRunId => Transition.activateAgentRun agentRunId
  | startPrepareAndDispatch agentRunId routing => Transition.startPrepareAndDispatch agentRunId routing
  | cancelAgentRun agentRunId control expectedRevision ambiguousEffect =>
      Transition.cancelAgentRun agentRunId control expectedRevision ambiguousEffect
  | confirmCancelTermination agentRunId => Transition.confirmCancelTermination agentRunId
  | terminateCompleted agentRunId source => Transition.terminateCompleted agentRunId source
  | terminateFailed agentRunId source => Transition.terminateFailed agentRunId source
  | closeAttempt attemptId disposition => Transition.closeAttempt attemptId disposition
  | freshRetry priorAttemptId priorDisposition => done (Transition.freshRetry priorAttemptId priorDisposition)
  | forkRun parentRunId => done (Transition.forkRun parentRunId)
  | parallelCandidate parentAttemptId => done (Transition.parallelCandidate parentAttemptId)
  | strategyChangeCandidate parentAttemptId => done (Transition.strategyChangeCandidate parentAttemptId)
  | resumeAgentRun agentRunId => Transition.resumeAgentRun agentRunId
  | rebindAgentRun agentRunId presented => done (Transition.rebindAgentRun agentRunId presented)
  | preStartFallback agentRunId newRouting proofNotStarted =>
      Transition.preStartFallback agentRunId newRouting proofNotStarted
  | backendRestartRecovery agentRunId => done (Transition.backendRestartRecovery agentRunId)
  | replaceExecution agentRunId newExecution oldExecution =>
      Transition.replaceExecution agentRunId newExecution oldExecution
  | detectAndBind workScopeId key => done (Transition.detectAndBind workScopeId key)
  | attachClient agentRunId sessionId access => Transition.attachClient agentRunId sessionId access
  | detachClient sessionId => Transition.detachClient sessionId
  | clientControl sessionId agentRunId presentedEpoch expectedRevision =>
      Transition.clientControl sessionId agentRunId presentedEpoch expectedRevision
  | recordObservation agentRunId producerId bindingGeneration producerEventId kind attemptClosed =>
      done (Transition.recordObservation agentRunId producerId bindingGeneration producerEventId kind attemptClosed)
  | setResumability agentRunId fact => Transition.setResumability agentRunId fact
  | setObservationFact agentRunId fact => Transition.setObservationFact agentRunId fact
  | setAttemptUsage attemptId usage cost => Transition.setAttemptUsage attemptId usage cost
  | restoreWorkScope id kind => Transition.restoreWorkScope id kind
  | restoreWorkItemState id item => Transition.restoreWorkItemState id item
  | restoreAttemptState id attempt => Transition.restoreAttemptState id attempt
  | restoreAgentRunState id row => Transition.restoreAgentRunState id row
  | restoreAgentRun id attemptId bindingGeneration controlGeneration =>
      Transition.restoreAgentRun id attemptId bindingGeneration controlGeneration
  | restoreOrphanedAgentRun id attemptId bindingGeneration controlGeneration =>
      Transition.restoreOrphanedAgentRun id attemptId bindingGeneration controlGeneration

/-- An identifier of a persisted row was issued before it was persisted. -/
def Issued (process : Process) : Operation → Prop
  | restoreWorkItemState id _ => id < process.nextId
  | restoreAttemptState id _ => id < process.nextId
  | restoreAgentRunState id row => id < process.nextId ∧ row.attemptId < process.nextId
  | restoreAgentRun id attemptId _ _ => id < process.nextId ∧ attemptId < process.nextId
  | restoreOrphanedAgentRun id attemptId _ _ => id < process.nextId ∧ attemptId < process.nextId
  | _ => True

def recovers : Operation → Bool
  | restoreWorkScope .. | restoreWorkItemState .. | restoreAttemptState .. | restoreAgentRunState ..
  | restoreAgentRun .. | restoreOrphanedAgentRun .. => true
  | _ => false

end Operation

def Step (before : Process) (operation : Operation) (after : Process) : Prop :=
  operation.Issued before ∧ ∃ outcome, operation.perform before = some (outcome, after)

end Seyal.Agent.Domain
