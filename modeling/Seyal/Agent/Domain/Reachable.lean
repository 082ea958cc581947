import Seyal.Agent.Domain.Specs
import Seyal.Program.Path

namespace Seyal.Agent.Domain

open Program Mapping Run Relation

/-! What holds in every domain that transitions reach from the empty one, and of every failing transition. -/

/-- The replacement passes the checks that the source makes. -/
def AgentDomain.replaceable (domain : AgentDomain) (agentRunId : AgentRunId)
    (newExecution oldExecution : ExecutionRef) : Bool :=
  newExecution ≠ oldExecution ∧ oldExecution ∉ domain.retiredExecutions ∧
    (domain.agentRuns.lookup agentRunId).any fun run => run.lifecycle ≠ .terminated

namespace Operation

/-- The call creates a run for a closed attempt: the attempt has none, and its work item is not finalized. -/
def reopens (domain : AgentDomain) : Operation → Bool
  | createAgentRun attemptId => (domain.attempts.lookup attemptId).any fun attempt =>
      attempt.lifecycle = .closed && !Transition.itemFinalized domain attempt.workItemId &&
        !anyValue domain.agentRuns fun run => run.attemptId = attemptId
  | _ => false

/-- The call advances a control generation while a client controls the run. -/
def outpaces (domain : AgentDomain) : Operation → Bool
  | advanceControlGeneration agentRunId presented =>
      (domain.agentRuns.lookup agentRunId).any (fun run => run.controlGeneration = presented) &&
        (nextGeneration presented).isSome &&
        anyValue domain.attachments fun attachment => attachment.agentRunId = agentRunId ∧ attachment.access = .control
  | _ => false

/-- The call binds this execution: it replaces another one by it and passes the checks, or detects it under a key
that is not bound yet. -/
def binds (domain : AgentDomain) (execution : ExecutionRef) : Operation → Bool
  | replaceExecution agentRunId newExecution oldExecution =>
      newExecution = execution && domain.replaceable agentRunId newExecution oldExecution
  | detectAndBind workScopeId key =>
      key.executionRef = execution && (domain.detectionBindings.lookup key).isNone &&
        (domain.workScopes.lookup workScopeId).isSome
  | _ => false

structure Within (guard : Guard) (domain : AgentDomain) (operation : Operation) : Prop where
  recovers : operation.recovers = true → guard.recovers
  reopens : operation.reopens domain = true → guard.reopens
  outpaces : operation.outpaces domain = true → guard.outpaces
  binds : ∀ execution, operation.binds domain execution = true → guard.binds execution

theorem reopens_iff {domain : AgentDomain} {attemptId : AttemptId} :
    (createAgentRun attemptId).reopens domain = true ↔ ∃ attempt, domain.attempts.lookup attemptId = some attempt ∧
      attempt.lifecycle = .closed ∧ Transition.Vacant domain attemptId attempt := by
  simp [reopens, Option.any_eq_true, Transition.vacant_iff, and_assoc]

theorem outpaces_iff {domain : AgentDomain} {id : AgentRunId} {presented : ControlGeneration} :
    (advanceControlGeneration id presented).outpaces domain = true ↔
      Transition.Advances domain id presented ∧ domain.HasController id := by
  simp [outpaces, Transition.Advances, AgentDomain.HasController, Option.any_eq_true, anyValue_eq_true,
    Option.isSome_iff_ne_none]

/-- The transition makes its checks in front of its changes. -/
def Atomic (domain : AgentDomain) : Operation → Prop
  | dispatchAgentRun agentRunId => Transition.HasAttempt domain .prepared agentRunId
  | startPrepareAndDispatch agentRunId _ => Transition.HasAttempt domain .created agentRunId
  | freshRetry attemptId _ => Transition.RetryAtomic domain attemptId
  | replaceExecution agentRunId newExecution oldExecution =>
      Transition.ReplaceAtomic domain agentRunId newExecution oldExecution
  | _ => True

open Transition in
theorem settles {guard : Guard} {before : Process} {operation : Operation} (known : before.Issued)
    (issued : operation.Issued before) (within : operation.Within guard before.domain) :
    Settles guard (operation.Atomic before.domain) before operation.perform := by
  cases operation with
  | issueIds count => exact ReflTransGen.single (.aside (Nat.le_add_right _ _) rfl rfl rfl rfl fun _ gone => gone)
  | createWorkScope kind => exact settles_done (createWorkScope_settles kind)
  | createWorkItem scope => exact settles_done (createWorkItemWithMode_settles scope .humanFinal)
  | createWorkItemWithMode scope mode => exact settles_done (createWorkItemWithMode_settles scope mode)
  | createAttempt item => exact settles_done (createAttemptWithOrigin_settles item .initial)
  | createAttemptWithOrigin item origin => exact settles_done (createAttemptWithOrigin_settles item origin)
  | createAgentRun attempt =>
      exact settles_done (createAgentRun_settles attempt fun attempt found closed vacant =>
        within.reopens (reopens_iff.mpr ⟨attempt, found, closed, vacant⟩))
  | advanceBindingGeneration id presented => exact settles_done (advanceBindingGeneration_settles id presented)
  | advanceControlGeneration id presented =>
      exact settles_done (advanceControlGeneration_settles id presented fun advances controlled =>
        within.outpaces (outpaces_iff.mpr ⟨advances, controlled⟩))
  | finalizeWorkItem id outcome authorized => exact finalizeWorkItem_settles id outcome authorized
  | createRelatedWorkItem prior => exact settles_done (createRelatedWorkItem_settles prior)
  | prepareAgentRun id routing => exact prepareAgentRun_settles id routing
  | dispatchAgentRun id => exact dispatchAgentRun_settles id
  | activateAgentRun id => exact activateAgentRun_settles id
  | startPrepareAndDispatch id routing => exact startPrepareAndDispatch_settles id routing
  | cancelAgentRun id control expected ambiguous => exact cancelAgentRun_settles id control expected ambiguous
  | confirmCancelTermination id => exact confirmCancelTermination_settles id
  | terminateCompleted id source => exact terminateAs_settles .completed id source
  | terminateFailed id source => exact terminateAs_settles .failed id source
  | closeAttempt id disposition => exact closeAttempt_settles id disposition
  | freshRetry id disposition => exact settles_done (freshRetry_settles known id disposition)
  | forkRun id => exact settles_done (forkRun_settles known id)
  | parallelCandidate id => exact settles_done (parallelCandidate_settles known id)
  | strategyChangeCandidate id => exact settles_done (strategyChangeCandidate_settles known id)
  | resumeAgentRun id => exact resumeAgentRun_settles id
  | rebindAgentRun id presented => exact settles_done (rebindAgentRun_settles id presented)
  | preStartFallback id routing proof => exact preStartFallback_settles id routing proof
  | backendRestartRecovery id => exact settles_done (backendRestartRecovery_settles id)
  | replaceExecution id newExecution oldExecution =>
      refine replaceExecution_settles id newExecution oldExecution fun different live run found going => ?_
      exact within.binds _ (by simp [binds, AgentDomain.replaceable, different, live, found, going])
  | detectAndBind scope key =>
      refine settles_done (detectAndBind_settles known scope key fun unbound there => ?_)
      exact within.binds _ (by simp [binds, unbound, Option.isSome_iff_ne_none.mpr there])
  | attachClient id session access => exact attachClient_settles id session access
  | detachClient session => exact detachClient_settles session
  | clientControl session id epoch revision => exact clientControl_settles session id epoch revision
  | recordObservation id producer binding event kind closed =>
      exact settles_done (recordObservation_settles id producer binding event kind closed)
  | setResumability id fact => exact setResumability_settles id fact
  | setObservationFact id fact => exact setObservationFact_settles id fact
  | setAttemptUsage id usage cost => exact setAttemptUsage_settles id usage cost
  | restoreWorkScope id kind => exact restoreWorkScope_settles id kind
  | restoreWorkItemState id item => exact restoreWorkItemState_settles (within.recovers rfl) issued item
  | restoreAttemptState id attempt => exact restoreAttemptState_settles (within.recovers rfl) issued attempt
  | restoreAgentRunState id row | restoreAgentRun id attempt binding control =>
      exact restoreAgentRunState_settles (within.recovers rfl) issued.1 issued.2
  | restoreOrphanedAgentRun id attempt binding control =>
      exact restoreOrphanedAgentRun_settles (within.recovers rfl) binding control issued.1 issued.2

def apply (operation : Operation) (process : Process) : Process :=
  match operation.perform process with
  | some (_, after) => after
  | none => process

def applyAll : List Operation → Process → Process
  | [], process => process
  | operation :: rest, process => applyAll rest (operation.apply process)

end Operation

open Operation

def GuardedStep (guard : Guard) (before : Process) (operation : Operation) (after : Process) : Prop :=
  Step before operation after ∧ operation.Within guard before.domain

section Runs

variable {guard : Guard} {before after : Process} {operations : List Operation}

theorem GuardedStep.edits {operation : Operation} (step : GuardedStep guard before operation after)
    (known : before.Issued) : Edits guard before after := by
  obtain ⟨⟨issued, outcome, ran⟩, within⟩ := step
  have settles := operation.settles known issued within
  cases outcome with
  | ok => exact wp_ok settles ran
  | error => exact (wp_error settles ran).1

theorem Path.edits (path : Path (GuardedStep guard) before operations after) (known : before.Issued) :
    Edits guard before after := by
  induction path with
  | nil => exact .refl
  | cons step rest further =>
      have edits := step.edits known
      exact edits.trans (further (edits.issued known))

theorem issued_empty (start : Nat) : Process.Issued { nextId := start } := by
  refine ⟨fun id item found => ?_, fun id attempt found => ?_, fun id run found => ?_⟩ <;> cases found

theorem Path.reached {start : Nat} (path : Path (GuardedStep guard) { nextId := start } operations after)
    (holds : AgentDomain → Prop) (empty : holds {})
    (keeps : ∀ process next, Edit guard process next → process.Issued → holds process.domain → holds next.domain) :
    after.Issued ∧ holds after.domain := by
  have start_ := issued_empty start
  refine (Path.edits path start_).keeps
    (fun process : Process => process.Issued ∧ holds process.domain) ⟨start_, empty⟩ ?_
  rintro process next edit ⟨known, so⟩
  exact ⟨edit.issued known, keeps process next edit known so⟩

theorem Operation.within_any (operation : Operation) (domain : AgentDomain) :
    operation.Within ⟨True, True, True, fun _ => True⟩ domain :=
  ⟨fun _ => trivial, fun _ => trivial, fun _ => trivial, fun _ _ => trivial⟩

theorem Step.edits {operation : Operation} (step : Step before operation after) (known : before.Issued) :
    Edits ⟨True, True, True, fun _ => True⟩ before after :=
  GuardedStep.edits ⟨step, operation.within_any before.domain⟩ known

theorem Operation.step_apply {operation : Operation} (known : before.Issued) (fresh : operation.recovers = false) :
    Step before operation (operation.apply before) := by
  have issued : operation.Issued before := by
    cases operation <;> trivial
  refine ⟨issued, ?_⟩
  unfold apply
  cases ran : operation.perform before with
  | none =>
      have runs := isSome_of_wp (operation.settles known issued (operation.within_any before.domain))
      rw [ran] at runs
      cases runs
  | some result => exact ⟨result.1, rfl⟩

end Runs

def Meeting (condition : AgentDomain → Operation → Bool) (before : Process) (operation : Operation) (after : Process) :
    Prop :=
  Step before operation after ∧ condition before.domain operation = true

/-- Operations that recover nothing, each of which meets the condition where it is performed. -/
def meetsAll (condition : AgentDomain → Operation → Bool) : List Operation → Process → Bool
  | [], _ => true
  | operation :: rest, process =>
      !operation.recovers && condition process.domain operation && meetsAll condition rest (operation.apply process)

variable {operations : List Operation} {before process after : Process} {start : Nat}

theorem path_applyAll {condition : AgentDomain → Operation → Bool} (known : before.Issued)
    (meets : meetsAll condition operations before = true) :
    Path (Meeting condition) before operations (applyAll operations before) := by
  induction operations generalizing before with
  | nil => exact .nil
  | cons operation rest further =>
      simp only [meetsAll, Bool.and_eq_true, Bool.not_eq_true'] at meets
      have step := operation.step_apply known meets.1.1
      exact .cons ⟨step, meets.1.2⟩ (further ((step.edits known).issued known) meets.2)

theorem Path.issued (path : Path Step { nextId := start } operations process) :
    process.Issued := by
  have any : Path (GuardedStep ⟨True, True, True, fun _ => True⟩) { nextId := start } operations process :=
    path.mono fun before operation _ step => ⟨step, operation.within_any before.domain⟩
  exact (Path.edits any (issued_empty start)).issued (issued_empty start)

theorem Path.steps {condition : AgentDomain → Operation → Bool}
    (path : Path (Meeting condition) before operations after) :
    Path Step before operations after :=
  path.mono fun _ _ _ step => step.1

/-- Nothing is recovered, and no run is created for a closed attempt. -/
def Operation.keepsClosed (domain : AgentDomain) (operation : Operation) : Bool :=
  !operation.recovers && !operation.reopens domain

theorem Operation.within_of_keepsClosed {domain : AgentDomain} {operation : Operation}
    (keeps : operation.keepsClosed domain = true) : operation.Within ⟨False, False, True, fun _ => True⟩ domain := by
  simp only [keepsClosed, Bool.and_eq_true, Bool.not_eq_true'] at keeps
  exact ⟨fun recovers => (by cases recovers.symm.trans keeps.1), fun reopens => (by cases reopens.symm.trans keeps.2),
    fun _ => trivial, fun _ _ => trivial⟩

/-- The condition is exact: without it, a closed attempt gets a run. -/
theorem Step.reopens {operation : Operation} (step : Step before operation after)
    (reopens : operation.reopens before.domain = true) : ¬ after.domain.ClosedDone := by
  cases operation with
  | createAgentRun attemptId =>
      obtain ⟨attempt, found, closed, vacant⟩ := reopens_iff.mp reopens
      obtain ⟨_, outcome, ran⟩ := step
      have spec : wp (Transition.done (Transition.createAgentRun attemptId))
          (fun _ after => ¬ after.domain.ClosedDone) (fun _ _ => False) before := by
        rw [Transition.wp_done]
        refine wp_mono (Transition.createAgentRunWithLineage_spec attemptId none) ?_ ?_
        · rintro _ after ⟨other, there, _, _, rfl⟩ done
          cases done _ _ attempt (AList.lookup_insert _) found closed
        · exact fun _ after refused => refused.2 attempt found vacant
      cases outcome with
      | ok => exact wp_ok spec ran
      | error => exact (wp_error spec ran).elim
  | _ => cases reopens

theorem aggregate_rules {start : Nat} {operations more : List Operation} {process later : Process}
    (path : Path (Meeting keepsClosed) { nextId := start } operations process)
    (further : Path (Meeting keepsClosed) process more later) :
    (∀ id run, process.domain.agentRuns.lookup id = some run →
      ∃ attempt, process.domain.attempts.lookup run.attemptId = some attempt ∧
        attempt.workItemId = run.workItemId) ∧
    (∀ first second run other, process.domain.agentRuns.lookup first = some run →
      process.domain.agentRuns.lookup second = some other → run.attemptId = other.attemptId → first = second) ∧
    (∀ id run attempt, process.domain.agentRuns.lookup id = some run →
      process.domain.attempts.lookup run.attemptId = some attempt → attempt.lifecycle = .closed →
      run.lifecycle = .terminated) ∧
    (∀ id run, process.domain.agentRuns.lookup id = some run → run.lifecycle = .terminated →
      ∃ next, later.domain.agentRuns.lookup id = some next ∧ next.lifecycle = .terminated ∧
        next.termination = run.termination) ∧
    (∀ id attempt, process.domain.attempts.lookup id = some attempt → attempt.lifecycle = .closed →
      ∃ next, later.domain.attempts.lookup id = some next ∧ next.lifecycle = .closed) ∧
    (∀ id attempt item, later.domain.attempts.lookup id = some attempt → process.domain.attempts.lookup id = none →
      process.domain.workItems.lookup attempt.workItemId = some item → item.lifecycle ≠ .finalized) ∧
    (∀ id run item, later.domain.agentRuns.lookup id = some run → process.domain.agentRuns.lookup id = none →
      process.domain.workItems.lookup run.workItemId = some item → item.lifecycle ≠ .finalized) ∧
    (∀ operation after, operation.reopens process.domain = true → Step process operation after →
      ¬ after.domain.ClosedDone) := by
  have guarded : ∀ before operation after, Meeting keepsClosed before operation after →
      GuardedStep ⟨False, False, True, fun _ => True⟩ before operation after :=
    fun _ _ _ step => ⟨step.1, within_of_keepsClosed step.2⟩
  obtain ⟨known, coherent, done⟩ := Path.reached (path.mono guarded)
    (fun domain => domain.Coherent ∧ domain.ClosedDone)
    ⟨⟨fun _ _ found => (by cases found), fun _ _ _ _ found => (by cases found)⟩, fun _ _ _ found => (by cases found)⟩
    fun _ _ edit known holds =>
      ⟨edit.coherent known not_false holds.1, edit.closedDone known not_false not_false holds.2⟩
  have edits := Path.edits (further.mono guarded) known
  have lasts := edits.lasts known
  have adds := edits.adds known not_false
  refine ⟨coherent.attempt, coherent.single, done, ?_, ?_, adds.attempts, adds.runs,
    fun _ _ reopens step => step.reopens reopens⟩
  · intro id run found ended
    obtain ⟨next, there, continues, _⟩ := lasts.runs id run found
    exact ⟨next, there, continues.ended ended⟩
  · intro id attempt found closed
    obtain ⟨next, there, _, still⟩ := lasts.attempts id attempt found
    exact ⟨next, there, still closed⟩

def Operation.plain (_ : AgentDomain) (operation : Operation) : Bool := !operation.recovers

namespace Sample

def decision : RoutingDecision where
  adapterId := 1
  adapterManifestGeneration := 1
  routeOfferingId := 1
  executionHostKind := .fake
  launchDescriptorRef := 1
  selectionKind := .pinned

def created : List Operation :=
  [.createWorkScope .project, .createWorkItem 1, .createAttempt 2, .createAgentRun 3]

def completed : Process :=
  applyAll (created ++ [.startPrepareAndDispatch 4 decision, .terminateCompleted 4 .harness]) {}

def completedRun : AgentRun :=
  { Transition.createdRun 3 2 none with
    runRevision := 4
    lifecycle := .terminated
    executionLiveness := .exited
    termination := some { kind := .completed, source := .harness, reasonCode := none }
    routingDecisionRef := some 1 }

def retried : List Operation :=
  [.closeAttempt 3 .rejected, .freshRetry 3 .rejected, .cancelAgentRun 4 1 none false]

def reopened : List Operation :=
  [.createWorkScope .project, .createWorkItem 1, .createAttempt 2, .closeAttempt 3 .rejected, .createAgentRun 3]

def closedAttempt : Attempt :=
  { Transition.createdAttempt 2 .initial with lifecycle := .closed, disposition := some .rejected }

end Sample

open Sample

/-- A completed run stays completed when its attempt is closed and retried. -/
theorem aggregate_rules_sample :
    ∃ next, (applyAll retried completed).domain.agentRuns.lookup 4 = some next ∧
      next.lifecycle = .terminated ∧ next.termination = completedRun.termination := by
  have path : Path (Meeting keepsClosed) { nextId := 1 } _ completed :=
    path_applyAll (issued_empty 1) (by decide +kernel)
  have further : Path (Meeting keepsClosed) completed retried _ :=
    path_applyAll (Path.issued (Path.steps path)) (by decide +kernel)
  exact (aggregate_rules path further).2.2.2.1 4 completedRun (by decide +kernel) (by decide)

theorem closed_attempt_gets_run :
    ∃ operations process, Path (Meeting plain) {} operations process ∧
      ∃ id run attempt, process.domain.agentRuns.lookup id = some run ∧
        process.domain.attempts.lookup run.attemptId = some attempt ∧ attempt.lifecycle = .closed ∧
        run.lifecycle ≠ .terminated := by
  have path : Path (Meeting plain) {} reopened _ :=
    path_applyAll (issued_empty 1) (by decide +kernel)
  exact ⟨_, _, path, 4, Transition.createdRun 3 2 none, closedAttempt,
    by decide +kernel, by decide +kernel, by decide, by decide⟩

/-- The recovery of rows included: a failing transition leaves the domain as it was, except for the dispatch
of a run without its attempt, the retry of an open attempt at a finalized work item, and the replacement of
an execution for a run that is unknown or terminated. -/
theorem failure_atomic {start : Nat} {operations : List Operation} {process after : Process} {operation : Operation}
    {error : DomainError} (path : Path Step { nextId := start } operations process)
    (issued : operation.Issued process) (atomic : operation.Atomic process.domain)
    (failed : operation.perform process = some (.error error, after)) (clear : error ≠ .reconciliationRequired) :
    after.domain = process.domain := by
  have settles := operation.settles (Path.issued path) issued (operation.within_any process.domain)
  exact (wp_error settles failed).2 atomic clear

/-- The run of the attempt is not terminated: the attempt stays open. -/
theorem failure_atomic_sample :
    ∃ after, (closeAttempt 3 .rejected).perform (applyAll created {}) =
        some (.error .attemptNotClosable, after) ∧
      after.domain = (applyAll created {}).domain := by
  have path : Path (Meeting plain) { nextId := 1 } created (applyAll created {}) :=
    path_applyAll (issued_empty 1) (by decide +kernel)
  have failed : (closeAttempt 3 .rejected).perform (applyAll created {}) =
      some (.error .attemptNotClosable, _) := rfl
  exact ⟨_, failed, failure_atomic (Path.steps path) (by trivial) (by trivial) failed (by decide)⟩

namespace Sample

def finalized : List Operation :=
  [.createWorkScope .project, .createWorkItem 1, .createAttempt 2, .finalizeWorkItem 2 .abandoned true]

end Sample

/-- The execution is retired for a run that does not exist, and the attempt is closed without a retry. -/
theorem failure_keeps_changes :
    (∃ after, (replaceExecution 4 8 9).perform {} = some (.error (.unknownAgentRun 4), after) ∧
      after.domain.retiredExecutions ≠ ({} : Process).domain.retiredExecutions) ∧
    ∃ process after, Path (Meeting plain) {} finalized process ∧
      (freshRetry 3 .rejected).perform process = some (.error .workItemFinalized, after) ∧
      after.domain.attempts.lookup 3 ≠ process.domain.attempts.lookup 3 := by
  have path : Path (Meeting plain) {} finalized (applyAll finalized {}) :=
    path_applyAll (issued_empty 1) (by decide +kernel)
  exact ⟨⟨_, rfl, by decide +kernel⟩, _, _, path, rfl, by decide +kernel⟩

/-- No control generation advances while a client controls its run. -/
def Operation.advancesAlone (domain : AgentDomain) (operation : Operation) : Bool := !operation.outpaces domain

theorem Operation.within_of_advancesAlone {domain : AgentDomain} {operation : Operation}
    (alone : operation.advancesAlone domain = true) : operation.Within ⟨True, True, False, fun _ => True⟩ domain := by
  simp only [advancesAlone, Bool.not_eq_true'] at alone
  exact ⟨fun _ => trivial, fun _ => trivial, fun outpaces => (by cases outpaces.symm.trans alone), fun _ _ => trivial⟩

theorem Path.fenced (path : Path (Meeting advancesAlone) { nextId := start } operations process) :
    process.domain.Fenced := by
  have guarded : Path (GuardedStep ⟨True, True, False, fun _ => True⟩) { nextId := start } operations process :=
    path.mono fun _ _ _ step => ⟨step.1, within_of_advancesAlone step.2⟩
  exact (Path.reached guarded AgentDomain.Fenced (fun _ _ found => by cases found)
    fun _ _ edit known => edit.fenced known not_false).2

theorem Path.lasts (path : Path Step before operations after) (known : before.Issued) :
    before.domain.Lasts after.domain := by
  have any : Path (GuardedStep ⟨True, True, True, fun _ => True⟩) before operations after :=
    path.mono fun before operation _ step => ⟨step, operation.within_any before.domain⟩
  exact (Path.edits any known).lasts known

open Transition in
theorem Path.control_current {session : ClientSessionId} {id : AgentRunId} {epoch : ControlGeneration}
    {revision : Nat}
    (path : Path (Meeting advancesAlone) { nextId := start } operations process)
    (controls : clientControl session id epoch revision process = some (.ok (), after)) :
    ∃ attachment run, process.domain.attachments.lookup session = some attachment ∧
      attachment.agentRunId = id ∧ attachment.access = .control ∧
      process.domain.agentRuns.lookup id = some run ∧ run.controlGeneration = epoch := by
  obtain ⟨_, attachment, run, held, found, rfl, control, rfl, _⟩ :=
    wp_ok (clientControl_reads session id epoch revision) controls
  obtain ⟨same, there, current⟩ := Path.fenced path session attachment held control
  cases there.symm.trans found
  exact ⟨attachment, run, held, rfl, control, found, current.symm⟩

theorem Transition.done_ran {α : Type} {body : Transition α} {value : α} (ran : body before = some (.ok value, after)) :
    Transition.done body before = some (.ok (), after) := by
  change Run.bind body _ before = _
  unfold Run.bind
  rw [ran]
  rfl

open Transition in
/-- The condition is exact: without it, the epoch a client holds is stale and still controls the run. -/
theorem Path.stale_control (path : Path (Meeting Operation.advancesAlone) { nextId := start } operations process)
    {id : AgentRunId} {presented next : ControlGeneration} {advanced : Process}
    (outpaces : (Operation.advanceControlGeneration id presented).outpaces process.domain = true)
    (advances : advanceControlGeneration id presented process = some (.ok next, advanced)) :
    ∃ session epoch run, advanced.domain.agentRuns.lookup id = some run ∧ epoch < run.controlGeneration ∧
      clientControl session id epoch run.runRevision advanced = some (.ok (), advanced) := by
  obtain ⟨_, session, attachment, held, rfl, control⟩ := Operation.outpaces_iff.mp outpaces
  obtain ⟨_, run, moved, found, less, rfl⟩ := wp_ok
    (advanceControlGeneration_spec ⟨True, True, True, fun _ => True⟩ _ presented fun _ _ => trivial) advances
  obtain ⟨same, there, current⟩ := Path.fenced path session attachment held control
  cases there.symm.trans found
  exact ⟨session, attachment.controlEpoch, moved, AList.lookup_insert _, current ▸ less,
    clientControl_stale held control (AList.lookup_insert _)⟩

open Transition in
theorem stale_epoch_refused {start : Nat} {operations : List Operation} {process : Process}
    (path : Path (Meeting Operation.advancesAlone) { nextId := start } operations process) :
    (∀ session id epoch revision after, clientControl session id epoch revision process = some (.ok (), after) →
      ∃ attachment run, process.domain.attachments.lookup session = some attachment ∧
        attachment.agentRunId = id ∧ attachment.access = .control ∧
        process.domain.agentRuns.lookup id = some run ∧ run.controlGeneration = epoch) ∧
    (∀ session id access run presented next granted between advanced later (middle more : List Operation),
      process.domain.agentRuns.lookup id = some run →
      attachClient id session access process = some (.ok (), granted) →
      Path (Meeting Operation.advancesAlone) granted middle between →
      (Operation.advanceControlGeneration id presented).advancesAlone between.domain = true →
      advanceControlGeneration id presented between = some (.ok next, advanced) →
      Path (Meeting Operation.advancesAlone) advanced more later →
      ∀ other revision after, clientControl other id run.controlGeneration revision later ≠ some (.ok (), after)) ∧
    (∀ id presented next advanced,
      (Operation.advanceControlGeneration id presented).outpaces process.domain = true →
      advanceControlGeneration id presented process = some (.ok next, advanced) →
      ∃ session epoch run, advanced.domain.agentRuns.lookup id = some run ∧ epoch < run.controlGeneration ∧
        clientControl session id epoch run.runRevision advanced = some (.ok (), advanced)) := by
  refine ⟨fun _ _ _ _ _ controls => Path.control_current path controls, ?_,
    fun _ _ _ _ outpaces advances => Path.stale_control path outpaces advances⟩
  intro session id access run presented next granted between advanced later middle more
    found attached first alone advances last other revision after controls
  have attach : Meeting Operation.advancesAlone process (.attachClient id session access) granted :=
    ⟨⟨trivial, _, attached⟩, rfl⟩
  have advance : Meeting Operation.advancesAlone between (.advanceControlGeneration id presented) advanced :=
    ⟨⟨trivial, _, done_ran advances⟩, alone⟩
  have upto := Path.append path (.cons attach first)
  have whole := (upto.snoc advance).append last
  -- the generation never falls, and the advance raises it
  obtain ⟨run₁, found₁, _, less₁⟩ :=
    (Path.lasts (Path.steps (.cons attach first)) (Path.issued (Path.steps path))).runs id run found
  obtain ⟨_, run₂, run₃, found₂, less₃, rfl⟩ :=
    wp_ok (advanceControlGeneration_spec ⟨True, True, True, fun _ => True⟩ id presented fun _ _ => trivial) advances
  obtain ⟨run₄, found₄, _, less₄⟩ :=
    (Path.lasts (Path.steps last) (Path.issued (Path.steps (upto.snoc advance)))).runs id run₃
      (AList.lookup_insert _)
  obtain ⟨_, current, _, _, _, there, same⟩ := Path.control_current whole controls
  cases found₁.symm.trans found₂
  cases there.symm.trans found₄
  have raised := Nat.lt_of_le_of_lt less₁ (Nat.lt_of_lt_of_le less₃ less₄)
  exact Nat.ne_of_gt raised same

namespace Sample

def controlled : List Operation :=
  created ++ [.attachClient 4 7 .control, .detachClient 7, .advanceControlGeneration 4 1, .attachClient 4 7 .control]

end Sample

/-- A client that attached after the advance presents the second epoch. -/
theorem stale_epoch_refused_sample :
    ∃ attachment run, (applyAll controlled {}).domain.attachments.lookup 7 = some attachment ∧
      attachment.agentRunId = 4 ∧ attachment.access = .control ∧
      (applyAll controlled {}).domain.agentRuns.lookup 4 = some run ∧ run.controlGeneration = 2 := by
  have path : Path (Meeting advancesAlone) { nextId := 1 } controlled
      (applyAll controlled {}) := path_applyAll (issued_empty 1) (by decide +kernel)
  exact (stale_epoch_refused path).1 7 4 2 2 (applyAll controlled {}) rfl

/-- The epoch a client holds outlives the advance of its run's control generation. -/
theorem stale_epoch_controls :
    ∃ operations process run, Path (Meeting plain) {} operations process ∧
      process.domain.agentRuns.lookup 4 = some run ∧ run.controlGeneration = 2 ∧
      Transition.clientControl 7 4 1 2 process = some (.ok (), process) := by
  have path : Path (Meeting plain) {}
      (created ++ [.attachClient 4 7 .control, .advanceControlGeneration 4 1]) _ :=
    path_applyAll (issued_empty 1) (by decide +kernel)
  refine ⟨_, _, { Transition.createdRun 3 2 none with controlGeneration := 2, runRevision := 2 }, path, ?_, rfl, rfl⟩
  decide +kernel

end Seyal.Agent.Domain
