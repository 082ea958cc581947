import Seyal.Agent.Domain.Edits

namespace Seyal.Agent.Domain

open Program Mapping Run Relation

/-! Each transition is a sequence of edits, and a refused one leaves the domain as it was. -/

/-- How a transition ends in an error. Under the condition `atomic` nothing was done, unless the
error asks for reconciliation. -/
def Refused (guard : Guard) (atomic : Prop) (before : Process) (error : DomainError) (after : Process) : Prop :=
  Edits guard before after ∧ (atomic → error ≠ .reconciliationRequired → after.domain = before.domain)

variable {id : AgentRunId} {error : DomainError} {next : Unit → Transition α} {run : AgentRun}

/-- The transition only makes edits that the guard allows. -/
def Settles {α : Type} (guard : Guard) (atomic : Prop) (before : Process) (body : Transition α) : Prop :=
  wp body (fun _ after => Edits guard before after) (Refused guard atomic before) before

variable {α β : Type} {guard : Guard} {atomic : Prop} {before : Process}

theorem Refused.same {error : DomainError} : Refused guard atomic before error before :=
  ⟨.refl, fun _ _ => rfl⟩

theorem Refused.unclear {after : Process} (edits : Edits guard before after) :
    Refused guard atomic before .reconciliationRequired after :=
  ⟨edits, fun _ other => absurd rfl other⟩

theorem Settles.mono {stronger : Prop} {body : Transition α} (settles : Settles guard atomic before body)
    (weaker : stronger → atomic) : Settles guard stronger before body :=
  wp_mono settles (fun _ _ => id) fun _ _ refused => ⟨refused.1, fun holds => refused.2 (weaker holds)⟩

def Process.recorded (process : Process) (decision : RoutingDecision) : Process :=
  { process with domain := { process.domain with
      nextRoutingDecision := Terminal.saturatingAdd 64 process.domain.nextRoutingDecision 1
      routingDecisions := process.domain.routingDecisions.insert
        (Terminal.saturatingAdd 64 process.domain.nextRoutingDecision 1) decision } }

namespace Transition

section Rules

variable {fails : DomainError → Process → Prop}

@[simp] theorem wp_runMut {post : AgentRun → Process → Prop} {id : AgentRunId} :
    wp (runMut id) post fails before ↔
      (∀ run, before.domain.agentRuns.lookup id = some run → post run before) ∧
        (before.domain.agentRuns.lookup id = none → fails (.unknownAgentRun id) before) := by
  simp only [runMut, wp_bind, wp_read, wp_okOr]

@[simp] theorem wp_findAttempt {post : Attempt → Process → Prop} {id : AttemptId} :
    wp (findAttempt id) post fails before ↔
      (∀ attempt, before.domain.attempts.lookup id = some attempt → post attempt before) ∧
        (before.domain.attempts.lookup id = none → fails (.unknownAttempt id) before) := by
  simp only [findAttempt, wp_bind, wp_read, wp_okOr]

@[simp] theorem wp_findItem {post : WorkItem → Process → Prop} {id : WorkItemId} :
    wp (findItem id) post fails before ↔
      (∀ item, before.domain.workItems.lookup id = some item → post item before) ∧
        (before.domain.workItems.lookup id = none → fails (.unknownWorkItem id) before) := by
  simp only [findItem, wp_bind, wp_read, wp_okOr]

variable {post : Unit → Process → Prop}

@[simp] theorem wp_putRun {id : AgentRunId} {run : AgentRun} :
    wp (putRun id run) post fails before = post () (before.withRun id run) := rfl

@[simp] theorem wp_putAttempt {id : AttemptId} {attempt : Attempt} :
    wp (putAttempt id attempt) post fails before = post () (before.withAttempt id attempt) := rfl

@[simp] theorem wp_putItem {id : WorkItemId} {item : WorkItem} :
    wp (putItem id item) post fails before = post () (before.withItem id item) := rfl

@[simp] theorem wp_requireLifecycle {current allowed : AgentRunLifecycle} :
    wp (requireLifecycle current allowed) post fails before ↔
      (current = allowed → post () before) ∧ (current ≠ allowed → fails .invalidTransition before) := by
  by_cases met : current = allowed <;> simp [requireLifecycle, met]

@[simp] theorem wp_done {body : Transition α} :
    wp (done body) post fails before = wp body (fun _ => post ()) fails before := by
  simp only [done, wp_bind, wp_pure]

end Rules

theorem settles_done {body : Transition α} (settles : Settles guard atomic before body) :
    Settles guard atomic before (done body) := by
  unfold Settles
  rw [wp_done]
  exact settles

/-! Rules for what stands in front of the first change. -/

theorem settles_runMut {next : AgentRun → Transition α}
    (known : ∀ run, before.domain.agentRuns.lookup id = some run → Settles guard atomic before (next run)) :
    Settles guard atomic before (runMut id >>= next) := by
  unfold Settles
  rw [wp_bind, wp_runMut]
  exact ⟨known, fun _ => .same⟩

theorem settles_findAttempt {id : AttemptId} {next : Attempt → Transition α}
    (known : ∀ attempt, before.domain.attempts.lookup id = some attempt → Settles guard atomic before (next attempt)) :
    Settles guard atomic before (findAttempt id >>= next) := by
  unfold Settles
  rw [wp_bind, wp_findAttempt]
  exact ⟨known, fun _ => .same⟩

theorem settles_findItem {id : WorkItemId} {next : WorkItem → Transition α}
    (known : ∀ item, before.domain.workItems.lookup id = some item → Settles guard atomic before (next item)) :
    Settles guard atomic before (findItem id >>= next) := by
  unfold Settles
  rw [wp_bind, wp_findItem]
  exact ⟨known, fun _ => .same⟩

theorem settles_read {next : AgentDomain → Transition α} (rest : Settles guard atomic before (next before.domain)) :
    Settles guard atomic before (read >>= next) := by
  unfold Settles
  rw [wp_bind, wp_read]
  exact rest

theorem settles_refuseIf {bad : Prop} [Decidable bad] (rest : ¬ bad → Settles guard atomic before (next ())) :
    Settles guard atomic before (refuseIf bad error >>= next) := by
  unfold Settles
  rw [wp_bind, wp_refuseIf]
  exact ⟨fun _ => .same, rest⟩

theorem settles_requireLifecycle {current allowed : AgentRunLifecycle}
    (rest : current = allowed → Settles guard atomic before (next ())) :
    Settles guard atomic before (requireLifecycle current allowed >>= next) := by
  unfold Settles
  rw [wp_bind, wp_requireLifecycle]
  exact ⟨rest, fun _ => .same⟩

theorem settles_pure {value : α} : Settles guard atomic before (Pure.pure value : Transition α) := ReflTransGen.refl

theorem settles_throw : Settles guard atomic before (throw error : Transition α) := Refused.same

def ReadOnly (before : Process) (body : Transition α) (known : α → Prop) : Prop :=
  wp body (fun value after => after = before ∧ known value) (fun _ after => after = before) before

theorem settles_check {check : Transition β} {known : β → Prop} {next : β → Transition α}
    (reads : ReadOnly before check known)
    (rest : ∀ value, known value → Settles guard atomic before (next value)) :
    Settles guard atomic before (check >>= next) := by
  unfold Settles
  rw [wp_bind]
  refine wp_mono reads ?_ ?_
  · rintro value after ⟨rfl, holds⟩
    exact rest value holds
  · rintro error after rfl
    exact .same

theorem settles_last_refuseIf {bad : Prop} [Decidable bad] :
    Settles guard atomic before (refuseIf bad error) := by
  unfold Settles
  rw [wp_refuseIf]
  exact ⟨fun _ => .same, fun _ => .refl⟩

theorem settles_putRun {next : AgentRun} (found : before.domain.agentRuns.lookup id = some run)
    (continues : run.Continues next)
    (control : next.controlGeneration = run.controlGeneration)
    (same : next.currentExecution = run.currentExecution) : Settles guard atomic before (putRun id next) :=
  ReflTransGen.single (.change next found continues control same)

theorem continues {next : AgentRun} (attempt : next.attemptId = run.attemptId)
    (item : next.workItemId = run.workItemId) (lifecycle : next.lifecycle = run.lifecycle)
    (termination : next.termination = run.termination) : run.Continues next :=
  ⟨attempt, item, fun ended => ⟨lifecycle.trans ended, termination⟩⟩

theorem continues_live {next : AgentRun} (live : run.lifecycle ≠ .terminated)
    (attempt : next.attemptId = run.attemptId) (item : next.workItemId = run.workItemId) : run.Continues next :=
  ⟨attempt, item, fun ended => absurd ended live⟩

theorem createWorkScope_settles (kind : WorkScopeKind) : Settles guard True before (createWorkScope kind) :=
  ReflTransGen.single (.aside (Nat.le_succ _) rfl rfl rfl rfl fun _ gone => gone)

theorem mintWorkItem_settles (item : WorkItem) : Settles guard True before (mintWorkItem item) :=
  ReflTransGen.single (.newItem item)

theorem requireScope_reads (scope : WorkScopeId) :
    ReadOnly before (requireScope scope) fun _ => before.domain.workScopes.lookup scope ≠ none := by
  unfold ReadOnly requireScope
  simp only [wp_bind, wp_read, wp_refuseIf, implies_true, true_and]
  exact id

theorem createWorkItemWithMode_settles (scope : WorkScopeId) (mode : AcceptanceContractMode) :
    Settles guard True before (createWorkItemWithMode scope mode) :=
  settles_check (requireScope_reads scope) fun _ _ => mintWorkItem_settles _

def ParentAt (domain : AgentDomain) (workItemId : WorkItemId) (parent : Option AttemptId) : Prop :=
  ∀ id, parent = some id → ∃ attempt, domain.attempts.lookup id = some attempt ∧ attempt.workItemId = workItemId

/-- An attempt of this origin may be made at the work item. -/
structure Admits (domain : AgentDomain) (workItemId : WorkItemId) (origin : AttemptOrigin) : Prop where
  item : ∃ item, domain.workItems.lookup workItemId = some item ∧ item.lifecycle ≠ .finalized
  parent : ParentAt domain workItemId origin.parent

def createdAttempt (workItemId : WorkItemId) (origin : AttemptOrigin) : Attempt :=
  { workItemId, origin, lifecycle := .created, disposition := none, usage := .unknown, cost := .unknown }

theorem requireParent_spec (workItemId : WorkItemId) (parent : Option AttemptId) :
    wp (requireParent workItemId parent) (fun _ after => after = before ∧ ParentAt before.domain workItemId parent)
      (fun _ after => after = before ∧ ¬ ParentAt before.domain workItemId parent) before := by
  cases parent with
  | none => exact ⟨rfl, fun id impossible => by cases impossible⟩
  | some id =>
      unfold requireParent
      simp only [wp_bind, wp_findAttempt, wp_refuseIf, true_and, not_not]
      refine ⟨fun attempt found => ⟨fun different holds => ?_, fun same other here => ?_⟩, fun absent holds => ?_⟩
      · obtain ⟨found_, there, same⟩ := holds id rfl
        cases there.symm.trans found
        exact different same
      · cases here
        exact ⟨attempt, found, same⟩
      · obtain ⟨found_, there, _⟩ := holds id rfl
        cases there.symm.trans absent

theorem createAttemptWithOrigin_spec (workItemId : WorkItemId) (origin : AttemptOrigin) :
    wp (createAttemptWithOrigin workItemId origin)
      (fun id after => Admits before.domain workItemId origin ∧ id = before.nextId ∧
        after = before.minted.withAttempt before.nextId (createdAttempt workItemId origin))
      (fun _ after => after = before ∧ ¬ Admits before.domain workItemId origin) before := by
  unfold createAttemptWithOrigin
  simp only [wp_bind, wp_findItem, wp_refuseIf, true_and]
  refine ⟨fun item found => ⟨fun final admits => ?_, fun unfinished => ?_⟩, fun absent admits => ?_⟩
  · obtain ⟨other, there, open_⟩ := admits.item
    cases there.symm.trans found
    exact open_ final
  · refine wp_mono (requireParent_spec workItemId origin.parent) ?_ ?_
    · rintro _ after ⟨rfl, parent⟩
      exact ⟨⟨⟨item, found, unfinished⟩, parent⟩, rfl, rfl⟩
    · rintro _ after ⟨rfl, missing⟩
      exact ⟨rfl, fun admits => missing admits.parent⟩
  · obtain ⟨other, there, _⟩ := admits.item
    cases there.symm.trans absent

theorem createAttemptWithOrigin_settles (workItemId : WorkItemId) (origin : AttemptOrigin) :
    Settles guard True before (createAttemptWithOrigin workItemId origin) := by
  refine wp_mono (createAttemptWithOrigin_spec workItemId origin) ?_ ?_
  · rintro _ after ⟨⟨⟨item, found, unfinished⟩, _⟩, _, rfl⟩
    exact .single (.newAttempt _ rfl found unfinished)
  · rintro _ after ⟨rfl, _⟩
    exact .same

structure Vacant (domain : AgentDomain) (attemptId : AttemptId) (attempt : Attempt) : Prop where
  unfinished : ∀ item, domain.workItems.lookup attempt.workItemId = some item → item.lifecycle ≠ .finalized
  only : ∀ other run, domain.agentRuns.lookup other = some run → run.attemptId ≠ attemptId

theorem vacant_iff {domain : AgentDomain} {attemptId : AttemptId} {attempt : Attempt} :
    Vacant domain attemptId attempt ↔ ¬ itemFinalized domain attempt.workItemId = true ∧
      ¬ anyValue domain.agentRuns (fun run => run.attemptId = attemptId) = true := by
  rw [anyValue_eq_true]
  constructor
  · intro vacant
    refine ⟨fun final => ?_, fun ⟨id, run, here, same⟩ => vacant.only id run here (of_decide_eq_true same)⟩
    unfold itemFinalized at final
    split at final
    next item here => exact vacant.unfinished item here (of_decide_eq_true final)
    next => cases final
  · rintro ⟨unfinished, free⟩
    refine ⟨fun item here final => unfinished ?_, fun other run here same =>
      free ⟨other, run, here, decide_eq_true same⟩⟩
    simp [itemFinalized, here, final]

theorem createAgentRunWithLineage_spec (attemptId : AttemptId) (lineage : Option AgentRunLineage) :
    wp (createAgentRunWithLineage attemptId lineage)
      (fun id after => ∃ attempt, before.domain.attempts.lookup attemptId = some attempt ∧
        Vacant before.domain attemptId attempt ∧ id = before.nextId ∧
        after = before.minted.withRun before.nextId (createdRun attemptId attempt.workItemId lineage))
      (fun _ after => after = before ∧ ∀ attempt, before.domain.attempts.lookup attemptId = some attempt →
        ¬ Vacant before.domain attemptId attempt) before := by
  unfold createAgentRunWithLineage
  simp only [wp_bind, wp_findAttempt, wp_read, wp_refuseIf, true_and]
  refine ⟨fun attempt found => ⟨fun final => ?_, fun unfinished => ⟨fun taken => ?_, fun free => ?_⟩⟩,
    fun absent attempt found => ?_⟩
  · intro other there vacant
    cases there.symm.trans found
    exact (vacant_iff.mp vacant).1 final
  · exact fun other there vacant => (vacant_iff.mp vacant).2 taken
  · exact ⟨attempt, found, vacant_iff.mpr ⟨unfinished, free⟩, rfl, rfl⟩
  · cases found.symm.trans absent

theorem createAgentRun_settles (attemptId : AttemptId)
    (shut : ∀ attempt, before.domain.attempts.lookup attemptId = some attempt → attempt.lifecycle = .closed →
      Vacant before.domain attemptId attempt → guard.reopens) : Settles guard True before (createAgentRun attemptId) := by
  refine wp_mono (createAgentRunWithLineage_spec attemptId none) ?_ ?_
  · rintro _ after ⟨attempt, found, vacant, _, rfl⟩
    exact .single (.newRun _ found rfl vacant.unfinished vacant.only
      (fun closed => shut attempt found closed vacant) rfl)
  · rintro _ after ⟨rfl, _⟩
    exact .same

/-- Once the attempt can be made, so can its run: no run names an identifier that was not issued. -/
theorem createCandidate_spec (guard : Guard) (issued : before.Issued) (workItemId : WorkItemId) (origin : AttemptOrigin)
    (lineage : Option AgentRunLineage) :
    wp (createCandidate workItemId origin lineage)
      (fun ids after => Edits guard before after ∧
        ∃ run, after.domain.agentRuns.lookup ids.agentRunId = some run)
      (fun _ after => after = before ∧ ¬ Admits before.domain workItemId origin) before := by
  unfold createCandidate
  rw [wp_bind]
  refine wp_mono (createAttemptWithOrigin_spec workItemId origin) ?_ (fun _ _ => id)
  rintro attemptId between ⟨⟨⟨item, found, unfinished⟩, parent⟩, rfl, rfl⟩
  have first : Edit guard before _ := .newAttempt (createdAttempt workItemId origin) rfl found unfinished
  rw [wp_bind]
  refine wp_mono (createAgentRunWithLineage_spec before.nextId lineage) ?_ ?_
  · rintro agentRunId after ⟨attempt, there, vacant, rfl, rfl⟩
    have made := (AList.lookup_insert _).symm.trans there
    cases made
    refine ⟨.tail (.single first) (.newRun _ there rfl vacant.unfinished vacant.only ?_ rfl), _, AList.lookup_insert _⟩
    intro closed
    cases closed
  · rintro _ after ⟨_, full⟩
    refine absurd ⟨fun other here final => ?_, fun other run here same => ?_⟩ (full _ (AList.lookup_insert _))
    · cases found.symm.trans here
      exact unfinished final
    · have below := (issued.runs other run here).2
      exact absurd same (Nat.ne_of_lt below)

theorem createCandidate_settles (issued : before.Issued) (workItemId : WorkItemId) (origin : AttemptOrigin)
    (lineage : Option AgentRunLineage) : Settles guard True before (createCandidate workItemId origin lineage) := by
  refine wp_mono (createCandidate_spec guard issued workItemId origin lineage) (fun _ _ made => made.1) ?_
  rintro _ after ⟨rfl, _⟩
  exact .same

theorem advanceBindingGeneration_spec (guard : Guard) (id : AgentRunId) (presented : BindingGeneration) :
    wp (advanceBindingGeneration id presented)
      (fun _ after => Edit guard before after ∧ ∃ run, after.domain.agentRuns.lookup id = some run)
      (fun _ after => after = before) before := by
  unfold advanceBindingGeneration
  simp only [wp_bind, wp_runMut, wp_refuseIf, wp_okOr, wp_putRun, wp_pure, implies_true, true_and, and_true]
  intro run found _ next _
  exact ⟨.change _ found (continues rfl rfl rfl rfl) rfl rfl, _, AList.lookup_insert _⟩

theorem advanceBindingGeneration_settles (id : AgentRunId) (presented : BindingGeneration) :
    Settles guard True before (advanceBindingGeneration id presented) := by
  refine wp_mono (advanceBindingGeneration_spec guard id presented) (fun _ _ made => .single made.1) ?_
  rintro _ after rfl
  exact .same

/-- The control generation advances. -/
def Advances (domain : AgentDomain) (id : AgentRunId) (presented : ControlGeneration) : Prop :=
  (∃ run, domain.agentRuns.lookup id = some run ∧ run.controlGeneration = presented) ∧ nextGeneration presented ≠ none

theorem advanceControlGeneration_spec (guard : Guard) (id : AgentRunId) (presented : ControlGeneration)
    (attached : Advances before.domain id presented → before.domain.HasController id → guard.outpaces) :
    wp (advanceControlGeneration id presented)
      (fun _ after => Edit guard before after ∧ ∃ run next, before.domain.agentRuns.lookup id = some run ∧
        run.controlGeneration < next.controlGeneration ∧ after = before.withRun id next)
      (fun _ after => after = before) before := by
  unfold advanceControlGeneration
  simp only [wp_bind, wp_runMut, wp_refuseIf, wp_okOr, wp_putRun, wp_pure, implies_true, true_and, and_true]
  intro run found current next further
  have greater := nextGeneration_gt further
  have advances : Advances before.domain id presented :=
    ⟨⟨run, found, not_not.mp current⟩, not_not.mp current ▸ further ▸ Option.some_ne_none next⟩
  exact ⟨.advance _ found (continues rfl rfl rfl rfl) greater (attached advances) rfl,
    run, _, found, greater, rfl⟩

theorem advanceControlGeneration_settles (id : AgentRunId) (presented : ControlGeneration)
    (attached : Advances before.domain id presented → before.domain.HasController id → guard.outpaces) :
    Settles guard True before (advanceControlGeneration id presented) := by
  refine wp_mono (advanceControlGeneration_spec guard id presented attached) (fun _ _ made => .single made.1) ?_
  rintro _ after rfl
  exact .same

theorem finalizeWorkItem_settles (id : WorkItemId) (outcome : WorkItemOutcome) (authorized : Bool) :
    Settles guard True before (finalizeWorkItem id outcome authorized) :=
  settles_refuseIf fun _ => settles_findItem fun _ found => settles_refuseIf fun _ =>
    ReflTransGen.single (.editItem _ found fun _ => rfl)

theorem createRelatedWorkItem_settles (prior : WorkItemId) :
    Settles guard True before (createRelatedWorkItem prior) :=
  settles_findItem fun _ _ => settles_refuseIf fun _ => mintWorkItem_settles _

theorem wp_recordRoutingDecision {post : RoutingDecisionRef → Process → Prop} {fails : DomainError → Process → Prop}
    {decision : RoutingDecision} : wp (recordRoutingDecision decision) post fails before =
      post (Terminal.saturatingAdd 64 before.domain.nextRoutingDecision 1) (before.recorded decision) := rfl

/-- A run that is not terminated is made `Prepared`, whatever it was. -/
theorem commitRouting_spec (guard : Guard) (routing : RoutingDecision)
    (found : before.domain.agentRuns.lookup id = some run) (live : run.lifecycle ≠ .terminated) :
    wp (commitRouting id routing)
      (fun _ after => Edits guard before after ∧ after.domain.attempts = before.domain.attempts ∧
        ∃ next, after.domain.agentRuns.lookup id = some next ∧ next.lifecycle = .prepared ∧
          next.attemptId = run.attemptId)
      (fun _ _ => False) before := by
  unfold commitRouting
  rw [wp_bind, wp_recordRoutingDecision, wp_bind, wp_runMut]
  refine ⟨fun other there => ?_, fun absent => by cases found.symm.trans absent⟩
  cases there.symm.trans found
  rw [wp_putRun]
  have noted : Edit guard before (before.recorded routing) := .aside (Nat.le_refl _) rfl rfl rfl rfl fun _ gone => gone
  exact ⟨.tail (.single noted) (.change _ there (continues_live live rfl rfl) rfl rfl),
    rfl, _, AList.lookup_insert _, rfl, rfl⟩

theorem prepareAgentRun_settles (id : AgentRunId) (routing : RoutingDecision) :
    Settles guard True before (prepareAgentRun id routing) := by
  refine settles_runMut fun run found => settles_requireLifecycle fun created => ?_
  exact wp_mono (commitRouting_spec guard routing found (by simp [created])) (fun _ _ made => made.1)
    (fun _ _ => False.elim)

/-- A run that can be dispatched from its lifecycle has its attempt. -/
def HasAttempt (domain : AgentDomain) (lifecycle : AgentRunLifecycle) (id : AgentRunId) : Prop :=
  ∀ run, domain.agentRuns.lookup id = some run → run.lifecycle = lifecycle →
    ∃ attempt, domain.attempts.lookup run.attemptId = some attempt

theorem activateAttemptOnFirstDispatch_spec (guard : Guard) (id : AttemptId) :
    wp (activateAttemptOnFirstDispatch id) (fun _ after => Edits guard before after)
      (fun _ after => after = before ∧ before.domain.attempts.lookup id = none) before := by
  unfold activateAttemptOnFirstDispatch
  simp only [wp_bind, wp_findAttempt, wp_ite, wp_pure, true_and, imp_self, and_true]
  intro attempt found
  split
  next created =>
      refine ReflTransGen.single (.editAttempt _ found rfl ?_ ?_)
      · intro closed
        cases created.symm.trans closed
      · intro _ closed
        cases closed
  next => exact ReflTransGen.refl

/-- The run is changed in front of its attempt: only the attempt's presence makes the change atomic. -/
theorem dispatchAgentRun_spec (guard : Guard) (id : AgentRunId) :
    wp (dispatchAgentRun id) (fun _ after => Edits guard before after)
      (fun _ after => Edits guard before after ∧ (HasAttempt before.domain .prepared id → after = before ∧
        ∀ run, before.domain.agentRuns.lookup id = some run → run.lifecycle ≠ .prepared)) before := by
  unfold dispatchAgentRun
  simp only [wp_bind, wp_runMut, wp_requireLifecycle, wp_putRun, true_and]
  refine ⟨fun run found => ⟨fun prepared => ?_, fun other => ⟨.refl, fun _ => ?_⟩⟩,
    fun absent => ⟨.refl, fun _ run found => by cases found.symm.trans absent⟩⟩
  · have first : Edit guard before _ := .change { run with lifecycle := .dispatching }.bumpRevision found
      (continues_live (by simp [prepared]) rfl rfl) rfl rfl
    refine wp_mono (activateAttemptOnFirstDispatch_spec guard run.attemptId) ?_ ?_
    · exact fun _ after rest => .trans (.single first) rest
    · rintro _ after ⟨rfl, missing⟩
      refine ⟨.single first, fun known => ?_⟩
      obtain ⟨attempt, there⟩ := known run found prepared
      cases there.symm.trans missing
  · intro same there prepared
    cases there.symm.trans found
    exact other prepared

theorem dispatchAgentRun_settles (id : AgentRunId) :
    Settles guard (HasAttempt before.domain .prepared id) before (dispatchAgentRun id) :=
  wp_mono (dispatchAgentRun_spec guard id) (fun _ _ edits => edits)
    fun _ _ refused => ⟨refused.1, fun known _ => congrArg Process.domain (refused.2 known).1⟩

theorem startPrepareAndDispatch_settles (id : AgentRunId) (routing : RoutingDecision) :
    Settles guard (HasAttempt before.domain .created id) before (startPrepareAndDispatch id routing) := by
  unfold Settles startPrepareAndDispatch prepareAgentRun
  simp only [wp_bind, wp_runMut, wp_requireLifecycle]
  refine ⟨fun run found => ⟨fun created => ?_, fun _ => .same⟩, fun _ => .same⟩
  refine wp_mono (commitRouting_spec guard routing found (by simp [created])) ?_ (fun _ _ => False.elim)
  rintro _ between ⟨edits, attempts, next, there, prepared, same⟩
  refine wp_mono (dispatchAgentRun_spec guard id) (fun _ _ rest => edits.trans rest) ?_
  rintro error after ⟨rest, nothing⟩
  refine ⟨edits.trans rest, fun known => ?_⟩
  refine absurd prepared ((nothing ?_).2 next there)
  intro run_ here _
  cases here.symm.trans there
  rw [attempts, same]
  exact known run found created

theorem activateAgentRun_settles (id : AgentRunId) : Settles guard True before (activateAgentRun id) := by
  refine settles_runMut fun run found => settles_requireLifecycle fun dispatching => ?_
  exact settles_putRun found (continues_live (by simp [dispatching]) rfl rfl) rfl rfl

theorem requireRevision_reads (expected : Option Nat) (run : AgentRun) :
    ReadOnly before (requireRevision expected run) fun _ => True := by
  cases expected with
  | none => exact ⟨rfl, trivial⟩
  | some expected =>
      unfold ReadOnly requireRevision
      rw [wp_refuseIf]
      exact ⟨fun _ => rfl, fun _ => ⟨rfl, trivial⟩⟩

theorem validateControlGeneration_reads (id : AgentRunId) (presented : ControlGeneration) :
    ReadOnly before (validateControlGeneration id presented) fun _ => True := by
  unfold ReadOnly validateControlGeneration
  simp only [wp_bind, wp_runMut, wp_refuseIf, implies_true, and_self]

/-- What asks for reconciliation may have marked the run. -/
theorem settles_reconcileIf {unclear : Bool} (found : before.domain.agentRuns.lookup id = some run)
    (rest : Settles guard atomic before (next ())) :
    Settles guard atomic before (reconcileIf unclear id run >>= next) := by
  unfold Settles reconcileIf
  rw [wp_bind, wp_ite]
  split
  next =>
      rw [wp_bind, wp_putRun, wp_throw]
      exact .unclear (.single (.change _ found (continues rfl rfl rfl rfl) rfl rfl))
  next => exact rest

theorem cancelAgentRun_settles (id : AgentRunId) (control : ControlGeneration) (expected : Option Nat)
    (ambiguous : Bool) : Settles guard True before (cancelAgentRun id control expected ambiguous) := by
  refine settles_check (validateControlGeneration_reads id control) fun _ _ => ?_
  refine settles_runMut fun run found => settles_check (requireRevision_reads expected run) fun _ _ => ?_
  refine settles_refuseIf fun live => settles_reconcileIf found ?_
  cases run.lifecycle with
  | created | prepared | dispatching | active =>
      exact settles_putRun found (continues_live live rfl rfl) rfl rfl
  | terminating | terminated => exact settles_throw

theorem confirmCancelTermination_settles (id : AgentRunId) :
    Settles guard True before (confirmCancelTermination id) := by
  refine settles_runMut fun run found => settles_requireLifecycle fun terminating => ?_
  exact settles_putRun found (continues_live (by simp [terminating]) rfl rfl) rfl rfl

theorem terminateAs_settles (kind : TerminationKind) (id : AgentRunId) (source : TerminationSource) :
    Settles guard True before (terminateAs kind id source) :=
  settles_runMut fun _ found => settles_refuseIf fun live =>
    settles_putRun found (continues_live live rfl rfl) rfl rfl

theorem closeAttempt_spec (guard : Guard) (id : AttemptId) (disposition : AttemptDisposition) :
    wp (closeAttempt id disposition)
      (fun _ after => ∃ attempt, before.domain.attempts.lookup id = some attempt ∧
        after = before.withAttempt id { attempt with lifecycle := .closed, disposition := some disposition } ∧
        Edit guard before after ∧ ∀ other run, before.domain.agentRuns.lookup other = some run →
          run.attemptId = id → run.lifecycle = .terminated)
      (fun _ after => after = before) before := by
  unfold closeAttempt
  simp only [wp_bind, wp_read, wp_refuseIf, wp_findAttempt, wp_putAttempt, implies_true, true_and, and_true]
  intro free attempt found opened
  have done_ : ∀ other run, before.domain.agentRuns.lookup other = some run → run.attemptId = id →
      run.lifecycle = .terminated := by
    intro other run there same
    by_contra live
    exact free (anyValue_eq_true.mpr ⟨other, run, there, decide_eq_true ⟨same, live⟩⟩)
  exact ⟨attempt, found, rfl, .editAttempt _ found rfl (fun closed => absurd closed opened) fun _ _ => done_, done_⟩

theorem closeAttempt_settles (id : AttemptId) (disposition : AttemptDisposition) :
    Settles guard True before (closeAttempt id disposition) := by
  refine wp_mono (closeAttempt_spec guard id disposition) ?_ ?_
  · rintro _ after ⟨attempt, found, rfl, edit, _⟩
    exact .single edit
  · rintro _ after rfl
    exact .same

/-- A retry closes an open attempt first; under a finalized work item it then fails. -/
def RetryAtomic (domain : AgentDomain) (id : AttemptId) : Prop :=
  ∀ prior item, domain.attempts.lookup id = some prior → prior.lifecycle ≠ .closed →
    domain.workItems.lookup prior.workItemId = some item → item.lifecycle = .finalized →
    ∃ other run, domain.agentRuns.lookup other = some run ∧ run.attemptId = id ∧ run.lifecycle ≠ .terminated

theorem freshRetry_settles (issued : before.Issued) (id : AttemptId) (disposition : AttemptDisposition) :
    Settles guard (RetryAtomic before.domain id) before (freshRetry id disposition) := by
  refine settles_findAttempt fun prior found => ?_
  unfold Settles settlePrior
  rw [wp_bind, wp_ite]
  split
  next opened =>
      refine wp_mono (closeAttempt_spec guard id disposition) ?_ ?_
      · rintro _ between ⟨same, there, rfl, edit, ended⟩
        cases there.symm.trans found
        refine wp_mono (createCandidate_spec guard (edit.issued issued) prior.workItemId (.retryOf id) none)
          (fun _ _ made => .trans (.single edit) made.1) ?_
        rintro _ after ⟨rfl, unfit⟩
        refine ⟨.single edit, fun atomic => absurd ⟨?_, ?_⟩ unfit⟩
        · obtain ⟨_, item, here⟩ := issued.attempts id prior found
          refine ⟨item, here, fun final => ?_⟩
          obtain ⟨other, run, live, at_, still⟩ := atomic prior item found opened here final
          exact still (ended other run live at_)
        · rintro parent ⟨⟩
          exact ⟨_, AList.lookup_insert _, rfl⟩
      · rintro _ after rfl
        exact .same
  next =>
      rw [wp_refuseIf]
      exact ⟨fun _ => .same, fun _ => (createCandidate_settles issued _ _ _).mono fun _ => trivial⟩

theorem forkRun_settles (issued : before.Issued) (id : AgentRunId) : Settles guard True before (forkRun id) :=
  settles_runMut fun _ _ => createCandidate_settles issued _ _ _

theorem parallelCandidate_settles (issued : before.Issued) (id : AttemptId) :
    Settles guard True before (parallelCandidate id) :=
  settles_findAttempt fun _ _ => createCandidate_settles issued _ _ _

theorem strategyChangeCandidate_settles (issued : before.Issued) (id : AttemptId) :
    Settles guard True before (strategyChangeCandidate id) :=
  settles_findAttempt fun _ _ => createCandidate_settles issued _ _ _

theorem resumeAgentRun_settles (id : AgentRunId) : Settles guard True before (resumeAgentRun id) :=
  settles_runMut fun _ found => settles_refuseIf fun live => settles_refuseIf fun _ => settles_refuseIf fun _ =>
    settles_putRun found (continues_live live rfl rfl) rfl rfl

theorem rebindAgentRun_settles (id : AgentRunId) (presented : BindingGeneration) :
    Settles guard True before (rebindAgentRun id presented) := by
  unfold Settles rebindAgentRun
  rw [wp_tryCatch, wp_bind]
  refine wp_mono (advanceBindingGeneration_spec guard id presented) ?_ ?_
  · rintro next between ⟨edit, run, there⟩
    simp only [wp_bind, wp_runMut, wp_putRun, wp_pure]
    refine ⟨fun other found => ?_, fun absent => by cases there.symm.trans absent⟩
    exact .tail (.single edit) (.change _ found (continues rfl rfl rfl rfl) rfl rfl)
  · rintro error after rfl
    rw [wp_ite]
    split
    next =>
        simp only [wp_bind, wp_runMut, wp_putRun, wp_throw]
        exact ⟨fun run found => .unclear (.single (.change _ found (continues rfl rfl rfl rfl) rfl rfl)),
          fun _ => .same⟩
    next => exact .same

theorem preStartFallback_settles (id : AgentRunId) (routing : RoutingDecision) (proof : Bool) :
    Settles guard True before (preStartFallback id routing proof) := by
  refine settles_runMut fun run found => settles_requireLifecycle fun dispatching => ?_
  refine settles_refuseIf fun _ => settles_reconcileIf found ?_
  exact wp_mono (commitRouting_spec guard routing found (by simp [dispatching])) (fun _ _ made => made.1)
    (fun _ _ => False.elim)

/-- The clients of the run are dropped before its control generation advances. -/
theorem fenceRun_settles (found : before.domain.agentRuns.lookup id = some run) :
    Settles guard True before (fenceRun id run) := by
  unfold Settles fenceRun
  cases nextGeneration run.bindingGeneration with
  | none =>
      simp only [wp_bind, wp_putRun, wp_throw]
      exact .unclear (.single (.change _ found (continues rfl rfl rfl rfl) rfl rfl))
  | some nextBinding =>
      simp only [wp_bind, wp_okOr, wp_modify, wp_putRun, wp_pure]
      refine ⟨fun nextControl further => ?_, fun _ => .same⟩
      have dropped : Edit guard before (before.withAttachments
          (retainValues before.domain.attachments fun attachment => attachment.agentRunId ≠ id)) :=
        .detach _ fun session attachment kept => (lookup_retainValues.mp kept).1
      refine .tail (.single dropped)
        (.advance _ found (continues rfl rfl rfl rfl) (nextGeneration_gt further) ?_ rfl)
      rintro ⟨session, attachment, kept, same, _⟩
      exact absurd same (of_decide_eq_true (lookup_retainValues.mp kept).2)

theorem backendRestartRecovery_settles (id : AgentRunId) : Settles guard True before (backendRestartRecovery id) := by
  refine settles_runMut fun run found => ?_
  split
  next => exact settles_pure
  next => exact fenceRun_settles found

/-- An execution is retired before the run is looked at. -/
def ReplaceAtomic (domain : AgentDomain) (id : AgentRunId) (newExecution oldExecution : ExecutionRef) : Prop :=
  newExecution ≠ oldExecution → oldExecution ∉ domain.retiredExecutions →
    ∃ run, domain.agentRuns.lookup id = some run ∧ run.lifecycle ≠ .terminated

theorem replaceExecution_settles (id : AgentRunId) (newExecution oldExecution : ExecutionRef)
    (binds : newExecution ≠ oldExecution → oldExecution ∉ before.domain.retiredExecutions →
      ∀ run, before.domain.agentRuns.lookup id = some run → run.lifecycle ≠ .terminated → guard.binds newExecution) :
    Settles guard (ReplaceAtomic before.domain id newExecution oldExecution) before
      (replaceExecution id newExecution oldExecution) := by
  refine settles_refuseIf fun different => settles_read (settles_refuseIf fun live => ?_)
  unfold Settles
  rw [wp_bind, wp_write, wp_bind, wp_runMut]
  have retired : Edit guard before { before with domain := { before.domain with
      retiredExecutions := oldExecution :: before.domain.retiredExecutions } } :=
    .aside (Nat.le_refl _) rfl rfl rfl rfl fun _ => List.mem_cons_of_mem _
  refine ⟨fun run found => ?_, fun absent => ⟨.single retired, fun atomic => ?_⟩⟩
  · rw [wp_bind, wp_refuseIf]
    refine ⟨fun ended => ⟨.single retired, fun atomic => ?_⟩, fun going => ?_⟩
    · obtain ⟨other, there, still⟩ := atomic different live
      cases there.symm.trans found
      exact absurd ended still
    · refine .tail (.single retired) (.editRun _ found (continues_live going rfl rfl) rfl ?_)
      rintro execution ⟨⟩
      exact .inr (binds different live run found going)
  · obtain ⟨other, there, _⟩ := atomic different live
    cases there.symm.trans absent

theorem detectAndBind_settles (issued : before.Issued) (scope : WorkScopeId) (key : ExternalIdentityKey)
    (binds : before.domain.detectionBindings.lookup key = none → before.domain.workScopes.lookup scope ≠ none →
      guard.binds key.executionRef) :
    Settles guard True before (detectAndBind scope key) := by
  refine settles_read ?_
  cases known : before.domain.detectionBindings.lookup key with
  | some existing => exact settles_runMut fun _ _ => settles_pure
  | none =>
      refine settles_check (requireScope_reads scope) fun _ there => ?_
      unfold Settles mintWorkItem
      simp only [wp_bind, wp_uniqueId, wp_putItem, wp_pure]
      have opened : Edit guard before (before.minted.withItem before.nextId
          { workScopeId := scope, lifecycle := .open, outcome := none, acceptanceMode := .humanFinal,
            relatedTo := none }) := .newItem _
      refine wp_mono (createCandidate_spec guard (opened.issued issued) before.nextId .initial none) ?_ ?_
      · rintro ids between ⟨edits, run, made⟩
        simp only [wp_runMut, wp_putRun, wp_write]
        refine ⟨fun other found => ?_, fun absent => by cases made.symm.trans absent⟩
        have bound : Edit guard between (between.withRun ids.agentRunId
            { other with currentExecution := some key.executionRef }) := by
          refine .editRun _ found (continues rfl rfl rfl rfl) rfl ?_
          rintro execution ⟨⟩
          exact .inr (binds known there)
        exact .tail (.tail (.trans (.single opened) edits) bound)
          (.aside (Nat.le_refl _) rfl rfl rfl rfl fun _ gone => gone)
      · rintro _ after ⟨rfl, unfit⟩
        refine absurd ⟨⟨_, AList.lookup_insert _, fun final => by cases final⟩, fun id impossible => ?_⟩ unfit
        cases impossible

theorem attachClient_settles (id : AgentRunId) (session : ClientSessionId) (access : AttachmentAccess) :
    Settles guard True before (attachClient id session access) :=
  settles_runMut fun _ found => ReflTransGen.single (.attach session _ found rfl)

theorem detachClient_settles (session : ClientSessionId) : Settles guard True before (detachClient session) := by
  refine settles_read (settles_refuseIf fun _ => ReflTransGen.single (.detach _ fun other attachment kept => ?_))
  by_cases same : other = session
  · subst same
    rw [AList.lookup_erase] at kept
    cases kept
  · rwa [AList.lookup_erase_ne same] at kept

theorem clientControl_reads (session : ClientSessionId) (id : AgentRunId) (epoch : ControlGeneration) (revision : Nat) :
    ReadOnly before (clientControl session id epoch revision) fun _ =>
      ∃ attachment run, before.domain.attachments.lookup session = some attachment ∧
        before.domain.agentRuns.lookup id = some run ∧ attachment.agentRunId = id ∧ attachment.access = .control ∧
        attachment.controlEpoch = epoch ∧ run.runRevision = revision := by
  unfold ReadOnly clientControl
  simp only [wp_bind, wp_read, wp_okOr, wp_refuseIf, wp_runMut, implies_true, true_and, and_true, not_not]
  intro attachment held same _ current run found revised control
  exact ⟨attachment, run, held, found, same, control, current, revised⟩

theorem clientControl_stale {session : ClientSessionId} {attachment : Attachment}
    (held : before.domain.attachments.lookup session = some attachment) (control : attachment.access = .control)
    (found : before.domain.agentRuns.lookup attachment.agentRunId = some run) :
    clientControl session attachment.agentRunId attachment.controlEpoch run.runRevision before =
      some (.ok (), before) := by
  apply Run.eq_ok_of_wp
  unfold clientControl
  simp [held, control, found]

theorem clientControl_settles (session : ClientSessionId) (id : AgentRunId) (epoch : ControlGeneration)
    (revision : Nat) : Settles guard True before (clientControl session id epoch revision) := by
  refine wp_mono (clientControl_reads session id epoch revision) ?_ ?_
  · rintro _ after ⟨rfl, _⟩
    exact .refl
  · rintro _ after rfl
    exact .same

theorem observe_spec (guard : Guard) (kind : ObservationKind) (found : before.domain.agentRuns.lookup id = some run) :
    wp (observe id run kind) (fun _ after => Edits guard before after) (fun _ _ => False) before := by
  cases kind with
  | harnessExited =>
      unfold observe
      rw [wp_ite]
      split
      next => exact .single (.change _ found (continues rfl rfl rfl rfl) rfl rfl)
      next => exact ReflTransGen.refl
  | harnessStarted =>
      unfold observe activateAgentRun
      simp only [wp_ite, wp_bind, wp_runMut, wp_requireLifecycle, wp_putRun, wp_pure]
      split
      next dispatching =>
          refine ⟨fun other there => ?_, fun absent => by cases found.symm.trans absent⟩
          cases there.symm.trans found
          exact ⟨fun _ => .single (.change _ found (continues_live (by simp [dispatching]) rfl rfl) rfl rfl),
            fun other => absurd dispatching other⟩
      next => exact ReflTransGen.refl
  | output | progress | usage | warning | controlBearing => exact ReflTransGen.refl

theorem recordNew_spec (guard : Guard) (kind : ObservationKind) (stale late : Bool)
    (found : before.domain.agentRuns.lookup id = some run) :
    wp (recordNew id run kind stale late) (fun _ after => Edits guard before after) (fun _ _ => False) before := by
  unfold recordNew observeCurrent
  simp only [wp_bind, wp_ite, wp_write, wp_pure]
  split
  next =>
      exact wp_mono (observe_spec guard kind found)
        (fun _ _ edits => edits.tail (.aside (Nat.le_refl _) rfl rfl rfl rfl fun _ gone => gone)) fun _ _ => False.elim
  next => exact .single (.aside (Nat.le_refl _) rfl rfl rfl rfl fun _ gone => gone)

theorem recordObservation_settles (id : AgentRunId) (producer : Nat) (binding : BindingGeneration)
    (event : Option Nat) (kind : ObservationKind) (closed : Bool) :
    Settles guard True before (recordObservation id producer binding event kind closed) := by
  refine settles_runMut fun run found => settles_refuseIf fun _ => ?_
  cases event with
  | none => exact wp_mono (recordNew_spec guard kind _ closed found) (fun _ _ edits => edits) fun _ _ => False.elim
  | some event =>
      refine settles_read ?_
      split
      next => exact settles_pure
      next =>
          unfold Settles
          rw [wp_bind, wp_write]
          have noted : Edit guard before { before with domain := { before.domain with
              observationKeys := (producer, binding, event) :: before.domain.observationKeys } } :=
            .aside (Nat.le_refl _) rfl rfl rfl rfl fun _ gone => gone
          exact wp_mono (recordNew_spec guard kind _ closed found)
            (fun _ _ edits => .trans (.single noted) edits) fun _ _ => False.elim

theorem setResumability_settles (id : AgentRunId) (fact : ResumabilityFact) :
    Settles guard True before (setResumability id fact) :=
  settles_runMut fun _ found => settles_putRun found (continues rfl rfl rfl rfl) rfl rfl

theorem setObservationFact_settles (id : AgentRunId) (fact : ObservationFact) :
    Settles guard True before (setObservationFact id fact) :=
  settles_runMut fun _ found => settles_putRun found (continues rfl rfl rfl rfl) rfl rfl

theorem setAttemptUsage_settles (id : AttemptId) (usage cost : AccountingValue) :
    Settles guard True before (setAttemptUsage id usage cost) := by
  refine settles_findAttempt fun attempt found => ReflTransGen.single (.editAttempt _ found rfl (fun same => same) ?_)
  intro opened closed
  exact absurd closed opened

theorem restoreWorkScope_settles (id : WorkScopeId) (kind : WorkScopeKind) :
    Settles guard True before (restoreWorkScope id kind) := by
  refine settles_read ?_
  cases before.domain.workScopes.lookup id with
  | some existing => exact settles_last_refuseIf
  | none => exact ReflTransGen.single (.aside (Nat.le_refl _) rfl rfl rfl rfl fun _ gone => gone)

theorem restoreWorkItemState_settles (recovers : guard.recovers) {id : WorkItemId} (issued : id < before.nextId)
    (item : WorkItem) : Settles guard True before (restoreWorkItemState id item) := by
  refine settles_check (requireScope_reads item.workScopeId) fun _ _ => settles_read ?_
  cases absent : before.domain.workItems.lookup id with
  | some existing => exact settles_last_refuseIf
  | none => exact ReflTransGen.single (.restoreItem item recovers issued absent)

theorem restoreAttemptState_settles (recovers : guard.recovers) {id : AttemptId} (issued : id < before.nextId)
    (attempt : Attempt) : Settles guard True before (restoreAttemptState id attempt) := by
  refine settles_read (settles_refuseIf fun known => ?_)
  obtain ⟨item, found⟩ := Option.ne_none_iff_exists'.mp known
  cases absent : before.domain.attempts.lookup id with
  | some existing => exact settles_last_refuseIf
  | none => exact ReflTransGen.single (.restoreAttempt attempt recovers issued absent found)

theorem insertRestoredAgentRun_settles (recovers : guard.recovers) {row : AgentRun} (issued : id < before.nextId)
    (attempt : row.attemptId < before.nextId) :
    Settles guard True before (insertRestoredAgentRun id row) := by
  have drawn : Edit guard before before.minted := .aside (Nat.le_succ _) rfl rfl rfl rfl fun _ gone => gone
  unfold Settles insertRestoredAgentRun restoredItem
  simp only [wp_bind, wp_read]
  cases before.domain.attempts.lookup row.attemptId with
  | some found =>
      simp only [wp_pure]
      cases absent : before.domain.agentRuns.lookup id with
      | some existing => exact settles_last_refuseIf
      | none => exact ReflTransGen.single (.restoreRun _ recovers issued attempt absent rfl)
  | none =>
      simp only [wp_uniqueId]
      cases absent : before.minted.domain.agentRuns.lookup id with
      | some existing =>
          simp only [wp_refuseIf]
          exact ⟨fun _ => ⟨.single drawn, fun _ _ => rfl⟩, fun _ => .single drawn⟩
      | none =>
          exact .tail (.single drawn)
            (.restoreRun _ recovers (Nat.lt_succ_of_lt issued) (Nat.lt_succ_of_lt attempt) absent rfl)

theorem restoreAgentRunState_settles (recovers : guard.recovers) {row : AgentRun} (issued : id < before.nextId)
    (attempt : row.attemptId < before.nextId) :
    Settles guard True before (restoreAgentRunState id row) :=
  settles_findAttempt fun _ _ => insertRestoredAgentRun_settles recovers issued attempt

theorem restoreOrphanedAgentRun_settles (recovers : guard.recovers) {attemptId : AttemptId}
    (binding : BindingGeneration) (control : ControlGeneration)
    (issued : id < before.nextId) (attempt : attemptId < before.nextId) :
    Settles guard True before (restoreOrphanedAgentRun id attemptId binding control) := by
  refine settles_read ?_
  split
  next => exact restoreAgentRunState_settles recovers issued attempt
  next => exact insertRestoredAgentRun_settles recovers issued attempt

end Transition

end Seyal.Agent.Domain
