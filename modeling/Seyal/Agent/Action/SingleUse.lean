import Seyal.Agent.Action.Run

namespace Seyal.Agent.Action

open Program Run

/-! An approval is used by one dispatch, of exactly what was approved, in the same
transaction, and by nothing that fails. -/

section Failures

variable {α β : Type}

/-- Whatever the operation ends with, none of its sections touches the decisions. -/
def Op.Spares (op : Op α) : Prop :=
  ∀ sections result, Job.Ran op sections result →
    ∀ step ∈ sections, step.2.database.decisions = step.1.database.decisions

open Op

/-- If the operation ends with an error, none of its sections touched the decisions. -/
def Op.FailsSafely (op : Op α) : Prop :=
  ∀ sections error, Job.Ran op sections (.error error) →
    ∀ step ∈ sections, step.2.database.decisions = step.1.database.decisions

namespace Op

theorem Spares.failsSafely {op : Op α} (spares : op.Spares) : op.FailsSafely :=
  fun sections error ran => spares sections (.error error) ran

theorem spares_done (result : Except ActionError α) : Spares (Job.done result : Op α) := by
  intro sections value ran
  cases ran
  exact fun step member => absurd member List.not_mem_nil

theorem spares_locked {body : AgentStore → Except ActionError α × AgentStore}
    (same : ∀ store, (body store).2.database.decisions = store.database.decisions) :
    Spares (Job.locked body : Op α) := by
  intro sections value ran
  cases ran with
  | lock rest =>
      cases rest
      intro step member
      rw [List.mem_singleton.mp member]
      exact same _

theorem spares_bind {op : Op α} {next : α → Op β} (first : op.Spares) (goesOn : ∀ value, (next value).Spares) :
    (op >>= next).Spares := by
  intro sections value ran
  obtain ⟨front, back, result, rfl, ranFirst, ranNext⟩ := Job.Ran.of_bind ran
  intro step member
  rcases List.mem_append.mp member with early | late
  · exact first front result ranFirst step early
  · cases result with
    | error error => exact spares_done _ back value ranNext step late
    | ok found => exact goesOn found back value ranNext step late

theorem failsSafely_bind {op : Op α} {next : α → Op β} (first : op.Spares)
    (goesOn : ∀ value, (next value).FailsSafely) : (op >>= next).FailsSafely := by
  intro sections error ran
  obtain ⟨front, back, result, rfl, ranFirst, ranNext⟩ := Job.Ran.of_bind ran
  intro step member
  rcases List.mem_append.mp member with early | late
  · exact first front result ranFirst step early
  · cases result with
    | error error => exact spares_done _ back _ ranNext step late
    | ok found => exact goesOn found back error ranNext step late

theorem spares_query (read : Database → Except ActionError α) : (query read).Spares :=
  spares_locked fun store => by split <;> rfl

theorem spares_health : health.Spares := spares_locked fun _ => rfl

theorem spares_beginActionWrite : beginActionWrite.Spares := spares_locked fun _ => rfl

theorem transact_spares {body : Tx (Except ActionError α)} {database : Database} {error : ActionError}
    (safe : wp body (fun result after => (∃ value, result = .ok value) ∨ after.decisions = database.decisions)
      (fun _ _ => True) database)
    (fails : (transact body database).1 = .error error) :
    (transact body database).2.decisions = database.decisions := by
  unfold wp at safe
  unfold transact at fails ⊢
  split
  next result after ran =>
      rw [ran] at safe fails
      rcases safe with ⟨value, rfl⟩ | same
      · cases fails
      · exact same
  next => rfl
  next => rfl

theorem failsSafely_transaction {body : AgentStore → Tx (Except ActionError α)}
    (safe : ∀ store, wp (body store)
      (fun result after => (∃ value, result = .ok value) ∨ after.decisions = store.database.decisions)
      (fun _ _ => True) store.database) : (transaction body).FailsSafely := by
  intro sections error ran step member
  generalize ended : Except.error error = result at ran
  cases ran with
  | @lock _ _ store _ _ rest =>
      cases rest
      rw [List.mem_singleton.mp member]
      dsimp only at ended ⊢
      split at ended
      next => simp [*]
      next =>
          simp only [*]
          exact transact_spares (safe store) ended.symm

theorem failsSafely_noted {write : Op α} (safe : write.FailsSafely) : (noted write).FailsSafely := by
  intro sections error ran
  obtain ⟨front, back, result, rfl, ranWrite, ranNote⟩ := Job.Ran.of_bind ran
  cases result with
  | ok value =>
      cases ranNote with
      | lock rest => cases rest
  | error refusal =>
      intro step member
      rcases List.mem_append.mp member with early | late
      · exact safe front refusal ranWrite step early
      · have spares : (noteResult (.error refusal : Except ActionError α)).Spares := by
          unfold noteResult
          split
          next wrong => cases wrong
          next => exact spares_bind (spares_locked fun _ => rfl) fun _ => spares_done _
          next => exact spares_done _
        exact spares back (.error error) ranNote step late

theorem failsSafely_written {write : Op α} (safe : write.FailsSafely) : (written write).FailsSafely :=
  failsSafely_bind spares_beginActionWrite fun _ => failsSafely_noted safe

end Op

variable [IntentDigest]

theorem spares_getRecord (actionId : ActionId) : (getRecord actionId).Spares := by
  refine spares_bind (spares_query _) fun found => ?_
  cases found with
  | none => exact spares_done _
  | some intent => exact spares_bind (spares_query _) fun _ => spares_done _

theorem invalidateAuthorized_spares (record : PersistedAction) (database : Database) :
    wp (invalidateAuthorized record) (fun _ after => after.decisions = database.decisions) (fun _ _ => True)
      database := by
  unfold invalidateAuthorized
  rw [wp_ite]
  split
  next =>
      rw [wp_bind]
      exact wp_updateAction fun row _ _ => rfl
  next => rfl

theorem dispatchCommitted_spares (record : PersistedAction) (bindingGeneration : Nat) (health : PersistHealth)
    (input : DispatchInput) (database : Database) :
    wp (dispatchCommitted record bindingGeneration health input)
      (fun result after => (∃ value, result = .ok value) ∨ after.decisions = database.decisions)
      (fun _ _ => True) database := by
  refine wp_dispatchCommitted (fun error => ?_) fun fence eval generation consumed supplied _ _ _ _ => ?_
  · exact wp_mono (invalidateAuthorized_spares record database) (fun _ after same => .inr same) fun _ _ _ => trivial
  · unfold commitDispatching
    rw [wp_bind]
    exact wp_updateAction fun row _ _ => .inl ⟨_, rfl⟩

theorem dispatch_failsSafely (actionId : ActionId) (input : DispatchInput) :
    (dispatch actionId input).FailsSafely := by
  have minting : notMinting.Spares := by
    refine spares_bind spares_health fun health => ?_
    split
    next => exact spares_done _
    next => exact spares_bind spares_health fun _ => spares_done _
  refine failsSafely_bind minting fun degraded => ?_
  split
  next => exact (spares_done _).failsSafely
  next =>
    refine failsSafely_written (failsSafely_bind (spares_getRecord actionId) fun record => ?_)
    refine failsSafely_bind (spares_query _) fun bindingGeneration => ?_
    exact failsSafely_transaction fun store =>
      dispatchCommitted_spares record bindingGeneration store.persist.health input store.database

end Failures

/-! What the steps of a run do to the decisions. -/

theorem Phase.Step.entered {phase last : Phase} {event : Event} (step : Phase.Step phase event last)
    (elsewhere : phase.lifecycle ≠ .dispatching) (entered : last.lifecycle = .dispatching) :
    event.isDispatched = true ∨ phase.lifecycle = .effectUnknown ∧ last.generation = phase.generation ∧
      ∃ cause evidence, evidence.kind = .validatedIdempotencyContract ∧ evidence.executorAuthenticated = true ∧
        event = .decided cause evidence .effectUnknown .dispatching := by
  cases step with
  | dispatched => exact .inl rfl
  | kept _ _ => exact absurd entered elsewhere
  | @resumed lifecycle _ cause evidence pending asked kind authentic =>
      rcases pending with rfl | rfl
      · exact absurd rfl elsewhere
      · exact .inr ⟨rfl, rfl, cause, evidence, kind, authentic, rfl⟩
  | ended ending _ _ _ => rcases ending with rfl | rfl <;> cases entered
  | authorized | invalidated | withdrawn | returned _ _ _ | unknown _ _ | cancelledBefore _ | cancelledAfter _ =>
      cases entered

section Steps

variable [IntentDigest] {initial : AgentStore} {pool after : AgentPool}

/-- The step commits a dispatch of the Action: the approval it needs is there, unused,
of its live intent, the current policy and the current fence, and is used with it. -/
def Database.UsesApproval (before after : Database) (actionId : ActionId) (intent : ActionIntent) : Prop :=
  ∃ generation nowMs policyGeneration approvalId request decision fence,
    before.currentFenceFor intent.revocationFence = .ok fence ∧
    before.requests.lookup approvalId = some request ∧ before.decisions.lookup approvalId = some decision ∧
    Consumable request decision (ConsumptionWitness.fromLiveIntent intent policyGeneration fence) nowMs ∧
    after.decisions = before.decisions.insert approvalId { decision with consumed := true } ∧
    after.log = before.log ++ [(actionId, .dispatched generation nowMs policyGeneration (some approvalId))]

/-- The step resumes a dispatch whose outcome was unknown, and leaves the decisions alone. -/
def Database.Resumes (before after : Database) (actionId : ActionId) (row next : ActionRow) : Prop :=
  row.lifecycle = .effectUnknown ∧ next.dispatchGeneration = row.dispatchGeneration ∧
    after.decisions = before.decisions ∧
    ∃ cause evidence, evidence.kind = .validatedIdempotencyContract ∧ evidence.executorAuthenticated = true ∧
      after.log = before.log ++ [(actionId, .decided cause evidence .effectUnknown .dispatching)]

theorem Database.Commits.entered {before after : Database} {actionId : ActionId} {row next : ActionRow}
    (commits : before.Commits after) (present : before.actions.lookup actionId = some row)
    (later : after.actions.lookup actionId = some next) (required : humanApprovalRequired row.intent = true)
    (elsewhere : row.lifecycle ≠ .dispatching) (entered : next.lifecycle = .dispatching) :
    before.UsesApproval after actionId row.intent ∨ before.Resumes after actionId row next := by
  rcases commits.at_row present with same | ⟨last, event, there, _, step, uses, log⟩
  · rw [later] at same
    cases same
    exact absurd entered elsewhere
  rw [later] at there
  cases there
  generalize decisions : after.decisions = table at uses
  rcases step.entered elsewhere entered with dispatched | ⟨unknown, kept, cause, evidence, kind, authentic, rfl⟩
  · cases uses with
    | nothing unneeded _ =>
        rw [unneeded dispatched] at required
        cases required
    | approval current requested decided consumable =>
        exact .inl ⟨_, _, _, _, _, _, _, current, requested, decided, consumable, decisions, log⟩
  · cases uses with
    | nothing _ _ => exact .inr ⟨unknown, kept, decisions, cause, evidence, kind, authentic, log⟩

theorem Database.Commits.consumed {before after : Database} {approvalId : ApprovalId} {decision : ApprovalDecision}
    (commits : before.Commits after) (here : after.decisions.lookup approvalId = some decision)
    (consumed : decision.consumed = true) :
    before.decisions.lookup approvalId = some decision ∨
      ∃ actionId row next generation nowMs policyGeneration,
        before.actions.lookup actionId = some row ∧ row.lifecycle = .authorized ∧
        after.actions.lookup actionId = some next ∧ next.lifecycle = .dispatching ∧
        after.log = before.log ++ [(actionId, .dispatched generation nowMs policyGeneration (some approvalId))] := by
  cases commits with
  | still _ decisions _ => exact .inl (by rw [← decisions, here])
  | ruled new fresh unused _ decisions _ =>
      rw [decisions] at here
      by_cases same : approvalId = new.approvalId
      · subst same
        rw [AList.lookup_insert] at here
        cases here
        rw [unused] at consumed
        cases consumed
      · exact .inl (by rw [← here, AList.lookup_insert_ne same])
  | prepared _ _ _ decisions _ => exact .inl (by rw [← decisions, here])
  | moved actionId row next event there _ _ step actions uses log =>
      generalize after.decisions = table at uses here
      cases uses with
      | nothing _ _ => exact .inl here
      | @approval _ _ _ used _ _ _ _ _ _ _ =>
          by_cases same : approvalId = used
          · subst same
            generalize first : row.phase = phase at step
            generalize second : next.phase = last at step
            cases step with
            | dispatched =>
                have before := congrArg Phase.lifecycle first
                have entered := congrArg Phase.lifecycle second
                exact .inr ⟨actionId, row, next, _, _, _, there, before, by rw [actions, AList.lookup_insert],
                  entered, log⟩
          · exact .inl (by rw [← here, AList.lookup_insert_ne same])

theorem Database.Commits.stays_consumed {before after : Database} {approvalId : ApprovalId}
    {decision : ApprovalDecision} (commits : before.Commits after)
    (here : before.decisions.lookup approvalId = some decision) (consumed : decision.consumed = true) :
    after.decisions.lookup approvalId = some decision := by
  cases commits with
  | still _ decisions _ => rw [decisions, here]
  | ruled new fresh _ _ decisions _ =>
      have other : approvalId ≠ new.approvalId := by
        rintro rfl
        rw [fresh] at here
        cases here
      rw [decisions, AList.lookup_insert_ne other, here]
  | prepared _ _ _ decisions _ => rw [decisions, here]
  | moved actionId row next event _ _ _ _ _ uses _ =>
      generalize after.decisions = table at uses
      cases uses with
      | nothing _ _ => exact here
      | @approval _ _ _ used _ _ _ _ _ decided consumable =>
          have other : approvalId ≠ used := by
            rintro rfl
            rw [decided] at here
            cases here
            rw [consumable.unused] at consumed
            cases consumed
          rw [AList.lookup_insert_ne other, here]

/-- Approvals are single use. Every step that takes an Action that needs an approval
into Dispatching uses exactly one that is bound to it, unless it resumes the dispatch
that used one; no other step consumes anything, a consumed decision stays so, each
is used by one dispatch, and a dispatch that fails has consumed nothing. -/
theorem AgentPool.Reached.approvals_single_use (fresh : initial.Fresh)
    (reached : AgentPool.Reached initial pool) :
    (∀ after, AgentPool.Step pool after →
      (∀ actionId row next, pool.shared.database.actions.lookup actionId = some row →
        after.shared.database.actions.lookup actionId = some next → humanApprovalRequired row.intent = true →
        row.lifecycle ≠ .dispatching → next.lifecycle = .dispatching →
        pool.shared.database.UsesApproval after.shared.database actionId row.intent ∨
          pool.shared.database.Resumes after.shared.database actionId row next) ∧
      (∀ approvalId decision, after.shared.database.decisions.lookup approvalId = some decision →
        decision.consumed = true →
        pool.shared.database.decisions.lookup approvalId = some decision ∨
          ∃ actionId row next generation nowMs policyGeneration,
            pool.shared.database.actions.lookup actionId = some row ∧ row.lifecycle = .authorized ∧
            after.shared.database.actions.lookup actionId = some next ∧ next.lifecycle = .dispatching ∧
            after.shared.database.log = pool.shared.database.log ++
              [(actionId, .dispatched generation nowMs policyGeneration (some approvalId))]) ∧
      (∀ approvalId decision, pool.shared.database.decisions.lookup approvalId = some decision →
        decision.consumed = true → after.shared.database.decisions.lookup approvalId = some decision)) ∧
    (∀ approvalId, approvalId ∈ pool.shared.database.usedApprovals ↔
      ∃ decision, pool.shared.database.decisions.lookup approvalId = some decision ∧ decision.consumed = true) ∧
    pool.shared.database.usedApprovals.Nodup ∧
    (∀ actionId input sections error, Job.Ran (dispatch actionId input) sections (.error error) →
      ∀ step ∈ sections, step.2.database.decisions = step.1.database.decisions) := by
  have sound := AgentPool.Reached.sound fresh reached
  refine ⟨fun after step => ?_, sound.used, sound.once, fun actionId input => dispatch_failsSafely actionId input⟩
  have follows := AgentPool.Reached.follows fresh reached step
  refine ⟨?_, ?_, ?_⟩
  · intro actionId row next present later required elsewhere entered
    exact follows.entered present later required elsewhere entered
  · intro approvalId decision here consumed
    exact follows.consumed here consumed
  · intro approvalId decision here consumed
    exact follows.stays_consumed here consumed

open AgentPool

end Steps

namespace Sample

def spec : ApprovalRequestSpec where
  approvalId := 3
  actionId := some 7
  actionIntentDigest := some [7]
  agentRunId := some 2
  capability := some [1]
  resource := some ⟨[1], 1, 1, [1]⟩
  argumentFingerprint := some [1]
  effectClass := some .idempotentExternal
  policyGeneration := some 1
  revocationFence := some fence
  expiresAtUnixMs := none
  requestedAtUnixMs := 0
  attentionId := none
  controlMode := .seyalControlled

def approval : DecideInput where
  approvalId := 3
  actionId := 7
  agentRunId := 2
  verdict := .approved
  authority := .user
  decisionPolicyGeneration := 1
  decisionPrincipalId := none
  requireSession := false
  clientSession := none
  sessionValid := false
  hasApprovalDecideScope := false
  nowUnixMs := 0

end Sample

open Sample

theorem AgentPool.Reached.approvals_single_use_sample : ∃ (_ : IntentDigest) (pool : AgentPool),
    Reached store pool ∧ pool.shared.database.usedApprovals = [3] ∧
      ∃ decision, pool.shared.database.decisions.lookup 3 = some decision ∧ decision.consumed = true := by
  let := digest
  have single : ∀ pool : AgentPool, Reached store pool →
      pool.shared.database.usedApprovals = [3] →
      ∃ decision, pool.shared.database.decisions.lookup 3 = some decision ∧ decision.consumed = true :=
    fun pool reached used =>
      ((Reached.approvals_single_use fresh reached).2.1 3).mp (by
        rw [used]
        exact List.mem_singleton_self 3)
  have reached : Reached store ⟨Action.perform
      [.prepare (intent .humanApproval) none, .request spec 4, .decide approval,
        .authorize 7 0, .dispatch 7 input] store, []⟩ :=
    Reached.perform .refl
  have used : (Action.perform
      [.prepare (intent .humanApproval) none, .request spec 4, .decide approval,
        .authorize 7 0, .dispatch 7 input] store).database.usedApprovals = [3] := by
    decide +kernel
  exact ⟨digest, _, reached, used, single _ reached used⟩

/-- Resumed on a contract, an Action that needs an approval is committed to Dispatching
twice, and only the first of the two commits uses one. -/
theorem AgentPool.Reached.approval_not_used : ∃ (_ : IntentDigest) (pool : AgentPool),
    store.Fresh ∧ Reached store pool ∧
      (pool.shared.database.actions.lookup 7).any (fun row => humanApprovalRequired row.intent) = true ∧
      pool.shared.database.eventsOf 7 =
        [.prepared, .authorized, .dispatched 1 5 1 (some 3),
          .decided .reconciled RecoveryEvidence.none .dispatching .effectUnknown,
          .decided .reconciled contract .effectUnknown .dispatching] ∧
      pool.shared.database.decisions.keys = [3] := by
  refine ⟨digest, ⟨@Action.perform digest
    [.prepare (intent .humanApproval) none, .request spec 4, .decide approval,
      .authorize 7 0, .dispatch 7 input, .reconcile 7 RecoveryEvidence.none,
      .reconcile 7 contract] store, []⟩,
    fresh, ?_, by decide +kernel, by decide +kernel, by decide +kernel⟩
  exact @AgentPool.Reached.perform digest _ _ _ .refl

end Seyal.Agent.Action
