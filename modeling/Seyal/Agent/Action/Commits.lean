import Seyal.Agent.Action.Decisions

namespace Seyal.Agent.Action

open Program Run

/-! What each transaction commits: one event on one Action, a request, a verdict,
or nothing. -/

def Event.approval : Event → Option ApprovalId
  | .dispatched _ _ _ approval => approval
  | _ => none

def Event.entersDispatching : Event → Bool
  | .dispatched .. => true
  | .decided _ _ _ after => after = .dispatching
  | _ => false

namespace Database

def eventsOf (database : Database) (actionId : ActionId) : List Event :=
  (database.log.filter fun entry => entry.1 = actionId).map Prod.snd

def usedApprovals (database : Database) : List ApprovalId := database.log.filterMap fun entry => entry.2.approval

section

variable [IntentDigest]

/-- The decisions as an event leaves them. A dispatch that needs a person's approval
uses one of exactly this intent, under the policy and the fence of the moment. -/
inductive Uses (database : Database) (intent : ActionIntent) : Event → Mapping ApprovalId ApprovalDecision → Prop where
  | nothing {event : Event} (unneeded : event.isDispatched = true → humanApprovalRequired intent = false)
      (unused : event.approval = none) : Uses database intent event database.decisions
  | approval {generation nowMs policyGeneration : Nat} {approvalId : ApprovalId} {request : ApprovalRequest}
      {decision : ApprovalDecision} {fence : RevocationFence}
      (current : database.currentFenceFor intent.revocationFence = .ok fence)
      (requested : database.requests.lookup approvalId = some request)
      (decided : database.decisions.lookup approvalId = some decision)
      (consumable : Consumable request decision (ConsumptionWitness.fromLiveIntent intent policyGeneration fence) nowMs) :
      Uses database intent (.dispatched generation nowMs policyGeneration (some approvalId))
        (database.decisions.insert approvalId { decision with consumed := true })

/-- What one transaction may do to the Actions, the decisions and the log. -/
inductive Commits (before after : Database) : Prop where
  | still (actions : after.actions = before.actions) (decisions : after.decisions = before.decisions)
      (log : after.log = before.log)
  | ruled (decision : ApprovalDecision) (fresh : before.decisions.lookup decision.approvalId = none)
      (unused : decision.consumed = false) (actions : after.actions = before.actions)
      (decisions : after.decisions = before.decisions.insert decision.approvalId decision)
      (log : after.log = before.log)
  | prepared (intent : ActionIntent) (fresh : before.actions.lookup intent.actionId = none)
      (actions : after.actions =
        before.actions.insert intent.actionId { intent, digest := intent.digest })
      (decisions : after.decisions = before.decisions)
      (log : after.log = before.log ++ [(intent.actionId, .prepared)])
  | moved (actionId : ActionId) (row next : ActionRow) (event : Event)
      (present : before.actions.lookup actionId = some row) (intent : next.intent = row.intent)
      (digest : next.digest = row.digest) (step : Phase.Step row.phase event next.phase)
      (actions : after.actions = before.actions.insert actionId next)
      (uses : before.Uses row.intent event after.decisions)
      (log : after.log = before.log ++ [(actionId, event)])

end

theorem Commits.refl [IntentDigest] (database : Database) :
    database.Commits database :=
  .still rfl rfl rfl

end Database

def Phase.start : Phase := ⟨.prepared, none⟩

/-- Each Action is where its events took it, and a decision is consumed exactly if
a dispatch in the log used it. -/
structure Database.Sound [IntentDigest] (database : Database) : Prop where
  keyed : ∀ actionId row, database.actions.lookup actionId = some row →
    row.intent.actionId = actionId ∧ row.digest = row.intent.digest
  path : ∀ actionId row, database.actions.lookup actionId = some row →
    ∃ events, database.eventsOf actionId = .prepared :: events ∧ Phase.Path Phase.start events row.phase
  absent : ∀ actionId, database.actions.lookup actionId = none → database.eventsOf actionId = []
  used : ∀ approvalId, approvalId ∈ database.usedApprovals ↔
    ∃ decision, database.decisions.lookup approvalId = some decision ∧ decision.consumed = true
  once : database.usedApprovals.Nodup

namespace Database

variable {before after : Database} {actionId : ActionId} {row : ActionRow} {event : Event}

theorem eventsOf_append (log : after.log = before.log ++ [(actionId, event)]) (other : ActionId) :
    after.eventsOf other = before.eventsOf other ++ if actionId = other then [event] else [] := by
  unfold eventsOf
  rw [log, List.filter_append, List.map_append]
  by_cases same : actionId = other <;> simp [same]

theorem eventsOf_same (log : after.log = before.log) (other : ActionId) :
    after.eventsOf other = before.eventsOf other := by
  unfold eventsOf
  rw [log]

theorem usedApprovals_append (log : after.log = before.log ++ [(actionId, event)]) :
    after.usedApprovals = before.usedApprovals ++ event.approval.toList := by
  unfold usedApprovals
  rw [log, List.filterMap_append]
  cases used : event.approval with
  | none | some approvalId => simp [used]

variable [IntentDigest]

theorem Sound.phase (sound : before.Sound) (present : before.actions.lookup actionId = some row) :
    row.phase.Sound := by
  obtain ⟨events, _, path⟩ := sound.path actionId row present
  have start : Phase.start.Sound := Phase.Sound.of_not_pending (by decide)
  exact (path.invariant start fun _ _ _ _ step => step.sound).1

theorem Commits.at_row (commits : before.Commits after) (present : before.actions.lookup actionId = some row) :
    after.actions.lookup actionId = some row ∨
      ∃ next event, after.actions.lookup actionId = some next ∧ next.intent = row.intent ∧
        Phase.Step row.phase event next.phase ∧ before.Uses row.intent event after.decisions ∧
        after.log = before.log ++ [(actionId, event)] := by
  cases commits with
  | still actions _ _ | ruled _ _ _ actions _ _ => exact .inl (by rw [actions, present])
  | prepared intent fresh actions _ _ =>
      have other : actionId ≠ intent.actionId := by
        rintro rfl
        rw [fresh] at present
        cases present
      exact .inl (by rw [actions, AList.lookup_insert_ne other, present])
  | moved moved first next event there intent _ step actions uses log =>
      by_cases same : actionId = moved
      · subst same
        rw [there] at present
        cases present
        exact .inr ⟨next, event, by rw [actions, AList.lookup_insert], intent, step, uses, log⟩
      · exact .inl (by rw [actions, AList.lookup_insert_ne same, present])

theorem Commits.intent (commits : before.Commits after) (present : before.actions.lookup actionId = some row) :
    ∃ next, after.actions.lookup actionId = some next ∧ next.intent = row.intent := by
  rcases commits.at_row present with same | ⟨next, _, there, intent, _⟩
  · exact ⟨row, same, rfl⟩
  · exact ⟨next, there, intent⟩

theorem Sound.written (sound : before.Sound) {next : ActionRow}
    (actions : after.actions = before.actions.insert actionId next)
    (log : after.log = before.log ++ [(actionId, event)])
    (keyed : next.intent.actionId = actionId ∧ next.digest = next.intent.digest)
    (path : ∃ events, before.eventsOf actionId ++ [event] = .prepared :: events ∧
      Phase.Path Phase.start events next.phase)
    (used : ∀ approvalId, approvalId ∈ after.usedApprovals ↔
      ∃ decision, after.decisions.lookup approvalId = some decision ∧ decision.consumed = true)
    (once : after.usedApprovals.Nodup) : after.Sound := by
  have unwritten : ∀ other, other ≠ actionId →
      after.actions.lookup other = before.actions.lookup other ∧ after.eventsOf other = before.eventsOf other := by
    intro other different
    rw [actions, AList.lookup_insert_ne different, eventsOf_append log, if_neg (Ne.symm different), List.append_nil]
    exact ⟨rfl, rfl⟩
  have here : after.actions.lookup actionId = some next := by rw [actions, AList.lookup_insert]
  refine ⟨?_, ?_, ?_, used, once⟩
  · intro other found present
    by_cases same : other = actionId
    · subst same
      cases here.symm.trans present
      exact keyed
    · exact sound.keyed other found ((unwritten other same).1 ▸ present)
  · intro other found present
    by_cases same : other = actionId
    · subst same
      cases here.symm.trans present
      rw [eventsOf_append log, if_pos rfl]
      exact path
    · rw [(unwritten other same).2]
      exact sound.path other found ((unwritten other same).1 ▸ present)
  · intro other missing
    by_cases same : other = actionId
    · subst same
      cases here.symm.trans missing
    · rw [(unwritten other same).2]
      exact sound.absent other ((unwritten other same).1 ▸ missing)

theorem Sound.prepared_moved (sound : before.Sound) {intent : ActionIntent}
    (fresh : before.actions.lookup intent.actionId = none)
    (actions : after.actions = before.actions.insert intent.actionId { intent, digest := intent.digest })
    (decisions : after.decisions = before.decisions)
    (log : after.log = before.log ++ [(intent.actionId, .prepared)]) : after.Sound := by
  have used : after.usedApprovals = before.usedApprovals := by
    rw [usedApprovals_append log]
    exact List.append_nil _
  refine sound.written actions log ⟨rfl, rfl⟩ ⟨[], ?_, .nil⟩ ?_ ?_
  · rw [sound.absent _ fresh]
    rfl
  · intro approvalId
    rw [used, decisions]
    exact sound.used approvalId
  · rw [used]
    exact sound.once

theorem Uses.used (uses : before.Uses row.intent event after.decisions) (sound : before.Sound)
    (log : after.log = before.log ++ [(actionId, event)]) :
    (∀ approvalId, approvalId ∈ after.usedApprovals ↔
      ∃ decision, after.decisions.lookup approvalId = some decision ∧ decision.consumed = true) ∧
    after.usedApprovals.Nodup := by
  have grown := usedApprovals_append log
  generalize after.decisions = decisions at uses
  cases uses with
  | nothing unneeded unused =>
      rw [grown, unused, Option.toList_none, List.append_nil]
      exact ⟨sound.used, sound.once⟩
  | @approval _ _ _ approvalId request decision _ _ _ decided consumable =>
      rw [grown]
      have new : approvalId ∉ before.usedApprovals := by
        intro member
        obtain ⟨found, here, consumed⟩ := (sound.used approvalId).mp member
        rw [decided] at here
        cases here
        rw [consumable.unused] at consumed
        cases consumed
      refine ⟨fun other => ?_, ?_⟩
      · by_cases same : other = approvalId
        · subst same
          simp [Event.approval]
        · rw [AList.lookup_insert_ne same, ← sound.used other]
          simp [Event.approval, same]
      · simp only [Event.approval, Option.toList_some]
        exact List.nodup_append.mpr ⟨sound.once, List.nodup_singleton _, by
          rintro first member second here rfl
          rw [List.mem_singleton.mp here] at member
          exact new member⟩

theorem Sound.row_moved (sound : before.Sound) {next : ActionRow}
    (present : before.actions.lookup actionId = some row) (intent : next.intent = row.intent)
    (digest : next.digest = row.digest) (step : Phase.Step row.phase event next.phase)
    (actions : after.actions = before.actions.insert actionId next)
    (uses : before.Uses row.intent event after.decisions)
    (log : after.log = before.log ++ [(actionId, event)]) : after.Sound := by
  obtain ⟨used, once⟩ := uses.used sound log
  obtain ⟨events, earlier, path⟩ := sound.path actionId row present
  refine sound.written actions log ?_ ⟨events ++ [event], ?_, path.snoc step⟩ used once
  · rw [intent, digest]
    exact sound.keyed actionId row present
  · rw [earlier, List.cons_append]

theorem Sound.of_same (sound : before.Sound) (actions : after.actions = before.actions)
    (log : after.log = before.log)
    (consumed : ∀ approvalId,
      (∃ decision, after.decisions.lookup approvalId = some decision ∧ decision.consumed = true) ↔
        ∃ decision, before.decisions.lookup approvalId = some decision ∧ decision.consumed = true) :
    after.Sound := by
  have used : after.usedApprovals = before.usedApprovals := by
    unfold usedApprovals
    rw [log]
  refine ⟨?_, ?_, ?_, ?_, ?_⟩
  · rw [actions]
    exact sound.keyed
  · intro actionId row present
    rw [actions] at present
    rw [eventsOf_same log]
    exact sound.path actionId row present
  · intro actionId missing
    rw [actions] at missing
    rw [eventsOf_same log]
    exact sound.absent actionId missing
  · intro approvalId
    rw [used, consumed]
    exact sound.used approvalId
  · rw [used]
    exact sound.once

theorem Commits.sound (commits : before.Commits after) (sound : before.Sound) : after.Sound := by
  cases commits with
  | still actions decisions log => exact sound.of_same actions log fun approvalId => by rw [decisions]
  | ruled decision fresh unused actions decisions log =>
      refine sound.of_same actions log fun approvalId => ?_
      rw [decisions]
      by_cases same : approvalId = decision.approvalId
      · subst same
        simp [fresh, unused]
      · rw [AList.lookup_insert_ne same]
  | prepared intent fresh actions decisions log => exact sound.prepared_moved fresh actions decisions log
  | moved actionId row next event present intent digest step actions uses log =>
      exact sound.row_moved present intent digest step actions uses log

end Database

section Transactions

variable {database : Database} {record : PersistedAction}

def Recorded (record : PersistedAction) (database : Database) : Prop :=
  ∃ row, database.actions.lookup record.intent.actionId = some row ∧ row.intent = record.intent

theorem Recorded.row {row : ActionRow} (recorded : Recorded record database)
    (present : database.actions.lookup record.intent.actionId = some row) : row.intent = record.intent := by
  obtain ⟨found, here, same⟩ := recorded
  rw [present] at here
  cases here
  exact same

theorem wp_updateAction {actionId : ActionId} {guard : ActionRow → Bool} {change : ActionRow → ActionRow}
    {post : Unit → Database → Prop}
    (meets : ∀ row, database.actions.lookup actionId = some row → guard row = true →
      post () { database with actions := database.actions.insert actionId (change row) }) :
    wp (Tx.updateAction actionId guard change) post (fun _ _ => True) database := by
  unfold Tx.updateAction
  rw [wp_bind, wp_get]
  split
  next => trivial
  next row present =>
    rw [wp_ite]
    split
    next passes => exact meets row present passes
    next => trivial

theorem consumeInTx_spec (approvalId : ApprovalId) (witness : ConsumptionWitness) (nowMs : Nat) :
    wp (consumeInTx approvalId witness nowMs)
      (fun consumed after => ∃ request decision, database.requests.lookup approvalId = some request ∧
        database.decisions.lookup approvalId = some decision ∧ Consumable request decision witness nowMs ∧
        consumed = { decision with consumed := true } ∧
        after = { database with decisions := database.decisions.insert approvalId consumed })
      (fun _ after => after = database) database := by
  unfold consumeInTx
  rw [wp_bind, wp_get]
  split
  next request decision requested decided =>
      split
      next => rfl
      next passes =>
        rw [wp_ite]
        split
        next => rfl
        next => exact ⟨request, decision, requested, decided, evaluateConsume_ok passes, rfl, rfl⟩
  next => rfl

theorem resolveAttention_same (attentionId : AttentionId) :
    wp (resolveAttention attentionId)
      (fun _ after => after.actions = database.actions ∧ after.decisions = database.decisions ∧
        after.log = database.log) (fun _ _ => True) database := by
  unfold resolveAttention
  rw [wp_bind, wp_get]
  split
  next => trivial
  next =>
    rw [wp_ite]
    split
    next => exact ⟨rfl, rfl, rfl⟩
    next => trivial

theorem evaluateDispatch_ok {eval : DispatchEval} {generation : Nat} (sound : eval.runtime.phase.Sound)
    (accepted : evaluateDispatch eval = .ok generation) : generation = 1 := by
  unfold evaluateDispatch at accepted
  split_ifs at accepted with _ _ authorized
  cases accepted
  have none : eval.runtime.dispatchGeneration = none := sound.idle (.inr (Decidable.not_not.mp authorized))
  rw [nextDispatchGeneration, none]
  rfl

variable [IntentDigest]

variable {after : Database} {fence : RevocationFence} {input : DispatchInput}
  {consumed : Option (ApprovalId × ApprovalDecision)}

theorem Recorded.commits (recorded : Recorded record database) (commits : database.Commits after) :
    Recorded record after := by
  obtain ⟨row, present, same⟩ := recorded
  obtain ⟨next, later, intent⟩ := commits.intent present
  exact ⟨next, later, intent.trans same⟩

/-- A transaction that fails changes nothing, so its normal end is all there is to show. -/
theorem transact_commits {α : Type} {body : Tx (Except ActionError α)}
    (spec : wp body (fun _ after => database.Commits after) (fun _ _ => True) database) :
    database.Commits (transact body database).2 := by
  unfold wp at spec
  unfold transact
  split
  next result after ran =>
      rw [ran] at spec
      exact spec
  next => exact .refl database
  next => exact .refl database

theorem prepareCommitted_commits (intent : ActionIntent) (expected : Option Nat) :
    wp (prepareCommitted intent expected) (fun _ after => database.Commits after) (fun _ _ => True) database := by
  unfold prepareCommitted
  rw [wp_bind, wp_get]
  split
  next => trivial
  next =>
    rw [wp_ite]
    split
    next => trivial
    next =>
      split
      next existing present =>
          rw [wp_ite]
          split
          next => trivial
          next => exact .refl database
      next fresh => exact .prepared intent fresh rfl rfl rfl

theorem authorizeCommitted_commits (sound : database.Sound) :
    wp (authorizeCommitted record) (fun _ after => database.Commits after) (fun _ _ => True) database := by
  unfold authorizeCommitted
  rw [wp_bind]
  refine wp_updateAction fun row present passes => ?_
  simp only [decide_eq_true_eq] at passes
  have phase : row.phase = ⟨.prepared, none⟩ := by
    rw [← (sound.phase present).idle (.inl passes.2), ← passes.2]
    rfl
  have none : row.dispatchGeneration = none := congrArg Phase.generation phase
  refine .moved _ row { row with lifecycle := .authorized, authorizationInvalidated := false } .authorized present
    rfl rfl ?_ rfl (.nothing (fun wrong => by cases wrong) rfl) rfl
  rw [phase]
  simp only [ActionRow.phase, none]
  exact .authorized

theorem invalidateAuthorized_commits (sound : database.Sound) :
    wp (invalidateAuthorized record) (fun _ after => database.Commits after) (fun _ _ => True) database := by
  unfold invalidateAuthorized
  rw [wp_ite]
  split
  next =>
      rw [wp_bind]
      refine wp_updateAction fun row present passes => ?_
      simp only [decide_eq_true_eq] at passes
      have phase : row.phase = ⟨.authorized, none⟩ := by
        rw [← (sound.phase present).idle (.inr passes.2), ← passes.2]
        rfl
      refine .moved _ row
        { row with lifecycle := .prepared, authorizationInvalidated := true, dispatchGeneration := none }
        .invalidated present rfl rfl ?_ rfl (.nothing (fun wrong => by cases wrong) rfl) rfl
      rw [phase]
      exact .invalidated
  next => exact .refl database

theorem persistDecisionCommitted_commits {cause : Cause} {decision : RecoveryDecision} {evidence : RecoveryEvidence}
    (step : Phase.Step record.runtime.phase
      (.decided cause evidence record.runtime.lifecycle decision.runtime.lifecycle) decision.runtime.phase) :
    wp (persistDecisionCommitted record cause decision evidence) (fun _ after => database.Commits after)
      (fun _ _ => True) database := by
  unfold persistDecisionCommitted
  rw [wp_bind]
  refine wp_updateAction fun row present passes => ?_
  simp only [decide_eq_true_eq] at passes
  have phase : row.phase = record.runtime.phase := by
    unfold ActionRow.phase ActionRuntime.phase
    rw [passes.2.1, passes.2.2]
  refine .moved _ row
    { row with
      lifecycle := decision.runtime.lifecycle
      dispatchGeneration := decision.runtime.dispatchGeneration
      authorizationInvalidated := decision.runtime.authorizationInvalidated
      cancelRequested := decision.runtime.cancelRequested
      reconciliationAttempts := decision.runtime.reconciliationAttempts
      lastEvidence := some evidence }
    (.decided cause evidence record.runtime.lifecycle decision.runtime.lifecycle) present rfl rfl ?_ rfl
    (.nothing (fun wrong => by cases wrong) rfl) rfl
  rw [phase]
  exact step

/-- What is left of the approval a dispatch needs: it is consumed, or none was needed. -/
inductive Supplied (database : Database) (record : PersistedAction) (fence : RevocationFence)
    (input : DispatchInput) : Option (ApprovalId × ApprovalDecision) → Database → Prop where
  | unneeded (free : humanApprovalRequired record.intent = false) : Supplied database record fence input none database
  | consumed {approvalId : ApprovalId} {request : ApprovalRequest} {decision : ApprovalDecision}
      (requested : database.requests.lookup approvalId = some request)
      (decided : database.decisions.lookup approvalId = some decision)
      (consumable : Consumable request decision
        (ConsumptionWitness.fromLiveIntent record.intent input.currentPolicyGeneration fence) input.nowMs) :
      Supplied database record fence input (some (approvalId, { decision with consumed := true }))
        { database with decisions := database.decisions.insert approvalId { decision with consumed := true } }

theorem consumeMatching_spec (fence : RevocationFence) (input : DispatchInput) :
    wp (consumeMatching record fence input)
      (fun consumed after => Supplied database record fence input (some consumed) after)
      (fun _ after => after = database) database := by
  unfold consumeMatching
  rw [wp_bind, wp_get]
  split
  next => rfl
  next approvalId _ =>
    split
    next => rfl
    next =>
      rw [wp_ite]
      split
      next => rfl
      next =>
        rw [wp_bind]
        refine wp_mono (consumeInTx_spec approvalId _ _) ?_ fun _ _ same => same
        rintro _ _ ⟨request, decision, requested, decided, consumable, rfl, rfl⟩
        exact .consumed requested decided consumable

theorem consumption_spec (fence : RevocationFence) (input : DispatchInput) :
    wp (consumption record fence input)
      (fun result after =>
        match result with
        | .ok consumed => Supplied database record fence input consumed after
        | .error _ => after = database)
      (fun _ _ => True) database := by
  unfold consumption
  split
  next =>
      rw [wp_tryCatch, wp_bind]
      exact wp_mono (consumeMatching_spec fence input) (fun _ _ supplied => supplied) fun _ _ same => same
  next free => exact .unneeded (by simpa using free)

theorem Supplied.uses {generation : Nat} (supplied : Supplied database record fence input consumed after)
    (current : database.currentFenceFor record.intent.revocationFence = .ok fence) :
    database.Uses record.intent
      (.dispatched generation input.nowMs input.currentPolicyGeneration (consumed.map Prod.fst)) after.decisions := by
  cases supplied with
  | unneeded free => exact .nothing (fun _ => free) rfl
  | consumed requested decided consumable => exact .approval current requested decided consumable

theorem Supplied.same (supplied : Supplied database record fence input consumed after) :
    after.actions = database.actions ∧ after.log = database.log := by
  cases supplied with
  | unneeded _ | consumed _ _ _ => exact ⟨rfl, rfl⟩

theorem commitDispatching_commits {supplied : Database} (sound : database.Sound) (recorded : Recorded record database)
    (current : database.currentFenceFor record.intent.revocationFence = .ok fence)
    (supply : Supplied database record fence input consumed supplied) :
    wp (commitDispatching record 1 input consumed) (fun _ after => database.Commits after) (fun _ _ => True)
      supplied := by
  obtain ⟨actions, log⟩ := supply.same
  unfold commitDispatching
  rw [wp_bind]
  refine wp_updateAction fun row present passes => ?_
  simp only [decide_eq_true_eq] at passes
  rw [actions] at present
  have phase : row.phase = ⟨.authorized, none⟩ := by
    rw [← (sound.phase present).idle (.inr passes.2.1), ← passes.2.1]
    rfl
  refine .moved _ row
    { row with lifecycle := .dispatching, dispatchGeneration := some 1, authorizationInvalidated := false }
    (.dispatched 1 input.nowMs input.currentPolicyGeneration (consumed.map Prod.fst)) present rfl rfl ?_
    (congrArg (AList.insert _ _) actions) ?_ (congrArg (· ++ [_]) log)
  · rw [phase]
    exact .dispatched
  · rw [recorded.row present]
    exact supply.uses current

theorem wp_dispatchCommitted {bindingGeneration : Nat} {health : PersistHealth}
    {post : Except ActionError DispatchOutcome → Database → Prop}
    (refused : ∀ error, wp (invalidateAuthorized record) (fun _ after => post (.error error) after) (fun _ _ => True)
      database)
    (supplied : ∀ fence eval generation consumed supplied,
      database.currentFenceFor record.intent.revocationFence = .ok fence → eval.runtime = record.runtime →
      evaluateDispatch eval = .ok generation → Supplied database record fence input consumed supplied →
      wp (commitDispatching record generation input consumed) post (fun _ _ => True) supplied) :
    wp (dispatchCommitted record bindingGeneration health input) post (fun _ _ => True) database := by
  unfold dispatchCommitted
  rw [wp_bind, wp_get]
  split
  next => trivial
  next fence current =>
    split
    next => trivial
    next =>
      rw [wp_bind]
      exact refused _
    next generation accepted =>
      rw [wp_bind]
      refine wp_mono (consumption_spec fence input) ?_ fun _ _ _ => trivial
      intro result after outcome
      split
      next error =>
          subst outcome
          rw [wp_bind]
          exact refused error
      next consumed => exact supplied fence _ generation consumed after current rfl accepted outcome

theorem dispatchCommitted_commits {bindingGeneration : Nat} {health : PersistHealth} (sound : database.Sound)
    (recorded : Recorded record database) (read : record.runtime.phase.Sound) :
    wp (dispatchCommitted record bindingGeneration health input) (fun _ after => database.Commits after)
      (fun _ _ => True) database := by
  refine wp_dispatchCommitted (fun _ => invalidateAuthorized_commits sound) ?_
  intro fence eval generation consumed supplied current same accepted supply
  have first : generation = 1 := evaluateDispatch_ok (same ▸ read) accepted
  subst first
  exact commitDispatching_commits sound recorded current supply

end Transactions

section Requests

variable [IntentDigest] {database : Database}

theorem recordRequestCommitted_commits (request : ApprovalRequest) :
    wp (recordRequestCommitted request) (fun _ after => database.Commits after) (fun _ _ => True) database := by
  unfold recordRequestCommitted
  rw [wp_bind, wp_get]
  simp only [wp_ite]
  split
  next => trivial
  next =>
    split
    next => trivial
    next => exact .still rfl rfl rfl

theorem decideCommitted_commits (input : DecideInput) :
    wp (decideCommitted input) (fun _ after => database.Commits after) (fun _ _ => True) database := by
  unfold decideCommitted
  rw [wp_bind, wp_get]
  split
  next => trivial
  next request _ =>
    simp only [wp_ite]
    split
    next => trivial
    next =>
      split
      next => trivial
      next =>
        split
        next =>
            rw [wp_ite]
            split
            next => exact .refl database
            next => trivial
        next fresh =>
            rw [wp_bind, insertDecision, wp_modify, wp_bind]
            refine wp_mono (resolveAttention_same request.attentionId) ?_ fun _ _ _ => trivial
            rintro _ after ⟨actions, decisions, log⟩
            exact .ruled _ fresh rfl actions decisions log

end Requests

end Seyal.Agent.Action
