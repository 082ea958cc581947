import Seyal.Agent.Action.Approval
import Seyal.Program.Job
import Seyal.Program.Run

namespace Seyal.Agent.Action

open Program

/-! The tables of the agent store, the transactions on them, and the operations of
the two authorities as the locked sections they are made of. -/

inductive ActionIntentError where
  | invalidField
  | fence (error : PolicyError)
  | canonicalTooLarge
  | malformed
  deriving Repr, DecidableEq

inductive ActionError where
  | store (error : StoreError)
  | intent (error : ActionIntentError)
  | unknownAgentRun
  | identityMismatch
  | recovery (error : RecoveryError)
  | illegalLifecycle
  | persistencePaused (health : PersistHealth) (reason : PersistPauseReason)
  | dispatch (error : DispatchError)
  | approval (error : ApprovalError)
  | staleRunBinding
  deriving Repr, DecidableEq

structure ActionRow where
  intent : ActionIntent
  digest : Digest
  lifecycle : ActionLifecycle := .prepared
  dispatchGeneration : Option Nat := none
  authorizationInvalidated : Bool := false
  cancelRequested : Bool := false
  reconciliationAttempts : Nat := 0
  lastEvidence : Option RecoveryEvidence := none

def ActionRow.runtime (row : ActionRow) : ActionRuntime where
  lifecycle := row.lifecycle
  dispatchGeneration := row.dispatchGeneration
  authorizationInvalidated := row.authorizationInvalidated
  cancelRequested := row.cancelRequested
  reconciliationAttempts := row.reconciliationAttempts
  automaticBudget := defaultAutomaticReconciliationBudget

structure HistoryRow where
  actionId : ActionId
  seq : Nat
  fromLifecycle : ActionLifecycle
  toLifecycle : ActionLifecycle
  evidenceKind : EvidenceKind
  deriving Repr, DecidableEq

inductive AttentionState where
  | «open»
  | acknowledged
  | resolved
  | dismissed
  | expired
  deriving Repr, DecidableEq

structure AttentionItem where
  agentRunId : AgentRunId
  state : AttentionState
  deriving Repr, DecidableEq

inductive Cause where
  | recovered (boundary : CrashBoundary)
  | reconciled
  | cancelled
  deriving Repr, DecidableEq

/-- What a committed transaction did to an Action. -/
inductive Event where
  | prepared
  | authorized
  | invalidated
  | dispatched (generation nowMs policyGeneration : Nat) (approval : Option ApprovalId)
  | decided (cause : Cause) (evidence : RecoveryEvidence) (before after : ActionLifecycle)
  deriving Repr, DecidableEq

/-- `log` is every committed event, oldest first; nothing reads it. -/
structure Database where
  actions : Mapping ActionId ActionRow := ∅
  history : List HistoryRow := []
  requests : Mapping ApprovalId ApprovalRequest := ∅
  decisions : Mapping ApprovalId ApprovalDecision := ∅
  attention : Mapping AttentionId AttentionItem := ∅
  runs : Mapping AgentRunId Nat := ∅
  revocations : Mapping ScopeIdentity Nat := ∅
  log : List (ActionId × Event) := []

structure PersistedAction where
  intent : ActionIntent
  runtime : ActionRuntime

/-! Transactions. An error leaves the tables as they were; a refusal that is returned
as a value has been committed with what was written before it. -/

abbrev Tx := Run Database ActionError

variable {α : Type}

def transact (body : Tx (Except ActionError α)) (database : Database) : Except ActionError α × Database :=
  match body database with
  | some (.ok result, after) => (result, after)
  | some (.error error, _) => (.error error, database)
  | none => (.error (.store .corrupt), database)

namespace Tx

/-- `UPDATE action_intent … WHERE`, which has to meet one row. -/
def updateAction (actionId : ActionId) (guard : ActionRow → Bool) (change : ActionRow → ActionRow) : Tx Unit := do
  let database ← get
  match database.actions.lookup actionId with
  | none => throw .illegalLifecycle
  | some row =>
      if guard row then set { database with actions := database.actions.insert actionId (change row) }
      else throw .illegalLifecycle

def appendHistory (actionId : ActionId) (fromLifecycle toLifecycle : ActionLifecycle)
    (evidenceKind : EvidenceKind) : Tx Unit :=
  modify fun database =>
    let seqs := (database.history.filter fun row => row.actionId = actionId).map HistoryRow.seq
    { database with
      history := database.history ++ [⟨actionId, seqs.foldl max 0 + 1, fromLifecycle, toLifecycle, evidenceKind⟩] }

def note (actionId : ActionId) (event : Event) : Tx Unit :=
  modify fun database => { database with log := database.log ++ [(actionId, event)] }

end Tx

inductive PrepareOutcome where
  | newlyPrepared
  | duplicate
  deriving Repr, DecidableEq

structure DispatchInput where
  nowMs : Nat
  currentPolicyGeneration : Nat
  expectedBindingGeneration : Nat
  deriving Repr, DecidableEq

structure DispatchOutcome where
  actionId : ActionId
  dispatchGeneration : Nat
  consumedApproval : Option ApprovalDecision
  deriving Repr, DecidableEq

structure DecideInput where
  approvalId : ApprovalId
  actionId : ActionId
  agentRunId : AgentRunId
  verdict : ApprovalVerdict
  authority : DecisionAuthority
  decisionPolicyGeneration : Nat
  decisionPrincipalId : Option ClientPrincipalId
  requireSession : Bool
  clientSession : Option Nat
  sessionValid : Bool
  hasApprovalDecideScope : Bool
  nowUnixMs : Nat
  deriving Repr, DecidableEq

section Transactions

variable [IntentDigest]

def insertIntent (intent : ActionIntent) : Tx PrepareOutcome := do
  let database ← get
  set { database with actions := database.actions.insert intent.actionId { intent, digest := intent.digest } }
  Tx.note intent.actionId .prepared
  return .newlyPrepared

def prepareCommitted (intent : ActionIntent) (expectedBindingGeneration : Option Nat) : Tx PrepareOutcome := do
  let database ← get
  match database.runs.lookup intent.agentRunId with
  | none => throw .unknownAgentRun
  | some bindingGeneration =>
      if expectedBindingGeneration.any fun expected => expected ≠ bindingGeneration then throw .staleRunBinding
      else
        match database.actions.lookup intent.actionId with
        | some existing =>
            if existing.digest ≠ intent.digest then throw .identityMismatch else return .duplicate
        | none => insertIntent intent

def authorizeCommitted (record : PersistedAction) : Tx Unit := do
  let actionId := record.intent.actionId
  Tx.updateAction actionId (fun row => row.digest = record.intent.digest ∧ row.lifecycle = .prepared)
    fun row => { row with lifecycle := .authorized, authorizationInvalidated := false }
  Tx.appendHistory actionId .prepared .authorized .none
  Tx.note actionId .authorized

def persistDecisionCommitted (record : PersistedAction) (cause : Cause) (decision : RecoveryDecision)
    (evidence : RecoveryEvidence) : Tx RecoveryDecision := do
  let actionId := record.intent.actionId
  let next := decision.runtime
  Tx.updateAction actionId
    (fun row => row.digest = record.intent.digest ∧ row.lifecycle = record.runtime.lifecycle ∧
      row.dispatchGeneration = record.runtime.dispatchGeneration)
    fun row =>
      { row with
        lifecycle := next.lifecycle
        dispatchGeneration := next.dispatchGeneration
        authorizationInvalidated := next.authorizationInvalidated
        cancelRequested := next.cancelRequested
        reconciliationAttempts := next.reconciliationAttempts
        lastEvidence := some evidence }
  Tx.appendHistory actionId record.runtime.lifecycle next.lifecycle evidence.kind
  Tx.note actionId (.decided cause evidence record.runtime.lifecycle next.lifecycle)
  return decision

def invalidateAuthorized (record : PersistedAction) : Tx Unit := do
  if record.runtime.lifecycle = .authorized then
    let actionId := record.intent.actionId
    Tx.updateAction actionId (fun row => row.digest = record.intent.digest ∧ row.lifecycle = .authorized)
      fun row => { row with lifecycle := .prepared, authorizationInvalidated := true, dispatchGeneration := none }
    Tx.appendHistory actionId .authorized .prepared .none
    Tx.note actionId .invalidated

def Database.currentMember (database : Database) (member : RevocationFenceMember) :
    Except ActionError RevocationFenceMember :=
  let generation := (database.revocations.lookup member.scope).getD 1
  if generation = 0 then .error (.store .corrupt) else .ok { member with generation }

def Database.currentFenceFor (database : Database) (bound : RevocationFence) :
    Except ActionError RevocationFence :=
  if bound.members = [] then .error (.dispatch .incompleteFence)
  else
    match bound.members.mapM database.currentMember with
    | .error error => .error error
    | .ok members =>
        match RevocationFence.new members with
        | .error error => .error (.intent (.fence error))
        | .ok fence => .ok fence

def Database.unconsumedApprovals (database : Database) (actionId : ActionId) : List ApprovalId :=
  (database.requests.entries.filter fun entry =>
    entry.2.actionId = actionId &&
      (database.decisions.lookup entry.1).any fun decision =>
        !decision.consumed && decision.decision = .approved).map Sigma.fst

def Database.findUnconsumedApprovalId (database : Database) (record : PersistedAction) (nowMs : Nat) :
    Except ActionError ApprovalId :=
  match database.unconsumedApprovals record.intent.actionId with
  | [approvalId] =>
      match database.requests.lookup approvalId, database.decisions.lookup approvalId with
      | some request, some decision =>
          let witness := ConsumptionWitness.fromLiveIntent record.intent record.intent.policyGeneration
            record.intent.revocationFence
          match evaluateConsume request decision witness nowMs with
          | .error error => .error (.approval error)
          | .ok () => .ok approvalId
      | _, _ => .error (.dispatch .approvalRequired)
  | _ => .error (.dispatch .approvalRequired)

def consumeInTx (approvalId : ApprovalId) (witness : ConsumptionWitness) (nowUnixMs : Nat) :
    Tx ApprovalDecision := do
  let database ← get
  match database.requests.lookup approvalId, database.decisions.lookup approvalId with
  | some request, some decision =>
      match evaluateConsume request decision witness nowUnixMs with
      | .error error => throw (.approval error)
      | .ok () =>
          if decision.consumed then throw (.approval .alreadyConsumed)
          else
            let consumed := { decision with consumed := true }
            set { database with decisions := database.decisions.insert approvalId consumed }
            return consumed
  | _, _ => throw (.approval .unknownApproval)

def consumeMatching (record : PersistedAction) (currentFence : RevocationFence) (input : DispatchInput) :
    Tx (ApprovalId × ApprovalDecision) := do
  let database ← get
  match database.findUnconsumedApprovalId record input.nowMs with
  | .error error => throw error
  | .ok approvalId =>
      match database.requests.lookup approvalId with
      | none => throw (.dispatch .approvalRequired)
      | some request =>
          if request.controlMode ≠ .seyalControlled then throw (.approval .externalObservedForbidden)
          else
            let decision ← consumeInTx approvalId
              (ConsumptionWitness.fromLiveIntent record.intent input.currentPolicyGeneration currentFence)
              input.nowMs
            return (approvalId, decision)

/-- The approval an intent needs is consumed; a refusal is handed on as a value. -/
def consumption (record : PersistedAction) (currentFence : RevocationFence) (input : DispatchInput) :
    Tx (Except ActionError (Option (ApprovalId × ApprovalDecision))) :=
  if humanApprovalRequired record.intent then
    tryCatch (do
        let consumed ← consumeMatching record currentFence input
        return .ok (some consumed))
      fun error => return .error error
  else return .ok none

def commitDispatching (record : PersistedAction) (generation : Nat) (input : DispatchInput)
    (consumed : Option (ApprovalId × ApprovalDecision)) : Tx (Except ActionError DispatchOutcome) := do
  let actionId := record.intent.actionId
  Tx.updateAction actionId
    (fun row => row.digest = record.intent.digest ∧ row.lifecycle = .authorized ∧
      row.cancelRequested = false ∧ row.authorizationInvalidated = false)
    fun row =>
      { row with
        lifecycle := .dispatching, dispatchGeneration := some generation, authorizationInvalidated := false }
  Tx.appendHistory actionId .authorized .dispatching .none
  Tx.note actionId (.dispatched generation input.nowMs input.currentPolicyGeneration (consumed.map Prod.fst))
  return .ok ⟨actionId, generation, consumed.map Prod.snd⟩

def dispatchCommitted (record : PersistedAction) (bindingGeneration : Nat) (health : PersistHealth)
    (input : DispatchInput) : Tx (Except ActionError DispatchOutcome) := do
  let database ← get
  match database.currentFenceFor record.intent.revocationFence with
  | .error error => throw error
  | .ok currentFence =>
      match evaluateDispatch {
          intent := record.intent
          runtime := record.runtime
          persistHealth := health
          nowMs := input.nowMs
          currentPolicyGeneration := input.currentPolicyGeneration
          currentFence
          currentBindingGeneration := bindingGeneration
          expectedBindingGeneration := input.expectedBindingGeneration } with
      | .error .alreadyDispatching => throw (.dispatch .alreadyDispatching)
      | .error error => do
          invalidateAuthorized record
          return .error (.dispatch error)
      | .ok generation => do
          match ← consumption record currentFence input with
          | .error error => do
              invalidateAuthorized record
              return .error error
          | .ok consumed => commitDispatching record generation input consumed

end Transactions

def maxOpenAttentionPerRun : Nat := 256

def recordRequestCommitted (request : ApprovalRequest) : Tx ApprovalRequest := do
  let database ← get
  let openItems := database.attention.entries.countP fun entry =>
    entry.2.agentRunId = request.agentRunId && (entry.2.state = .open || entry.2.state = .acknowledged)
  if maxOpenAttentionPerRun ≤ openItems then throw (.approval .incompleteBinding)
  else if (database.attention.lookup request.attentionId).isSome ∨
      (database.requests.lookup request.approvalId).isSome then throw (.store .writeFailed)
  else
    set { database with
      attention := database.attention.insert request.attentionId ⟨request.agentRunId, .open⟩
      requests := database.requests.insert request.approvalId request }
    return request

def resolveAttention (attentionId : AttentionId) : Tx Unit := do
  let database ← get
  match database.attention.lookup attentionId with
  | none => throw (.store .corrupt)
  | some item =>
      if item.state = .open ∨ item.state = .acknowledged then
        set { database with attention := database.attention.insert attentionId { item with state := .resolved } }
      else throw (.approval .bindingMismatch)

def insertDecision (decision : ApprovalDecision) : Tx Unit :=
  modify fun database =>
    { database with decisions := database.decisions.insert decision.approvalId decision }

def decideCommitted (input : DecideInput) : Tx ApprovalDecision := do
  let database ← get
  match database.requests.lookup input.approvalId with
  | none => throw (.approval .unknownApproval)
  | some request =>
      if request.actionId ≠ input.actionId ∨ request.agentRunId ≠ input.agentRunId then
        throw (.approval .bindingMismatch)
      else if request.isExpired input.nowUnixMs then throw (.approval .expired)
      else
        match database.decisions.lookup input.approvalId with
        | some existing =>
            if existing.decision = .approved ∧ input.verdict = .approved ∧ existing.consumed = false then
              return existing
            else throw (.approval .alreadyDecided)
        | none => do
            let decision : ApprovalDecision :=
              { approvalId := input.approvalId
                actionId := input.actionId
                agentRunId := input.agentRunId
                decision := input.verdict
                authority := input.authority
                decidedAtUnixMs := input.nowUnixMs
                decisionPolicyGeneration := input.decisionPolicyGeneration
                decisionPrincipalId := input.decisionPrincipalId
                consumed := false }
            insertDecision decision
            resolveAttention request.attentionId
            return decision

/-- `fault` is what the next access to the file fails with, if it does. -/
structure AgentStore where
  database : Database := {}
  persist : PersistFailurePolicy := {}
  clock : Nat := 0
  fault : Option StoreError := none

/-- An operation: sections, up to a result or an error. -/
def Op (α : Type) : Type := Job AgentStore (Except ActionError α)

namespace Op

variable {β : Type}

def bind (op : Op α) (next : α → Op β) : Op β :=
  Job.bind (fun result =>
    match result with
    | .ok value => next value
    | .error error => Job.done (.error error)) op

instance : Monad Op where
  pure value := Job.done (.ok value)
  bind := Op.bind

instance : MonadExceptOf ActionError Op where
  throw error := Job.done (.error error)
  tryCatch op handler := Job.bind (fun result =>
    match result with
    | .ok value => Job.done (.ok value)
    | .error error => handler error) op

def query (read : Database → Except ActionError α) : Op α :=
  Job.locked fun store =>
    match store.fault with
    | some error => (.error (.store error), store)
    | none => (read store.database, store)

def transaction (body : AgentStore → Tx (Except ActionError α)) : Op α :=
  Job.locked fun store =>
    match store.fault with
    | some error => (.error (.store error), store)
    | none =>
        let (result, database) := transact (body store) store.database
        (result, { store with database })

def commit (body : Tx α) : Op α :=
  transaction fun _ => do
    let value ← body
    return .ok value

def health : Op PersistHealth := Job.locked fun store => (.ok store.persist.health, store)

def beginActionWrite : Op Unit :=
  Job.locked fun store =>
    let (refusal, persist) := store.persist.admitWrite store.clock
    (match refusal with
      | some reason => .error (.persistencePaused .paused reason)
      | none => .ok (), { store with persist })

def noteActionWriteOk : Op Unit :=
  Job.locked fun store => (.ok (), { store with persist := store.persist.recordSuccess })

def noteActionWriteFailed : Op Unit :=
  Job.locked fun store => (.ok (), { store with persist := store.persist.recordFailure store.clock })

def noteResult (result : Except ActionError α) : Op α :=
  match result with
  | .ok value => do
      noteActionWriteOk
      return value
  | .error (.store .writeFailed) => do
      noteActionWriteFailed
      throw (.store .writeFailed)
  | .error error => throw error

def noted (write : Op α) : Op α := Job.bind noteResult write

def written (write : Op α) : Op α := do
  beginActionWrite
  noted write

end Op

def ofRecovery (result : Except RecoveryError α) : Except ActionError α :=
  match result with
  | .ok value => .ok value
  | .error error => .error (.recovery error)

def Op.ofExcept (result : Except ActionError α) : Op α := Job.done result

section Operations

variable [IntentDigest]

def Database.intentOf (database : Database) (actionId : ActionId) : Except ActionError (Option ActionIntent) :=
  match database.actions.lookup actionId with
  | none => .ok none
  | some row =>
      if row.intent.digest ≠ row.digest then .error (.store .corrupt)
      else if row.intent.actionId ≠ actionId then .error (.store .corrupt)
      else .ok (some row.intent)

def Database.runtimeOf (database : Database) (actionId : ActionId) : Except ActionError ActionRuntime :=
  match database.actions.lookup actionId with
  | none => .error (.store .corrupt)
  | some row => .ok row.runtime

/-- `get_record(action_id)?.ok_or(Corrupt)?`: the intent, then the rest of its row. -/
def getRecord (actionId : ActionId) : Op PersistedAction := do
  match ← Op.query fun database => database.intentOf actionId with
  | none => throw (.store .corrupt)
  | some intent => do
      let runtime ← Op.query fun database => database.runtimeOf actionId
      return ⟨intent, runtime⟩

def prepareBound (intent : ActionIntent) (expectedBindingGeneration : Option Nat) : Op PrepareOutcome :=
  if intent.lifecycle ≠ .prepared then throw (.intent .invalidField)
  else Op.written (Op.commit (prepareCommitted intent expectedBindingGeneration))

def authorize (actionId : ActionId) (nowMs : Nat) : Op Unit :=
  Op.written do
    let record ← getRecord actionId
    if record.runtime.lifecycle ≠ .prepared then throw .illegalLifecycle
    else if record.intent.expiresAtMs.any fun expiry => expiry ≤ nowMs then throw (.dispatch .expired)
    else if humanApprovalRequired record.intent then do
      let _ ← Op.query fun database => database.findUnconsumedApprovalId record nowMs
      Op.commit (authorizeCommitted record)
    else Op.commit (authorizeCommitted record)

/-- `!allows_new_effect() && health() != Paused`, the health read anew each time. -/
def notMinting : Op Bool := do
  let health ← Op.health
  if health.allowsNewEffect then return false
  else do
    let health ← Op.health
    return decide (health ≠ .paused)

def dispatch (actionId : ActionId) (input : DispatchInput) : Op DispatchOutcome := do
  if ← notMinting then throw (.dispatch .persistHealthNotMinting)
  else Op.written do
    let record ← getRecord actionId
    let bindingGeneration ← Op.query fun database =>
      match database.runs.lookup record.intent.agentRunId with
      | none => .error (.store .corrupt)
      | some bindingGeneration => .ok bindingGeneration
    Op.transaction fun store => dispatchCommitted record bindingGeneration store.persist.health input

def persistDecision (record : PersistedAction) (cause : Cause) (decision : RecoveryDecision)
    (evidence : RecoveryEvidence) : Op RecoveryDecision :=
  Op.written (Op.commit (persistDecisionCommitted record cause decision evidence))

def recoverAction (actionId : ActionId) (boundary : CrashBoundary) (evidence : RecoveryEvidence) :
    Op RecoveryDecision := do
  let record ← getRecord actionId
  if boundary = .beforeIntentPersist then throw .illegalLifecycle
  else
    let decision ← Op.ofExcept (ofRecovery (recover record.intent.actionId record.intent.agentRunId
      record.intent.effectClass record.runtime boundary evidence))
    persistDecision record (.recovered boundary) decision evidence

def reconcileAction (actionId : ActionId) (evidence : RecoveryEvidence) : Op RecoveryDecision := do
  let record ← getRecord actionId
  let decision ← Op.ofExcept (ofRecovery (reconcile record.intent.actionId record.intent.agentRunId
    record.intent.effectClass record.runtime evidence))
  persistDecision record .reconciled decision evidence

def cancel (actionId : ActionId) : Op RecoveryDecision := do
  let record ← getRecord actionId
  persistDecision record .cancelled (linearizeCancel record.runtime) RecoveryEvidence.none

end Operations

/-- `record_request`; `fresh` names the attention item of a request that brings none. -/
def recordRequest (spec : ApprovalRequestSpec) (fresh : AttentionId) : Op ApprovalRequest :=
  match ApprovalRequest.tryBuild { spec with attentionId := some (spec.attentionId.getD fresh) } with
  | .error error => throw (.approval error)
  | .ok request => Op.commit (recordRequestCommitted request)

def decideApproval (input : DecideInput) : Op ApprovalDecision :=
  if input.requireSession ∧ input.clientSession.isNone then throw (.approval .staleSession)
  else
    match if input.requireSession then authorizeDecide input.sessionValid input.hasApprovalDecideScope else .ok () with
    | .error error => throw (.approval error)
    | .ok () => Op.commit (decideCommitted input)

end Seyal.Agent.Action
