import Seyal.Agent.Action.Commits

namespace Seyal.Agent.Action

open Program Run Relation

/-! Runs of the store: any operations of the two authorities, their locked sections
interleaved in any order, with crashes and changes from outside in between. -/

variable {α β : Type}

theorem ofRecovery_ok {result : Except RecoveryError α} {value : α} (ok : ofRecovery result = .ok value) :
    result = .ok value := by
  cases result with
  | error error => cases ok
  | ok found =>
      cases ok
      rfl

section Runs

variable [IntentDigest]

/-- A section changes the Actions, the decisions and the log as one transaction may. -/
def Follows (store after : AgentStore) : Prop := store.database.Commits after.database

instance : Std.Refl Follows := ⟨fun store => .refl store.database⟩

def AgentStore.Sound (store : AgentStore) : Prop := store.database.Sound

open AgentStore

/-- The operation only takes sections that follow. -/
def Op.Obeys (op : Op α) (known : AgentStore → Prop) : Prop :=
  Job.Obeys Follows Sound op known fun _ _ => True

open Op

/-- The operation obeys, and `learnt` holds of a value it ends with and of what it may count on then. -/
def Op.Meets (op : Op α) (known : AgentStore → Prop) (learnt : α → (AgentStore → Prop) → Prop) : Prop :=
  Job.Obeys Follows Sound op known fun result then_ =>
    ∀ value, result = .ok value → learnt value then_

/-- A fact that no section undoes. -/
def Lasting (known : AgentStore → Prop) : Prop :=
  ∀ store after, Follows store after → known store → known after

variable {known : AgentStore → Prop} {actionId : ActionId}

theorem Lasting.later (lasting : Lasting known) {store later : AgentStore} (holds : known store)
    (follows : ReflTransGen Follows store later) : known later := by
  induction follows with
  | refl => exact holds
  | tail _ step before => exact lasting _ _ step before

namespace Op

variable {known : AgentStore → Prop}

variable {op : Op α} {learnt : α → (AgentStore → Prop) → Prop}

theorem Obeys.weaken {weaker : AgentStore → Prop} (obeys : op.Obeys weaker)
    (implies : ∀ store, known store → weaker store) : op.Obeys known :=
  Job.Obeys.of_known obeys implies

theorem meets_pure {value : α} (holds : learnt value known) :
    Meets (pure value : Op α) known learnt := by
  rintro _ ⟨⟩
  exact holds

theorem meets_throw {error : ActionError} :
    Meets (throw error : Op α) known learnt := by
  rintro _ ⟨⟩

theorem meets_bind {next : α → Op β} {goal : β → (AgentStore → Prop) → Prop} (first : op.Meets known learnt)
    (goesOn : ∀ value then_, learnt value then_ → (next value).Meets then_ goal) :
    (op >>= next).Meets known goal := by
  refine (Job.obeys_bind op _).mpr (Job.Obeys.mono first fun result then_ holds => ?_)
  cases result with
  | error error => exact meets_throw
  | ok value => exact goesOn value then_ (holds value rfl)

theorem obeys_bind {next : α → Op β} (first : op.Meets known learnt)
    (goesOn : ∀ value then_, learnt value then_ → (next value).Obeys then_) :
    (op >>= next).Obeys known := by
  refine (Job.obeys_bind op _).mpr (Job.Obeys.mono first fun result then_ holds => ?_)
  cases result with
  | error error => trivial
  | ok value => exact goesOn value then_ (holds value rfl)

theorem meets_query {read : Database → Except ActionError α} :
    (query read).Meets known fun value then_ =>
      ∃ store, store.Sound ∧ known store ∧ read store.database = .ok value ∧
        then_ = ReflTransGen Follows store := by
  refine (Job.obeys_locked _).mpr fun store sound holds => ?_
  split
  next =>
      refine ⟨.refl store.database, ?_⟩
      rintro _ ⟨⟩
  next => exact ⟨.refl store.database, fun value result => ⟨store, sound, holds, result, rfl⟩⟩

theorem meets_health : health.Meets known fun _ _ => True :=
  (Job.obeys_locked _).mpr fun store _ _ => ⟨.refl store.database, fun _ _ => trivial⟩

theorem obeys_transaction {body : AgentStore → Tx (Except ActionError α)}
    (commits : ∀ store, store.Sound → known store →
      wp (body store) (fun _ after => store.database.Commits after) (fun _ _ => True) store.database) :
    (transaction body).Obeys known := by
  refine (Job.obeys_locked _).mpr fun store sound holds => ?_
  split
  next => exact ⟨.refl store.database, trivial⟩
  next => exact ⟨transact_commits (commits store sound holds), trivial⟩

theorem obeys_commit {body : Tx α}
    (commits : ∀ store, store.Sound → known store →
      wp body (fun _ after => store.database.Commits after) (fun _ _ => True) store.database) :
    (commit body).Obeys known := by
  refine obeys_transaction fun store sound holds => ?_
  rw [wp_bind]
  exact commits store sound holds

theorem obeys_noteResult (result : Except ActionError α) : (noteResult result).Obeys known := by
  unfold noteResult
  split
  next => exact fun store _ _ => ⟨.still rfl rfl rfl, trivial⟩
  next => exact fun store _ _ => ⟨.still rfl rfl rfl, trivial⟩
  next => trivial

theorem obeys_noted {write : Op α} (obeys : write.Obeys known) : (noted write).Obeys known :=
  (Job.obeys_bind write noteResult).mpr (Job.Obeys.mono obeys fun result _ _ => obeys_noteResult result)

theorem obeys_written {write : Op α} (obeys : write.Obeys fun _ => True) : (written write).Obeys known := by
  intro store _ _
  refine ⟨.still rfl rfl rfl, ?_⟩
  dsimp only
  split
  next => trivial
  next => exact (obeys_noted obeys).weaken fun _ _ => trivial

end Op

theorem lasting_recorded (record : PersistedAction) : Lasting fun store => Recorded record store.database :=
  fun _ _ follows recorded => recorded.commits follows

theorem intentOf_ok {database : Database} {intent : ActionIntent}
    (read : database.intentOf actionId = .ok (some intent)) :
    intent.actionId = actionId ∧ ∃ row, database.actions.lookup actionId = some row ∧ row.intent = intent := by
  unfold Database.intentOf at read
  split at read
  · cases read
  next row present =>
    split_ifs at read with _ other
    cases read
    exact ⟨Decidable.not_not.mp other, row, present, rfl⟩

theorem runtimeOf_ok {database : Database} {runtime : ActionRuntime} (sound : database.Sound)
    (read : database.runtimeOf actionId = .ok runtime) : runtime.phase.Sound := by
  unfold Database.runtimeOf at read
  split at read
  · cases read
  next row present =>
    cases read
    exact sound.phase present

theorem getRecord_meets :
    (getRecord actionId).Meets known fun record then_ => record.runtime.phase.Sound ∧
      ∀ store, then_ store → Recorded record store.database := by
  refine meets_bind meets_query ?_
  rintro found _ ⟨store, sound, _, read, rfl⟩
  cases found with
  | none => exact meets_throw
  | some intent =>
      obtain ⟨keyed, row, present, same⟩ := intentOf_ok read
      refine meets_bind meets_query ?_
      rintro runtime _ ⟨later, laterSound, reached, runtimeRead, rfl⟩
      refine meets_pure ⟨runtimeOf_ok laterSound runtimeRead, fun last onward => ?_⟩
      have recorded : Recorded ⟨intent, runtime⟩ store.database := ⟨row, by rw [keyed]; exact present, same⟩
      exact (lasting_recorded _).later recorded (reached.trans onward)

section Operations

variable {known : AgentStore → Prop} {record : PersistedAction} {actionId : ActionId}

theorem obeys_prepareBound (intent : ActionIntent) (expected : Option Nat) :
    (prepareBound intent expected).Obeys known := by
  unfold prepareBound
  split
  next => trivial
  next => exact obeys_written (obeys_commit fun store _ _ => prepareCommitted_commits intent expected)

theorem obeys_authorize (nowMs : Nat) : (authorize actionId nowMs).Obeys known := by
  have committed : ∀ record then_, (commit (authorizeCommitted record)).Obeys then_ :=
    fun record then_ => obeys_commit fun store sound _ => authorizeCommitted_commits sound
  refine obeys_written (obeys_bind getRecord_meets fun record then_ _ => ?_)
  split
  next => trivial
  next =>
    split
    next => trivial
    next =>
      split
      next => exact obeys_bind meets_query fun _ then_ _ => committed record then_
      next => exact committed record then_

theorem meets_notMinting : notMinting.Meets known fun _ _ => True := by
  refine meets_bind meets_health fun health _ _ => ?_
  split
  next => exact meets_pure trivial
  next => exact meets_bind meets_health fun _ _ _ => meets_pure trivial

theorem obeys_dispatch (input : DispatchInput) : (dispatch actionId input).Obeys known := by
  refine obeys_bind meets_notMinting fun degraded _ _ => ?_
  split
  next => trivial
  next =>
    refine obeys_written (obeys_bind getRecord_meets ?_)
    rintro record then_ ⟨read, recorded⟩
    refine obeys_bind meets_query ?_
    rintro bindingGeneration _ ⟨store, sound, there, _, rfl⟩
    refine obeys_transaction fun later laterSound onward => ?_
    have still := (lasting_recorded record).later (recorded store there) onward
    exact dispatchCommitted_commits laterSound still read

theorem obeys_persistDecision {cause : Cause} {decision : RecoveryDecision} {evidence : RecoveryEvidence}
    (step : Phase.Step record.runtime.phase
      (.decided cause evidence record.runtime.lifecycle decision.runtime.lifecycle) decision.runtime.phase)
    : (persistDecision record cause decision evidence).Obeys known :=
  obeys_written (obeys_commit fun _ _ _ => persistDecisionCommitted_commits step)

theorem meets_ofExcept {result : Except ActionError α} :
    (ofExcept result).Meets known fun value _ => result = .ok value :=
  fun _ same => same

theorem obeys_recoverAction (boundary : CrashBoundary) {evidence : RecoveryEvidence} :
    (recoverAction actionId boundary evidence).Obeys known := by
  refine obeys_bind getRecord_meets ?_
  rintro record then_ ⟨read, _⟩
  split
  next => trivial
  next =>
    exact obeys_bind meets_ofExcept fun decision _ decided =>
      obeys_persistDecision (recover_step read (ofRecovery_ok decided))

theorem obeys_reconcileAction {evidence : RecoveryEvidence} :
    (reconcileAction actionId evidence).Obeys known := by
  refine obeys_bind getRecord_meets ?_
  rintro record then_ ⟨read, _⟩
  exact obeys_bind meets_ofExcept fun decision _ decided =>
    obeys_persistDecision (reconcile_step (ofRecovery_ok decided))

theorem obeys_cancel : (cancel actionId).Obeys known := by
  refine obeys_bind getRecord_meets ?_
  rintro record then_ ⟨read, _⟩
  exact obeys_persistDecision (linearizeCancel_step read)

theorem obeys_recordRequest (spec : ApprovalRequestSpec) (fresh : AttentionId) :
    (recordRequest spec fresh).Obeys known := by
  unfold recordRequest
  split
  next => trivial
  next request _ => exact obeys_commit fun _ _ _ => recordRequestCommitted_commits request

theorem obeys_decideApproval (input : DecideInput) : (decideApproval input).Obeys known := by
  unfold decideApproval
  split
  next => trivial
  next =>
    split
    next => trivial
    next => exact obeys_commit fun _ _ _ => decideCommitted_commits input

end Operations

inductive Operation where
  | prepare (intent : ActionIntent) (expectedBindingGeneration : Option Nat)
  | authorize (actionId : ActionId) (nowMs : Nat)
  | dispatch (actionId : ActionId) (input : DispatchInput)
  | recover (actionId : ActionId) (boundary : CrashBoundary) (evidence : RecoveryEvidence)
  | reconcile (actionId : ActionId) (evidence : RecoveryEvidence)
  | cancel (actionId : ActionId)
  | request (spec : ApprovalRequestSpec) (fresh : AttentionId)
  | decide (input : DecideInput)

def Op.settled (op : Op α) : Job AgentStore (Except ActionError Unit) :=
  Job.bind (fun result => Job.done (result.map fun _ => ())) op

def Operation.job : Operation → Job AgentStore (Except ActionError Unit)
  | .prepare intent expectedBindingGeneration => (prepareBound intent expectedBindingGeneration).settled
  | .authorize actionId nowMs => (Action.authorize actionId nowMs).settled
  | .dispatch actionId input => (Action.dispatch actionId input).settled
  | .recover actionId boundary evidence => (recoverAction actionId boundary evidence).settled
  | .reconcile actionId evidence => (reconcileAction actionId evidence).settled
  | .cancel actionId => (Action.cancel actionId).settled
  | .request spec fresh => (recordRequest spec fresh).settled
  | .decide input => (decideApproval input).settled

theorem Op.Obeys.settled {op : Op α} (obeys : op.Obeys known) :
    op.settled.Obeys Follows Sound known fun _ _ => True :=
  (Job.obeys_bind op _).mpr (Job.Obeys.mono obeys fun _ _ _ => trivial)

theorem Operation.obeys {operation : Operation} :
    operation.job.Obeys Follows Sound known fun _ _ => True := by
  cases operation with
  | prepare intent expected => exact (obeys_prepareBound intent expected).settled
  | authorize actionId nowMs => exact (obeys_authorize nowMs).settled
  | dispatch actionId input => exact (obeys_dispatch input).settled
  | recover actionId boundary evidence => exact (obeys_recoverAction boundary).settled
  | reconcile actionId evidence => exact obeys_reconcileAction.settled
  | cancel actionId => exact obeys_cancel.settled
  | request spec fresh => exact (obeys_recordRequest spec fresh).settled
  | decide input => exact (obeys_decideApproval input).settled

structure AgentStore.Fresh (store : AgentStore) : Prop where
  actions : store.database.actions = ∅
  decisions : store.database.decisions = ∅
  log : store.database.log = []

/-- What others do to the store: the clock, faults, runs, attention items, revocations. -/
structure Outside (store after : AgentStore) : Prop where
  actions : after.database.actions = store.database.actions
  requests : after.database.requests = store.database.requests
  decisions : after.database.decisions = store.database.decisions
  log : after.database.log = store.database.log

abbrev AgentPool := Pool AgentStore (Except ActionError Unit)

/-- A run may begin any operation. -/
def Offers (job : Job AgentStore (Except ActionError Unit)) : Prop :=
  ∃ operation : Operation, operation.job = job

abbrev AgentPool.Step : AgentPool → AgentPool → Prop :=
  Pool.Step Offers Outside

abbrev AgentPool.Reached (initial : AgentStore) (pool : AgentPool) : Prop :=
  Pool.Reached Offers Outside initial pool

section Reached

variable {initial : AgentStore} {pool after : AgentPool}

theorem Offers.obeys {job : Job AgentStore (Except ActionError Unit)}
    (offers : Offers job) :
    job.Obeys Follows Sound (fun _ => True) fun _ _ => True := by
  obtain ⟨operation, rfl⟩ := offers
  exact operation.obeys

theorem Outside.follows {store next : AgentStore} (outside : Outside store next) : Follows store next :=
  .still outside.actions outside.decisions outside.log

theorem Follows.sound {store next : AgentStore} (follows : Follows store next) (sound : store.Sound) :
    next.Sound :=
  Database.Commits.sound follows sound

theorem AgentStore.Fresh.sound (fresh : initial.Fresh) : initial.Sound := by
  have empty : ∀ actionId, initial.database.eventsOf actionId = [] := fun actionId => by
    simp [Database.eventsOf, fresh.log]
  have unused : initial.database.usedApprovals = [] := by simp [Database.usedApprovals, fresh.log]
  refine ⟨?_, ?_, fun actionId _ => empty actionId, ?_, ?_⟩
  · intro actionId row present
    simp [fresh.actions] at present
  · intro actionId row present
    simp [fresh.actions] at present
  · intro approvalId
    simp [unused, fresh.decisions]
  · rw [unused]
    exact List.nodup_nil

variable (fresh : initial.Fresh)
  (reached : AgentPool.Reached initial pool)
include fresh reached

theorem AgentPool.Reached.obedient : Pool.Obedient Follows Sound pool :=
  Pool.Reached.obedient (fun _ offers => offers.obeys) (fun _ _ outside => outside.follows)
    (fun _ _ follows => follows.sound) fresh.sound reached

theorem AgentPool.Reached.sound : pool.shared.database.Sound :=
  (AgentPool.Reached.obedient fresh reached).state

theorem AgentPool.Reached.follows (step : AgentPool.Step pool after) :
    Follows pool.shared after.shared :=
  (Pool.Obedient.step (fun _ offers => offers.obeys) (fun _ _ outside => outside.follows)
    (fun _ _ follows => follows.sound) (AgentPool.Reached.obedient fresh reached) step).1

end Reached

def perform (operations : List Operation) (store : AgentStore) : AgentStore :=
  operations.foldl (fun store operation => (operation.job.finish store).2) store

theorem AgentPool.Reached.perform {initial store : AgentStore} {operations : List Operation}
    (reached : AgentPool.Reached initial ⟨store, []⟩) :
    AgentPool.Reached initial ⟨Action.perform operations store, []⟩ := by
  induction operations generalizing store with
  | nil => exact reached
  | cons operation operations follows =>
      have first := Pool.Reached.finish reached ⟨operation, rfl⟩
      exact follows first

end Runs

namespace Sample

@[reducible] def digest : IntentDigest := ⟨fun intent => [UInt8.ofNat intent.actionId]⟩

def fence : RevocationFence := ⟨[⟨⟨.workspace, 1⟩, 1⟩], ⟨by decide, List.pairwise_singleton _ _⟩⟩

def store : AgentStore := { database := { runs := AList.singleton 2 1 } }

def intent (authorizationClass : AuthorizationClass) : ActionIntent where
  actionId := 7
  agentRunId := 2
  capability := [1]
  resource := ⟨[1], 1, 1, [1]⟩
  argumentFingerprint := [1]
  effectClass := .idempotentExternal
  policyGeneration := 1
  privacyDependency := 0
  revocationFence := fence
  provenance := .agentBackend
  authorizationClass
  createdAtMs := 0
  expiresAtMs := none
  executor := none
  lifecycle := .prepared

def input : DispatchInput := ⟨5, 1, 1⟩

def contract : RecoveryEvidence := ⟨.validatedIdempotencyContract, some 1, none, true⟩

theorem fresh : store.Fresh := ⟨rfl, rfl, rfl⟩

end Sample

end Seyal.Agent.Action
