import Seyal.Agent.Scope
import Seyal.Program.Table
import Seyal.Terminal.Types

namespace Seyal.Agent.Action

open Terminal (saturatingAdd)

/-! Action intents, the facts kept beside them, and what recovery, cancellation
and dispatch decide from those. -/

abbrev ActionId := Nat

abbrev AgentRunId := Nat

structure ResourceIdentity where
  resourceType : List UInt8
  canonicalId : Nat
  scope : Nat
  versionOrFingerprint : Digest
  deriving Repr, DecidableEq

inductive EffectClass where
  | pure
  | filesystemIsolated
  | idempotentExternal
  | nonIdempotentExternal
  | nonReplayable
  deriving Repr, DecidableEq

inductive AuthorizationClass where
  | policy
  | humanApproval
  deriving Repr, DecidableEq

inductive RequestProvenance where
  | agentBackend
  | harness
  | client
  deriving Repr, DecidableEq

structure ExecutorCapabilityRef where
  identity : Nat
  version : Nat
  deriving Repr, DecidableEq

inductive ActionLifecycle where
  | prepared
  | authorized
  | dispatching
  | succeeded
  | failedKnown
  | effectUnknown
  | cancelledBeforeDispatch
  | cancelledAfterDispatch
  deriving Repr, DecidableEq

def ActionLifecycle.isKnownTerminal : ActionLifecycle → Bool
  | .succeeded | .failedKnown | .cancelledBeforeDispatch => true
  | _ => false

structure ActionIntent where
  actionId : ActionId
  agentRunId : AgentRunId
  capability : List UInt8
  resource : ResourceIdentity
  argumentFingerprint : Digest
  effectClass : EffectClass
  policyGeneration : Nat
  privacyDependency : Nat
  revocationFence : RevocationFence
  provenance : RequestProvenance
  authorizationClass : AuthorizationClass
  createdAtMs : Nat
  expiresAtMs : Option Nat
  executor : Option ExecutorCapabilityRef
  lifecycle : ActionLifecycle
  deriving DecidableEq

/-- SHA-256 of the canonical bytes of an intent. -/
class IntentDigest where
  digest : ActionIntent → Digest

def ActionIntent.digest [IntentDigest] (intent : ActionIntent) : Digest := IntentDigest.digest intent

inductive CrashBoundary where
  | beforeIntentPersist
  | afterPrepared
  | authorizedBeforeDispatchCommit
  | dispatchingBeforeInvocation
  | duringExecutor
  | afterEffectBeforeResultPersist
  | afterResultPersist
  deriving Repr, DecidableEq

inductive CausalMarkerKind where
  | operationId
  | casWitness
  | transactionId
  | privacyNoInvocation
  deriving Repr, DecidableEq

structure CausalMarker where
  kind : CausalMarkerKind
  bytes : Nat
  deriving Repr, DecidableEq

inductive EvidenceKind where
  | none
  | knownNotDispatched
  | causalSuccess
  | causalFailedKnown
  | observedStateNoCausalMarker
  | untrustedNarration
  | untrustedIdempotencyClaim
  | validatedIdempotencyContract
  | operatorAckWithoutCausalEvidence
  deriving Repr, DecidableEq

def EvidenceKind.isAuthoritative : EvidenceKind → Bool
  | .knownNotDispatched | .causalSuccess | .causalFailedKnown | .validatedIdempotencyContract => true
  | _ => false

structure RecoveryEvidence where
  kind : EvidenceKind
  dispatchGeneration : Option Nat
  causal : Option CausalMarker
  executorAuthenticated : Bool
  deriving Repr, DecidableEq

namespace RecoveryEvidence

def none : RecoveryEvidence := ⟨.none, .none, .none, false⟩

def knownNotDispatched (dispatchGeneration : Nat) : RecoveryEvidence :=
  ⟨.knownNotDispatched, some dispatchGeneration, some ⟨.privacyNoInvocation, 0⟩, true⟩

def causalSuccess (dispatchGeneration : Nat) (marker : CausalMarker) : RecoveryEvidence :=
  ⟨.causalSuccess, some dispatchGeneration, some marker, true⟩

end RecoveryEvidence

def defaultAutomaticReconciliationBudget : Nat := 3

structure ActionRuntime where
  lifecycle : ActionLifecycle
  dispatchGeneration : Option Nat
  authorizationInvalidated : Bool
  cancelRequested : Bool
  reconciliationAttempts : Nat
  automaticBudget : Nat
  deriving Repr, DecidableEq

structure ReconciliationRequiredHook where
  actionId : ActionId
  agentRunId : AgentRunId
  deriving Repr, DecidableEq

structure RecoveryDecision where
  runtime : ActionRuntime
  mayRetryEffect : Bool := false
  mayQueryStatus : Bool := false
  mayReconsiderIntent : Bool := false
  claimsRollback : Bool := false
  freshAuthorizationRequired : Bool := false
  automaticRescheduleStopped : Bool := false
  attention : Option ReconciliationRequiredHook := none
  deriving Repr, DecidableEq

inductive RecoveryError where
  | staleDispatchGeneration
  | missingCausalMarker
  | unauthenticatedAuthoritativeClaim
  | illegalCrashBoundary
  | illegalReconcile
  deriving Repr, DecidableEq

def terminalDecision (runtime : ActionRuntime) (claimsRollback : Bool) : RecoveryDecision :=
  { runtime, claimsRollback, automaticRescheduleStopped := true }

def stayCancelledAfterDispatch (runtime : ActionRuntime) : RecoveryDecision :=
  { runtime := { runtime with lifecycle := .cancelledAfterDispatch }
    mayQueryStatus := true
    automaticRescheduleStopped := true }

/-- The checks on a claim that would settle something. -/
def admitEvidence (runtime : ActionRuntime) (evidence : RecoveryEvidence) : Except RecoveryError Unit :=
  if evidence.kind.isAuthoritative then
    if !evidence.executorAuthenticated then .error .unauthenticatedAuthoritativeClaim
    else if evidence.dispatchGeneration.isSome ∧ runtime.dispatchGeneration.isSome ∧
        runtime.dispatchGeneration ≠ evidence.dispatchGeneration then .error .staleDispatchGeneration
    else if (evidence.kind = .causalSuccess ∨ evidence.kind = .causalFailedKnown) ∧ evidence.causal.isNone then
      .error .missingCausalMarker
    else .ok ()
  else .ok ()

def unresolved (runtime : ActionRuntime) : ActionRuntime :=
  let lifecycle :=
    if runtime.lifecycle = .cancelledAfterDispatch then .cancelledAfterDispatch
    else if runtime.lifecycle ≠ .succeeded ∧ runtime.lifecycle ≠ .failedKnown then .effectUnknown
    else runtime.lifecycle
  if lifecycle = .effectUnknown ∨ lifecycle = .cancelledAfterDispatch then
    { runtime with lifecycle, reconciliationAttempts := saturatingAdd 32 runtime.reconciliationAttempts 1 }
  else { runtime with lifecycle }

/-- `recover_after_dispatch` once the evidence is admitted: the next runtime, and
whether its status may be queried and a fresh authorization is required. -/
def settle (effectClass : EffectClass) (runtime : ActionRuntime) (evidence : RecoveryEvidence) :
    Except RecoveryError (ActionRuntime × Bool × Bool) :=
  let dispatched := runtime.lifecycle = .dispatching ∨ runtime.lifecycle = .effectUnknown
  match evidence.kind with
  | .knownNotDispatched =>
      if ¬ dispatched then .error .illegalReconcile
      else if runtime.dispatchGeneration.isNone ∨ evidence.dispatchGeneration.isNone ∨
          runtime.dispatchGeneration ≠ evidence.dispatchGeneration then .error .staleDispatchGeneration
      else .ok ({ runtime with
        lifecycle := .prepared, dispatchGeneration := none, authorizationInvalidated := true }, false, true)
  | .causalSuccess => .ok ({ runtime with lifecycle := .succeeded }, false, false)
  | .causalFailedKnown => .ok ({ runtime with lifecycle := .failedKnown }, false, false)
  | .validatedIdempotencyContract =>
      if effectClass = .idempotentExternal ∧ dispatched then
        .ok ({ runtime with lifecycle := .dispatching }, true, false)
      else .ok (unresolved runtime, false, false)
  | .none | .observedStateNoCausalMarker | .untrustedNarration | .untrustedIdempotencyClaim
  | .operatorAckWithoutCausalEvidence => .ok (unresolved runtime, false, false)

def recoverAfterDispatch (actionId : ActionId) (agentRunId : AgentRunId) (effectClass : EffectClass)
    (runtime : ActionRuntime) (evidence : RecoveryEvidence) : Except RecoveryError RecoveryDecision := do
  admitEvidence runtime evidence
  if runtime.lifecycle = .cancelledBeforeDispatch then return terminalDecision runtime false
  let (next, mayQueryStatus, freshAuthorizationRequired) ← settle effectClass runtime evidence
  let unknown := next.lifecycle = .effectUnknown ∨ next.lifecycle = .cancelledAfterDispatch
  return {
    runtime := next
    mayQueryStatus
    freshAuthorizationRequired
    automaticRescheduleStopped := unknown ∧ next.reconciliationAttempts ≥ next.automaticBudget
    attention := if unknown then some ⟨actionId, agentRunId⟩ else none }

def recover (actionId : ActionId) (agentRunId : AgentRunId) (effectClass : EffectClass)
    (runtime : ActionRuntime) (boundary : CrashBoundary) (evidence : RecoveryEvidence) :
    Except RecoveryError RecoveryDecision :=
  if runtime.lifecycle.isKnownTerminal ∧ runtime.lifecycle ≠ .cancelledBeforeDispatch then
    .ok (terminalDecision runtime false)
  else
    match boundary with
    | .beforeIntentPersist =>
        if runtime.lifecycle = .prepared ∧ runtime.dispatchGeneration.isNone then
          .ok { runtime, automaticRescheduleStopped := true }
        else .error .illegalCrashBoundary
    | .afterPrepared =>
        match runtime.lifecycle with
        | .prepared => .ok { runtime, mayReconsiderIntent := true }
        | .authorized => .ok { runtime }
        | .dispatching | .effectUnknown =>
            recoverAfterDispatch actionId agentRunId effectClass runtime RecoveryEvidence.none
        | .cancelledAfterDispatch => .ok (stayCancelledAfterDispatch runtime)
        | _ => .error .illegalCrashBoundary
    | .authorizedBeforeDispatchCommit =>
        match runtime.lifecycle with
        | .authorized =>
            .ok {
              runtime := { runtime with
                lifecycle := .prepared, authorizationInvalidated := true, dispatchGeneration := none }
              mayReconsiderIntent := true
              freshAuthorizationRequired := true }
        | .dispatching | .effectUnknown =>
            recoverAfterDispatch actionId agentRunId effectClass runtime RecoveryEvidence.none
        | .cancelledAfterDispatch => .ok (stayCancelledAfterDispatch runtime)
        | _ => .error .illegalCrashBoundary
    | .dispatchingBeforeInvocation | .duringExecutor | .afterEffectBeforeResultPersist | .afterResultPersist =>
        match runtime.lifecycle with
        | .dispatching | .effectUnknown | .cancelledAfterDispatch =>
            recoverAfterDispatch actionId agentRunId effectClass runtime evidence
        | _ => .error .illegalCrashBoundary

def reconcile (actionId : ActionId) (agentRunId : AgentRunId) (effectClass : EffectClass)
    (runtime : ActionRuntime) (evidence : RecoveryEvidence) : Except RecoveryError RecoveryDecision :=
  match runtime.lifecycle with
  | .dispatching | .effectUnknown | .cancelledAfterDispatch =>
      recoverAfterDispatch actionId agentRunId effectClass runtime evidence
  | _ => .error .illegalReconcile

def linearizeCancel (runtime : ActionRuntime) : RecoveryDecision :=
  match runtime.lifecycle with
  | .prepared | .authorized =>
      { runtime := { runtime with
          cancelRequested := true, lifecycle := .cancelledBeforeDispatch, dispatchGeneration := none }
        automaticRescheduleStopped := true }
  | .dispatching | .effectUnknown | .cancelledAfterDispatch =>
      { runtime := { runtime with cancelRequested := true, lifecycle := .cancelledAfterDispatch }
        mayQueryStatus := true
        automaticRescheduleStopped := true }
  | .succeeded | .failedKnown | .cancelledBeforeDispatch => terminalDecision runtime false

/-! Whether writes go through, and whether they may begin an effect. -/

inductive PersistHealth where
  | healthy
  | degraded
  | paused
  deriving Repr, DecidableEq

def PersistHealth.allowsNewEffect (health : PersistHealth) : Bool := health = .healthy

inductive PersistPauseReason where
  | consecutiveFailureBudgetExhausted
  | retryDeadlineExceeded
  deriving Repr, DecidableEq

structure PersistFailurePolicy where
  consecutiveFailures : Nat := 0
  budget : Nat := 3
  firstFailureAtMs : Option Nat := none
  deadlineMs : Nat := 30000
  health : PersistHealth := .healthy
  pauseReason : Option PersistPauseReason := none
  deriving Repr, DecidableEq

namespace PersistFailurePolicy

def deadlineElapsed (policy : PersistFailurePolicy) (nowMs : Nat) : Bool :=
  policy.firstFailureAtMs.any fun first => policy.deadlineMs ≤ nowMs - first

def pause (policy : PersistFailurePolicy) (reason : PersistPauseReason) : PersistFailurePolicy :=
  { policy with health := .paused, pauseReason := some reason }

/-- `admit`; the reason is there when the write is refused. -/
def admitWrite (policy : PersistFailurePolicy) (nowMs : Nat) : Option PersistPauseReason × PersistFailurePolicy :=
  if policy.health = .paused then
    (some (policy.pauseReason.getD .consecutiveFailureBudgetExhausted), policy)
  else if policy.deadlineElapsed nowMs then
    (some .retryDeadlineExceeded, policy.pause .retryDeadlineExceeded)
  else (none, policy)

def recordFailure (policy : PersistFailurePolicy) (nowMs : Nat) : PersistFailurePolicy :=
  if policy.health = .paused then policy
  else
    let failed := { policy with
      firstFailureAtMs := some (policy.firstFailureAtMs.getD nowMs)
      consecutiveFailures := saturatingAdd 32 policy.consecutiveFailures 1 }
    if failed.deadlineElapsed nowMs then failed.pause .retryDeadlineExceeded
    else if failed.consecutiveFailures ≥ failed.budget then failed.pause .consecutiveFailureBudgetExhausted
    else { failed with health := .degraded }

def fresh (policy : PersistFailurePolicy) : PersistFailurePolicy :=
  { budget := max policy.budget 1, deadlineMs := policy.deadlineMs }

def recordSuccess (policy : PersistFailurePolicy) : PersistFailurePolicy :=
  if policy.health = .paused then policy else policy.fresh

end PersistFailurePolicy

inductive DispatchError where
  | notAuthorized
  | alreadyDispatching
  | cancelled
  | persistHealthNotMinting
  | expired
  | staleFence
  | stalePolicy
  | staleBinding
  | incompleteFence
  | approvalRequired
  deriving Repr, DecidableEq

structure DispatchEval where
  intent : ActionIntent
  runtime : ActionRuntime
  persistHealth : PersistHealth
  nowMs : Nat
  currentPolicyGeneration : Nat
  currentFence : RevocationFence
  currentBindingGeneration : Nat
  expectedBindingGeneration : Nat

def nextDispatchGeneration (runtime : ActionRuntime) : Nat :=
  saturatingAdd 64 (runtime.dispatchGeneration.getD 0) 1

def evaluateDispatch (eval : DispatchEval) : Except DispatchError Nat :=
  if eval.persistHealth ≠ .healthy ∨ !eval.persistHealth.allowsNewEffect then .error .persistHealthNotMinting
  else if eval.runtime.lifecycle = .dispatching then .error .alreadyDispatching
  else if eval.runtime.lifecycle ≠ .authorized then .error .notAuthorized
  else if eval.runtime.cancelRequested then .error .cancelled
  else if eval.runtime.authorizationInvalidated then .error .notAuthorized
  else if eval.intent.expiresAtMs.any fun expiry => expiry ≤ eval.nowMs then .error .expired
  else if eval.currentFence.members = [] then .error .incompleteFence
  else if eval.currentFence ≠ eval.intent.revocationFence then .error .staleFence
  else if eval.currentPolicyGeneration ≠ eval.intent.policyGeneration then .error .stalePolicy
  else if eval.currentBindingGeneration ≠ eval.expectedBindingGeneration then .error .staleBinding
  else .ok (nextDispatchGeneration eval.runtime)

def humanApprovalRequired (intent : ActionIntent) : Bool := intent.authorizationClass = .humanApproval

end Seyal.Agent.Action
