import Seyal.Agent.Action.Recovery

namespace Seyal.Agent.Action

/-! Approval requests, the decisions on them, and what a consumption checks again. -/

abbrev ApprovalId := Nat

abbrev AttentionId := Nat

abbrev ClientPrincipalId := Nat

inductive ControlMode where
  | seyalControlled
  | externalObserved
  deriving Repr, DecidableEq

inductive ApprovalVerdict where
  | approved
  | rejected
  deriving Repr, DecidableEq

inductive DecisionAuthority where
  | user
  | policy
  deriving Repr, DecidableEq

inductive ApprovalError where
  | incompleteBinding
  | externalObservedForbidden
  | bindingMismatch
  | expired
  | alreadyConsumed
  | alreadyDecided
  | unknownApproval
  | staleSession
  | missingDecideScope
  | rejectedDoesNotAuthorize
  deriving Repr, DecidableEq

structure ApprovalRequestSpec where
  approvalId : ApprovalId
  actionId : Option ActionId
  actionIntentDigest : Option Digest
  agentRunId : Option AgentRunId
  capability : Option (List UInt8)
  resource : Option ResourceIdentity
  argumentFingerprint : Option Digest
  effectClass : Option EffectClass
  policyGeneration : Option Nat
  revocationFence : Option RevocationFence
  expiresAtUnixMs : Option Nat
  requestedAtUnixMs : Nat
  attentionId : Option AttentionId
  controlMode : ControlMode

/-- What an approval is bound to, and what a dispatch presents to use it. -/
structure ConsumptionWitness where
  actionId : ActionId
  actionIntentDigest : Digest
  agentRunId : AgentRunId
  capability : List UInt8
  resource : ResourceIdentity
  argumentFingerprint : Digest
  effectClass : EffectClass
  policyGeneration : Nat
  revocationFence : RevocationFence
  deriving DecidableEq

structure ApprovalRequest extends ConsumptionWitness where
  approvalId : ApprovalId
  expiresAtUnixMs : Option Nat
  requestedAtUnixMs : Nat
  attentionId : AttentionId
  controlMode : ControlMode
  deriving DecidableEq

def zeroDigest : Digest := List.replicate 32 0

def need {α : Type} (field : Option α) : Except ApprovalError α :=
  match field with
  | some value => .ok value
  | none => .error .incompleteBinding

namespace ApprovalRequest

def tryBuild (spec : ApprovalRequestSpec) : Except ApprovalError ApprovalRequest := do
  if spec.controlMode ≠ .seyalControlled then throw .externalObservedForbidden
  let actionId ← need spec.actionId
  let actionIntentDigest ← need spec.actionIntentDigest
  if actionIntentDigest = zeroDigest then throw .incompleteBinding
  let agentRunId ← need spec.agentRunId
  let capability ← need spec.capability
  let resource ← need spec.resource
  let argumentFingerprint ← need spec.argumentFingerprint
  let effectClass ← need spec.effectClass
  let policyGeneration ← need spec.policyGeneration
  if policyGeneration = 0 then throw .incompleteBinding
  let revocationFence ← need spec.revocationFence
  if revocationFence.members = [] then throw .incompleteBinding
  let attentionId ← need spec.attentionId
  if spec.expiresAtUnixMs.any fun expiry => expiry < spec.requestedAtUnixMs then throw .incompleteBinding
  return {
    actionId, actionIntentDigest, agentRunId, capability, resource, argumentFingerprint, effectClass
    policyGeneration, revocationFence, attentionId
    approvalId := spec.approvalId
    expiresAtUnixMs := spec.expiresAtUnixMs
    requestedAtUnixMs := spec.requestedAtUnixMs
    controlMode := spec.controlMode }

def isExpired (request : ApprovalRequest) (nowUnixMs : Nat) : Bool :=
  request.expiresAtUnixMs.any fun expiry => expiry ≤ nowUnixMs

def matchesWitness (request : ApprovalRequest) (witness : ConsumptionWitness) : Bool :=
  request.toConsumptionWitness = witness

end ApprovalRequest

structure ApprovalDecision where
  approvalId : ApprovalId
  actionId : ActionId
  agentRunId : AgentRunId
  decision : ApprovalVerdict
  authority : DecisionAuthority
  decidedAtUnixMs : Nat
  decisionPolicyGeneration : Nat
  decisionPrincipalId : Option ClientPrincipalId
  consumed : Bool
  deriving Repr, DecidableEq

def ApprovalDecision.isConsumable (decision : ApprovalDecision) (request : ApprovalRequest) (nowUnixMs : Nat) :
    Bool :=
  decision.decision = .approved && !decision.consumed && decision.actionId = request.actionId &&
    decision.agentRunId = request.agentRunId && !request.isExpired nowUnixMs

def ConsumptionWitness.fromLiveIntent [IntentDigest] (intent : ActionIntent) (currentPolicyGeneration : Nat)
    (currentFence : RevocationFence) : ConsumptionWitness where
  actionId := intent.actionId
  actionIntentDigest := intent.digest
  agentRunId := intent.agentRunId
  capability := intent.capability
  resource := intent.resource
  argumentFingerprint := intent.argumentFingerprint
  effectClass := intent.effectClass
  policyGeneration := currentPolicyGeneration
  revocationFence := currentFence

def authorizeDecide (sessionValid hasApprovalDecideScope : Bool) : Except ApprovalError Unit :=
  if !sessionValid then .error .staleSession
  else if !hasApprovalDecideScope then .error .missingDecideScope
  else .ok ()

def evaluateConsume (request : ApprovalRequest) (decision : ApprovalDecision) (witness : ConsumptionWitness)
    (nowUnixMs : Nat) : Except ApprovalError Unit :=
  if decision.approvalId ≠ request.approvalId then .error .bindingMismatch
  else if decision.decision = .rejected then .error .rejectedDoesNotAuthorize
  else if decision.consumed then .error .alreadyConsumed
  else if request.controlMode ≠ .seyalControlled then .error .externalObservedForbidden
  else if request.isExpired nowUnixMs then .error .expired
  else if !request.matchesWitness witness then .error .bindingMismatch
  else if !decision.isConsumable request nowUnixMs then .error .bindingMismatch
  else .ok ()

/-- What may be consumed: an approval, unused and unexpired, of exactly what is presented. -/
structure Consumable (request : ApprovalRequest) (decision : ApprovalDecision) (witness : ConsumptionWitness)
    (nowUnixMs : Nat) : Prop where
  approved : decision.decision = .approved
  unused : decision.consumed = false
  unexpired : request.isExpired nowUnixMs = false
  bound : request.toConsumptionWitness = witness

theorem evaluateConsume_ok {request : ApprovalRequest} {decision : ApprovalDecision}
    {witness : ConsumptionWitness} {nowUnixMs : Nat}
    (passes : evaluateConsume request decision witness nowUnixMs = .ok ()) :
    Consumable request decision witness nowUnixMs := by
  unfold evaluateConsume at passes
  split at passes
  · cases passes
  split at passes
  · cases passes
  split at passes
  · cases passes
  split at passes
  · cases passes
  split at passes
  · cases passes
  split at passes
  · cases passes
  next _ notRejected unused _ unexpired bound =>
    refine ⟨?_, Bool.eq_false_iff.mpr unused, Bool.eq_false_iff.mpr unexpired, ?_⟩
    · cases verdict : decision.decision with
      | approved => rfl
      | rejected => exact absurd verdict notRejected
    · simpa [ApprovalRequest.matchesWitness] using bound

end Seyal.Agent.Action
