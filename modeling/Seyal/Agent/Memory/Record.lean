import Seyal.Agent.Scope
import Seyal.Program.Table
import Seyal.Terminal.Types

namespace Seyal.Agent.Memory

open Terminal (encodeUtf8)

/-! Memory records, the policy they are kept under, and the moves of their lifecycle. -/

abbrev MemoryId := Nat

inductive MemoryKind where
  | decision
  | engineeringFact
  | failurePattern
  | procedure
  | environmentFact
  | userPreference
  | heuristic
  deriving Repr, DecidableEq

inductive AuthorityClass where
  | a2TypedObservation
  | a3SourceClaim
  | a4DerivedOrHeuristic
  deriving Repr, DecidableEq

inductive Sensitivity where
  | «public»
  | internal
  | sensitive
  | restricted
  deriving Repr, DecidableEq

inductive MemoryState where
  | proposed
  | accepted
  | superseded
  | revoked
  | expired
  deriving Repr, DecidableEq

inductive MemoryMode where
  | disabled
  | readOnly
  | curated
  | assisted
  deriving Repr, DecidableEq

namespace MemoryMode

def code : MemoryMode → Nat
  | .disabled => 0
  | .readOnly => 1
  | .curated => 2
  | .assisted => 3

def min (first second : MemoryMode) : MemoryMode := if first.code ≤ second.code then first else second

def compose : List MemoryMode → MemoryMode
  | [] => .disabled
  | mode :: modes => modes.foldl min mode

def allowsOrdinaryWrite : MemoryMode → Bool
  | .curated | .assisted => true
  | _ => false

end MemoryMode

inductive TransitionReason where
  | accept
  | qualityReject
  | forget
  | doNotRemember
  | proposalTtl
  | expiry
  | supersede
  | revalidateRefresh
  | privacyRevocation
  | integrityQuarantine
  deriving Repr, DecidableEq

def TransitionReason.isForgetOrPrivacy : TransitionReason → Bool
  | .forget | .doNotRemember | .privacyRevocation => true
  | _ => false

inductive TransitionError where
  | unsupportedEdge
  | qualityRejectNotRevocation
  | missingForgetReason
  deriving Repr, DecidableEq

def allowedTransition (before after : MemoryState) (reason : TransitionReason) : Except TransitionError Unit :=
  match before, after with
  | .proposed, .accepted => if reason = .accept then .ok () else .error .unsupportedEdge
  | .proposed, .revoked =>
      if reason.isForgetOrPrivacy then .ok ()
      else if reason = .qualityReject then .error .qualityRejectNotRevocation
      else .error .missingForgetReason
  | .proposed, .expired =>
      if reason = .proposalTtl ∨ reason = .expiry then .ok () else .error .unsupportedEdge
  | .accepted, .accepted =>
      if reason = .revalidateRefresh ∨ reason = .accept then .ok () else .error .unsupportedEdge
  | .accepted, .superseded => if reason = .supersede then .ok () else .error .unsupportedEdge
  | .accepted, .revoked | .superseded, .revoked | .expired, .revoked =>
      if reason.isForgetOrPrivacy then .ok () else .error .missingForgetReason
  | .accepted, .expired =>
      if reason = .expiry ∨ reason = .integrityQuarantine then .ok () else .error .unsupportedEdge
  | _, _ => .error .unsupportedEdge

def isSafetyMaintenance (after : MemoryState) (reason : TransitionReason) : Bool :=
  match after, reason with
  | .expired, .expiry | .expired, .proposalTtl | .expired, .integrityQuarantine => true
  | .revoked, .forget | .revoked, .doNotRemember | .revoked, .privacyRevocation => true
  | _, _ => false

theorem allowedTransition_revoked (after : MemoryState) (reason : TransitionReason) :
    allowedTransition .revoked after reason = .error .unsupportedEdge := by
  cases after <;> rfl

structure PolicyScopeMember where
  scope : ScopeIdentity
  policyGeneration : Nat
  revocationGeneration : Nat
  mode : MemoryMode
  deriving Repr, DecidableEq

structure PolicyGeneration where
  members : List PolicyScopeMember
  canonical : Canonical PolicyScopeMember.scope members
  deriving DecidableEq

namespace PolicyGeneration

def effectiveMode (policy : PolicyGeneration) : MemoryMode := MemoryMode.compose (policy.members.map (·.mode))

def owningScope (policy : PolicyGeneration) : ScopeIdentity := (policy.members.head policy.canonical.some).scope

def encodedLength (policy : PolicyGeneration) : Nat := 4 + 34 * policy.members.length

end PolicyGeneration

structure CallerScopeContext where
  authorizedScopes : List ScopeIdentity
  principalId : Nat
  deriving Repr, DecidableEq

def CallerScopeContext.authorizeOwningScope (caller : CallerScopeContext) (target : ScopeIdentity) :
    Except PolicyError ScopeIdentity :=
  if target ∈ caller.authorizedScopes then .ok target else .error .scopeNotAuthorized

def isProfileWhitespace (ch : Char) : Bool :=
  let code := ch.toNat
  code = 0x9 || code = 0xB || code = 0xC || code = 0x20 || code = 0xA0 || code = 0x1680 ||
    (0x2000 ≤ code && code ≤ 0x200A) || code = 0x202F || code = 0x205F || code = 0x3000

/-- The text so far, last character first, and whether it ends in a blank that was just put there. -/
structure Normalizing where
  out : List Char := []
  prevSpace : Bool := false
  deriving Repr, DecidableEq

def Normalizing.push (so : Normalizing) (ch : Char) : Normalizing :=
  let c := if ch = '\r' then '\n' else if isProfileWhitespace ch then ' ' else ch
  if c = ' ' then
    if so.prevSpace || so.out.isEmpty then so else ⟨' ' :: so.out, true⟩
  else if c = '\n' then
    let out := so.out.dropWhile (· = ' ')
    if out.head? = some '\n' then { so with out } else ⟨'\n' :: out, false⟩
  else ⟨c :: so.out, false⟩

def normalizeFreeformV1 (input : List Char) : List UInt8 :=
  let so := input.foldl Normalizing.push {}
  encodeUtf8 (so.out.dropWhile fun ch => ch = ' ' || ch = '\n').reverse

structure SemanticIdentity where
  version : Nat
  canonical : List UInt8
  deriving Repr, DecidableEq

def semanticKeyProfileV1 : Nat := 1

def SemanticIdentity.freeformV1 (statement : List Char) : SemanticIdentity :=
  ⟨semanticKeyProfileV1, normalizeFreeformV1 statement⟩

structure ApplicabilityIdentity where
  schemaVersion : Nat
  canonical : List UInt8
  deriving Repr, DecidableEq

structure EvidenceRef where
  kind : Nat
  bytes : List UInt8
  deriving Repr, DecidableEq

structure MemoryRecord where
  id : MemoryId
  recordGeneration : Nat
  schemaVersion : Nat
  kind : MemoryKind
  payload : List UInt8
  payloadSchemaVersion : Nat
  semantic : SemanticIdentity
  applicability : ApplicabilityIdentity
  evidenceRefs : List EvidenceRef
  authorityClass : AuthorityClass
  sensitivity : Sensitivity
  state : MemoryState
  createdAtUnixMs : Nat
  acceptedAtUnixMs : Option Nat
  lastValidatedAtUnixMs : Option Nat
  revalidateAfterUnixMs : Option Nat
  expiresAtUnixMs : Option Nat
  supersedes : List MemoryId
  supersededBy : List MemoryId
  conflictsWith : List MemoryId
  sourceFingerprints : List (List UInt8)
  policyGeneration : PolicyGeneration
  revocationGeneration : Option Nat
  quarantineReason : Option (List Char)
  deriving DecidableEq

namespace MemoryRecord

def encodedControlBytes (record : MemoryRecord) : Nat :=
  record.semantic.canonical.length + record.applicability.canonical.length +
    (record.evidenceRefs.map fun evidence => evidence.bytes.length + 2).sum +
    (record.sourceFingerprints.map List.length).sum + record.policyGeneration.encodedLength + 256

def encodedTotalBytes (record : MemoryRecord) : Nat := record.payload.length + record.encodedControlBytes

end MemoryRecord

end Seyal.Agent.Memory
