import Seyal.Agent.Memory.Record
import Seyal.Program.Run

namespace Seyal.Agent.Memory

open Program

/-! The memory store: its tables, and the operations of the memory authority, each of
them one transaction under the lock of the store. -/

abbrev RequestId := Nat

abbrev RevocationEventId := Nat

def maxProposedPerScope : Nat := 1024
def maxReplayReceiptsPerScope : Nat := 4096
def maxReplayReceiptBytesPerScope : Nat := 4 * 1024 * 1024
def maxRecordBytes : Nat := 256 * 1024
def maxDurableBytesPerScope : Nat := 64 * 1024 * 1024
def maxProvenanceRefs : Nat := 64
def memorySchemaVersion : Nat := 1
def payloadSchemaStatementV1 : Nat := 1

inductive MemoryError where
  | store (error : StoreError)
  | modeForbidden
  | scopeNotAuthorized
  | unsupportedTransition
  | staleGeneration
  | stalePolicy
  | capExceeded
  | suppressed
  | notFound
  | replayMismatch
  | replayExpired
  | receiptIntegrity
  | invalidInput
  deriving Repr, DecidableEq

/-- What the crates the store builds on compute: normalization form C, and the two
uses of the hash, plain and keyed. -/
class Primitives where
  nfc : List Char → List Char
  payloadDigest : RequestId → List UInt8 → PolicyGeneration → Digest
  opaqueToken : Digest → ScopeIdentity → List UInt8 → Digest

/-- A row of `memory_record`: the record, and the columns only its indexes use. -/
structure MemoryRow extends MemoryRecord where
  owningScope : ScopeIdentity
  encodedBytes : Nat
  deriving DecidableEq

/-- What the unique index over live rows holds apart. -/
structure Slot where
  owningScope : ScopeIdentity
  semantic : SemanticIdentity
  applicability : ApplicabilityIdentity
  deriving DecidableEq

def MemoryRow.slot (row : MemoryRow) : Slot := ⟨row.owningScope, row.semantic, row.applicability⟩

/-- `state IN (1, 2)`. -/
def MemoryState.isLive (state : MemoryState) : Bool := state = .proposed || state = .accepted

structure SuppressionIdentity where
  scope : ScopeIdentity
  semanticToken : Digest
  applicabilityToken : Digest
  deriving Repr, DecidableEq

structure Tombstone where
  revokedMemoryId : MemoryId
  revokedKind : MemoryKind
  revocationGeneration : Nat
  revokedAtUnixMs : Nat
  deriving Repr, DecidableEq

structure ReplayReceipt where
  payloadDigest : Digest
  resultCode : Nat
  resultMemoryId : Option MemoryId
  resultGeneration : Option Nat
  expiresAtUnixMs : Nat
  owningScope : ScopeIdentity
  encodedBytes : Nat
  deriving Repr, DecidableEq

structure ScopeQuota where
  proposedCount : Nat := 0
  durableBytes : Nat := 0
  receiptCount : Nat := 0
  receiptBytes : Nat := 0
  deriving Repr, DecidableEq

inductive ForgettingState where
  | revocationRequested
  | revocationRequestDegraded
  | revocationCommitUnknown
  | revocationCommitted
  | cleanupPending
  | cleanupDegraded
  | localForgotten
  deriving Repr, DecidableEq

inductive ForgettingTransitionError where
  | unsupportedEdge
  | noFalseLocalForgotten
  deriving Repr, DecidableEq

def forgettingTransition (before after : ForgettingState) : Except ForgettingTransitionError Unit :=
  match before, after with
  | .revocationRequested, .revocationRequestDegraded | .revocationRequested, .revocationCommitUnknown
  | .revocationRequested, .revocationCommitted | .revocationCommitUnknown, .revocationCommitted
  | .revocationCommitUnknown, .revocationRequested | .revocationCommitUnknown, .revocationRequestDegraded
  | .revocationCommitted, .cleanupPending | .cleanupPending, .localForgotten
  | .cleanupPending, .cleanupDegraded | .cleanupDegraded, .localForgotten => .ok ()
  | .localForgotten, .cleanupDegraded => .error .noFalseLocalForgotten
  | _, _ => .error .unsupportedEdge

structure RevocationRequest where
  subject : Option MemoryId
  state : ForgettingState
  fence : RevocationFence
  createdAtUnixMs : Nat
  updatedAtUnixMs : Nat

structure Database where
  suppressionKey : Digest
  records : Mapping MemoryId MemoryRow := ∅
  tombstones : Mapping SuppressionIdentity Tombstone := ∅
  receipts : Mapping RequestId ReplayReceipt := ∅
  quotas : Mapping ScopeIdentity ScopeQuota := ∅
  revocations : Mapping ScopeIdentity Nat := ∅
  requests : Mapping RevocationEventId RevocationRequest := ∅

/-- What a call finds outside the store: the time, the identifiers it draws, and
whether the file refuses it. -/
structure Moment where
  nowMs : Nat
  memoryId : MemoryId
  eventId : RevocationEventId
  refused : Bool := false
  deriving Repr, DecidableEq

abbrev Tx := Run Database MemoryError

variable {α : Type}

def transact (moment : Moment) (body : Tx α) (database : Database) : Except MemoryError α × Database :=
  if moment.refused then (.error (.store .writeFailed), database)
  else
    match body database with
    | some (.ok value, after) => (.ok value, after)
    | some (.error error, _) => (.error error, database)
    | none => (.error (.store .corrupt), database)

def Database.currentRevocationGen (database : Database) (scope : ScopeIdentity) : Nat :=
  (database.revocations.lookup scope).getD 1

def Database.validatePolicyFence (database : Database) (policy : PolicyGeneration) : Except MemoryError Unit :=
  if policy.members.any fun member => member.revocationGeneration < database.currentRevocationGen member.scope then
    .error .stalePolicy
  else .ok ()

def Database.tombstoneExists (database : Database) (identity : SuppressionIdentity) : Bool :=
  (database.tombstones.lookup identity).isSome

def Database.scopeQuota (database : Database) (scope : ScopeIdentity) : ScopeQuota :=
  (database.quotas.lookup scope).getD {}

def Database.loadRecord (database : Database) (id : MemoryId) : Option MemoryRecord :=
  (database.records.lookup id).map fun row => { row.toMemoryRecord with id, quarantineReason := none }

def Database.slotTaken (database : Database) (id : MemoryId) (slot : Slot) : Bool :=
  database.records.entries.any fun entry => entry.1 ≠ id && entry.2.state.isLive && entry.2.slot = slot

namespace Tx

def insertRecord (record : MemoryRecord) : Tx Unit := do
  let database ← get
  let row : MemoryRow :=
    { record with
      owningScope := record.policyGeneration.owningScope
      encodedBytes := record.encodedTotalBytes }
  if (database.records.lookup record.id).isSome ∨ record.state.isLive ∧ database.slotTaken record.id row.slot then
    throw (.store .writeFailed)
  else set { database with records := database.records.insert record.id row }

def updatedRow (row : MemoryRow) (record : MemoryRecord) : MemoryRow :=
  { row with
    recordGeneration := record.recordGeneration
    state := record.state
    acceptedAtUnixMs := record.acceptedAtUnixMs
    lastValidatedAtUnixMs := record.lastValidatedAtUnixMs
    supersededBy := record.supersededBy
    policyGeneration := record.policyGeneration
    revocationGeneration := record.revocationGeneration
    payload := record.payload
    evidenceRefs := record.evidenceRefs
    sourceFingerprints := record.sourceFingerprints
    encodedBytes := record.encodedTotalBytes }

def updateRecord (record : MemoryRecord) : Tx Unit := do
  let database ← get
  match database.records.lookup record.id with
  | none => return ()
  | some row =>
      if record.state.isLive ∧ database.slotTaken record.id row.slot then throw (.store .writeFailed)
      else set { database with records := database.records.insert record.id (updatedRow row record) }

def upsertQuota (scope : ScopeIdentity) (quota : ScopeQuota) : Tx Unit :=
  modify fun database => { database with quotas := database.quotas.insert scope quota }

def insertReceipt (requestId : RequestId) (receipt : ReplayReceipt) : Tx Unit := do
  let database ← get
  if (database.receipts.lookup requestId).isSome then throw (.store .writeFailed)
  else set { database with receipts := database.receipts.insert requestId receipt }

def insertTombstone (identity : SuppressionIdentity) (tombstone : Tombstone) : Tx Unit :=
  modify fun database => { database with tombstones := database.tombstones.insert identity tombstone }

def insertRequest (eventId : RevocationEventId) (request : RevocationRequest) : Tx Unit := do
  let database ← get
  if (database.requests.lookup eventId).isSome then throw (.store .writeFailed)
  else set { database with requests := database.requests.insert eventId request }

def advanceScope (scope : ScopeIdentity) : Tx RevocationFenceMember := do
  let database ← get
  let next := database.currentRevocationGen scope + 1
  set { database with revocations := database.revocations.insert scope next }
  return ⟨scope, next⟩

def advanceScopes : List ScopeIdentity → Tx (List RevocationFenceMember)
  | [] => return []
  | scope :: scopes => do
      let member ← advanceScope scope
      let members ← advanceScopes scopes
      return member :: members

end Tx

structure ProposeInput where
  requestId : RequestId
  requestExpiresAtUnixMs : Nat
  kind : MemoryKind
  statement : List Char
  applicability : ApplicabilityIdentity
  evidenceRefs : List EvidenceRef
  authorityClass : AuthorityClass
  sensitivity : Sensitivity
  sourceFingerprints : List (List UInt8)
  policyGeneration : PolicyGeneration
  caller : CallerScopeContext
  owningScope : ScopeIdentity
  revalidateAfterUnixMs : Option Nat
  expiresAtUnixMs : Option Nat
  independentPostRevocation : Bool

inductive ProposeResult where
  | created (record : MemoryRecord)
  | replay (record : MemoryRecord)
  | qualityRejected

section Operations

variable [Primitives]

def Database.deriveSuppression (database : Database) (scope : ScopeIdentity) (semantic : SemanticIdentity)
    (applicability : ApplicabilityIdentity) : SuppressionIdentity where
  scope
  semanticToken := Primitives.opaqueToken database.suppressionKey scope semantic.canonical
  applicabilityToken := Primitives.opaqueToken database.suppressionKey scope applicability.canonical

def Database.readReplay (database : Database) (requestId : RequestId) (nowMs : Nat) (digest : Digest) :
    Except MemoryError (Option ProposeResult) :=
  match database.receipts.lookup requestId with
  | none => .ok none
  | some receipt =>
      if receipt.expiresAtUnixMs ≤ nowMs then .error .replayExpired
      else if receipt.payloadDigest ≠ digest then .error .replayMismatch
      else if receipt.resultCode = 2 then .ok (some .qualityRejected)
      else
        match receipt.resultMemoryId.bind database.loadRecord with
        | none => .error .receiptIntegrity
        | some record => .ok (some (.replay record))

/-- The identity of a statement: its normalization form C, then the free-form profile. -/
def ProposeInput.semantic (input : ProposeInput) : SemanticIdentity :=
  SemanticIdentity.freeformV1 (Primitives.nfc input.statement)

def ProposeInput.record (input : ProposeInput) (moment : Moment) : MemoryRecord where
  id := moment.memoryId
  recordGeneration := 1
  schemaVersion := memorySchemaVersion
  kind := input.kind
  payload := input.semantic.canonical
  payloadSchemaVersion := payloadSchemaStatementV1
  semantic := ⟨semanticKeyProfileV1, input.semantic.canonical⟩
  applicability := input.applicability
  evidenceRefs := input.evidenceRefs
  authorityClass := input.authorityClass
  sensitivity := input.sensitivity
  state := .proposed
  createdAtUnixMs := moment.nowMs
  acceptedAtUnixMs := none
  lastValidatedAtUnixMs := none
  revalidateAfterUnixMs := input.revalidateAfterUnixMs
  expiresAtUnixMs := input.expiresAtUnixMs
  supersedes := []
  supersededBy := []
  conflictsWith := []
  sourceFingerprints := input.sourceFingerprints
  policyGeneration := input.policyGeneration
  revocationGeneration := none
  quarantineReason := none

def createRecord (input : ProposeInput) (moment : Moment) (digest : Digest) : Tx ProposeResult := do
  let database ← get
  let quota := database.scopeQuota input.owningScope
  if maxProposedPerScope ≤ quota.proposedCount ∨ maxReplayReceiptsPerScope ≤ quota.receiptCount ∨
      maxReplayReceiptBytesPerScope ≤ quota.receiptBytes then throw .capExceeded
  else
    let record := input.record moment
    let encoded := record.encodedTotalBytes
    if maxRecordBytes < encoded ∨ maxDurableBytesPerScope < quota.durableBytes + encoded then throw .capExceeded
    else
      Tx.insertRecord record
      Tx.upsertQuota input.owningScope
        ⟨quota.proposedCount + 1, quota.durableBytes + encoded, quota.receiptCount + 1, quota.receiptBytes + 64⟩
      Tx.insertReceipt input.requestId
        { payloadDigest := digest
          resultCode := 1
          resultMemoryId := some record.id
          resultGeneration := some record.recordGeneration
          expiresAtUnixMs := input.requestExpiresAtUnixMs
          owningScope := input.owningScope
          encodedBytes := 64 }
      return .created record

def proposeCommitted (input : ProposeInput) (moment : Moment) : Tx ProposeResult := do
  let digest := Primitives.payloadDigest input.requestId input.semantic.canonical input.policyGeneration
  let database ← get
  match database.readReplay input.requestId moment.nowMs digest with
  | .error error => throw error
  | .ok (some result) => return result
  | .ok none =>
      match database.validatePolicyFence input.policyGeneration with
      | .error error => throw error
      | .ok () =>
          let identity := database.deriveSuppression input.owningScope input.semantic input.applicability
          if database.tombstoneExists identity ∧ !input.independentPostRevocation then throw .suppressed
          else createRecord input moment digest

def propose (input : ProposeInput) (moment : Moment) (database : Database) :
    Except MemoryError ProposeResult × Database :=
  if input.requestExpiresAtUnixMs ≤ moment.nowMs then (.error .replayExpired, database)
  else
    match input.caller.authorizeOwningScope input.owningScope with
    | .error _ => (.error .scopeNotAuthorized, database)
    | .ok _ =>
        if !input.policyGeneration.effectiveMode.allowsOrdinaryWrite then (.error .modeForbidden, database)
        else if maxProvenanceRefs < input.evidenceRefs.length then (.error .capExceeded, database)
        else transact moment (proposeCommitted input moment) database

def entomb (record : MemoryRecord) (nowMs : Nat) : Tx MemoryRecord := do
  let database ← get
  let scope := record.policyGeneration.owningScope
  let generation := database.currentRevocationGen scope
  Tx.insertTombstone (database.deriveSuppression scope record.semantic record.applicability)
    ⟨record.id, record.kind, generation, nowMs⟩
  return { record with
    revocationGeneration := some generation
    payload := []
    evidenceRefs := []
    sourceFingerprints := [] }

def MemoryRecord.moved (record : MemoryRecord) (after : MemoryState) (safety : Bool)
    (currentPolicy : PolicyGeneration) (successor : Option MemoryId) (nowMs : Nat) : MemoryRecord :=
  { record with
    recordGeneration := record.recordGeneration + 1
    state := after
    policyGeneration := if safety then record.policyGeneration else currentPolicy
    acceptedAtUnixMs := if after = .accepted then some nowMs else record.acceptedAtUnixMs
    lastValidatedAtUnixMs := if after = .accepted then some nowMs else record.lastValidatedAtUnixMs
    supersededBy :=
      if after = .superseded then record.supersededBy ++ successor.toList else record.supersededBy }

def transitionCommitted (id : MemoryId) (expectedGeneration : Nat) (after : MemoryState) (reason : TransitionReason)
    (currentPolicy : PolicyGeneration) (successor : Option MemoryId) (nowMs : Nat) : Tx MemoryRecord := do
  let database ← get
  match database.loadRecord id with
  | none => throw .notFound
  | some record =>
      let safety := isSafetyMaintenance after reason
      if record.recordGeneration ≠ expectedGeneration then throw .staleGeneration
      else if allowedTransition record.state after reason ≠ .ok () then throw .unsupportedTransition
      else if (after = .accepted ∨ after = .superseded) ∧
          !currentPolicy.effectiveMode.allowsOrdinaryWrite then throw .modeForbidden
      else if !safety ∧ record.policyGeneration.members ≠ currentPolicy.members then throw .stalePolicy
      else
        match database.validatePolicyFence currentPolicy with
        | .error error => throw error
        | .ok () =>
            let moved := record.moved after safety currentPolicy successor nowMs
            if after = .revoked then do
              let entombed ← entomb moved nowMs
              Tx.updateRecord entombed
              return entombed
            else do
              Tx.updateRecord moved
              return moved

def revokeSubject (id : MemoryId) (reason : TransitionReason) (nowMs : Nat) : Tx MemoryRecord := do
  let database ← get
  match database.loadRecord id with
  | none => throw .notFound
  | some record =>
      if allowedTransition record.state .revoked reason ≠ .ok () then throw .unsupportedTransition
      else do
        let entombed ← entomb
          { record with recordGeneration := record.recordGeneration + 1, state := .revoked } nowMs
        Tx.updateRecord entombed
        return entombed

def advanceRevocationCommitted (scopes : List ScopeIdentity) (subject : Option MemoryId) (reason : TransitionReason)
    (moment : Moment) : Tx (Option MemoryRecord) := do
  let members ← Tx.advanceScopes scopes
  match RevocationFence.new members with
  | .error _ => throw .invalidInput
  | .ok fence =>
      Tx.insertRequest moment.eventId ⟨subject, .cleanupPending, fence, moment.nowMs, moment.nowMs⟩
      match subject with
      | none => return none
      | some id => do
          let revoked ← revokeSubject id reason moment.nowMs
          return some revoked

def advanceRevocation (scopes : List ScopeIdentity) (subject : Option MemoryId) (reason : TransitionReason)
    (moment : Moment) (database : Database) : Except MemoryError (Option MemoryRecord) × Database :=
  if !reason.isForgetOrPrivacy then (.error .unsupportedTransition, database)
  else transact moment (advanceRevocationCommitted scopes subject reason moment) database

def completeLocalForgettingCommitted (eventId : RevocationEventId) (nowMs : Nat) : Tx ForgettingState := do
  let database ← get
  match database.requests.lookup eventId with
  | none => throw .notFound
  | some request =>
      if forgettingTransition request.state .localForgotten ≠ .ok () then throw .unsupportedTransition
      else do
        set { database with
          requests := database.requests.insert eventId
            { request with state := .localForgotten, updatedAtUnixMs := nowMs } }
        return .localForgotten

inductive Operation where
  | propose (input : ProposeInput)
  | transition (id : MemoryId) (expectedGeneration : Nat) (after : MemoryState) (reason : TransitionReason)
      (currentPolicy : PolicyGeneration) (successor : Option MemoryId)
  | advanceRevocation (scopes : List ScopeIdentity) (subject : Option MemoryId) (reason : TransitionReason)
  | completeLocalForgetting (eventId : RevocationEventId)

def Operation.after (operation : Operation) (moment : Moment) (database : Database) : Database :=
  match operation with
  | .propose input => (Memory.propose input moment database).2
  | .transition id expectedGeneration after reason currentPolicy successor =>
      (transact moment (transitionCommitted id expectedGeneration after reason currentPolicy successor moment.nowMs)
        database).2
  | .advanceRevocation scopes subject reason => (Memory.advanceRevocation scopes subject reason moment database).2
  | .completeLocalForgetting eventId =>
      (transact moment (completeLocalForgettingCommitted eventId moment.nowMs) database).2

def run (operations : List (Operation × Moment)) (database : Database) : Database :=
  operations.foldl (fun database call => call.1.after call.2 database) database

end Operations

namespace Sample

@[reducible] def primitives : Primitives where
  nfc := id
  payloadDigest requestId payload _ := UInt8.ofNat requestId :: payload
  opaqueToken key scope material := key ++ UInt8.ofNat scope.kind.code :: UInt8.ofNat scope.id :: material

def project : ScopeIdentity := ⟨.project, 1⟩

def workspace : ScopeIdentity := ⟨.workspace, 2⟩

def policy : PolicyGeneration where
  members := [⟨project, 1, 1, .curated⟩, ⟨workspace, 1, 1, .curated⟩]
  canonical := ⟨by decide, by decide⟩

def empty : Database := { suppressionKey := [9] }

def input (statement : List Char) (owningScope : ScopeIdentity) (requestId : RequestId) : ProposeInput where
  requestId
  requestExpiresAtUnixMs := 100
  kind := .engineeringFact
  statement
  applicability := ⟨1, []⟩
  evidenceRefs := []
  authorityClass := .a3SourceClaim
  sensitivity := .internal
  sourceFingerprints := []
  policyGeneration := policy
  caller := ⟨[project, workspace], 0⟩
  owningScope
  revalidateAfterUnixMs := none
  expiresAtUnixMs := none
  independentPostRevocation := false

def forget : Operation × Moment := (.transition 5 1 .revoked .forget policy none, ⟨1, 0, 0, false⟩)

def forgotten (statement : List Char) : List (Operation × Moment) :=
  [(.propose (input statement project 1), ⟨0, 5, 0, false⟩), forget]

end Sample

end Seyal.Agent.Memory
