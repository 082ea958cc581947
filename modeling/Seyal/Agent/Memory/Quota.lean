import Seyal.Agent.Memory.Forgetting

namespace Seyal.Agent.Memory

open Program Run Mapping

/-! The quota of a scope, and the records it counts. -/

variable {before middle after database : Database} {id : MemoryId} {row next : MemoryRow}

def MemoryRow.isProposed (row : MemoryRow) : Nat := if row.state = .proposed then 1 else 0

open MemoryRow

def MemoryRow.bytes (row : MemoryRow) : Nat := row.toMemoryRecord.encodedTotalBytes

def Database.totalIn (database : Database) (scope : ScopeIdentity) (weigh : MemoryRow → Nat) : Nat :=
  total (fun row => if row.owningScope = scope then weigh row else 0) database.records

open Database

/-- The counters of every scope are what its records say. -/
def Database.Exact (database : Database) : Prop :=
  ∀ scope, (database.scopeQuota scope).proposedCount = database.totalIn scope isProposed ∧
    (database.scopeQuota scope).durableBytes = database.totalIn scope bytes

theorem totalIn_congr (records : after.records = before.records) (scope : ScopeIdentity) (weigh : MemoryRow → Nat) :
    after.totalIn scope weigh = before.totalIn scope weigh := by
  simp only [totalIn, records]

theorem totalIn_add (absent : before.records.lookup id = none) (records : after.records = before.records.insert id row)
    (scope : ScopeIdentity) (weigh : MemoryRow → Nat) :
    after.totalIn scope weigh = before.totalIn scope weigh + if row.owningScope = scope then weigh row else 0 := by
  have sum := total_insert (fun row : MemoryRow => if row.owningScope = scope then weigh row else 0) before.records id row
  rw [absent] at sum
  simp only [totalIn, records]
  simpa using sum

theorem totalIn_change (found : before.records.lookup id = some row)
    (records : after.records = before.records.insert id next) (scope : next.owningScope = row.owningScope)
    {weigh : MemoryRow → Nat} (same : weigh next = weigh row) (other : ScopeIdentity) :
    after.totalIn other weigh = before.totalIn other weigh := by
  have sum := total_insert (fun row : MemoryRow => if row.owningScope = other then weigh row else 0) before.records id next
  simp only [found, Option.map_some, Option.getD_some, scope, same] at sum
  simp only [totalIn, records]
  omega

theorem Database.Exact.same (exact_ : before.Exact) (records : after.records = before.records)
    (quotas : after.quotas = before.quotas) : after.Exact := by
  intro scope
  simp only [scopeQuota, quotas, totalIn_congr records]
  exact exact_ scope

/-- A row is written over in its scope, and keeps what the quota counts. -/
structure Revises (before after : Database) (id : MemoryId) (row next : MemoryRow) : Prop where
  found : before.records.lookup id = some row
  records : after.records = before.records.insert id next
  quotas : after.quotas = before.quotas
  scope : next.owningScope = row.owningScope

theorem Database.Exact.revised (exact_ : before.Exact) (revises : Revises before after id row next)
    (proposed : next.isProposed = row.isProposed) (bytes : next.bytes = row.bytes) : after.Exact := by
  intro scope
  simp only [scopeQuota, revises.quotas, totalIn_change revises.found revises.records revises.scope proposed,
    totalIn_change revises.found revises.records revises.scope bytes]
  exact exact_ scope

structure Counts (before after : Database) (scope : ScopeIdentity) (id : MemoryId) (row : MemoryRow) : Prop where
  absent : before.records.lookup id = none
  records : after.records = before.records.insert id row
  proposed : row.state = .proposed
  quota : ∃ receipts bytes, after.quotas = before.quotas.insert scope
    ⟨(before.scopeQuota scope).proposedCount + 1, (before.scopeQuota scope).durableBytes + row.bytes, receipts, bytes⟩

theorem Database.Exact.counted {scope : ScopeIdentity} (exact_ : before.Exact)
    (counts : Counts before after scope id row) (same : row.owningScope = scope) : after.Exact := by
  intro other
  obtain ⟨receipts, bytes, quotas⟩ := counts.quota
  have held := exact_ other
  simp only [totalIn_add counts.absent counts.records, same]
  by_cases here : other = scope
  · subst here
    simp only [scopeQuota, quotas, AList.lookup_insert, Option.getD_some, if_true, isProposed,
      counts.proposed]
    simp only [scopeQuota] at held
    omega
  · simp only [scopeQuota, quotas, AList.lookup_insert_ne here, if_neg (Ne.symm here), Nat.add_zero]
    exact held

/-! What the operations do to the records and the quotas. -/

theorem updateRecord_revises {record : MemoryRecord} (found : before.records.lookup record.id = some row)
    (records : middle.records = before.records) (quotas : middle.quotas = before.quotas) :
    wp (Tx.updateRecord record)
      (fun _ after => Revises before after record.id row (Tx.updatedRow row record)) (fun _ _ => True) middle := by
  unfold Tx.updateRecord
  rw [wp_bind, wp_get, records, found]
  simp only [wp_ite]
  split
  next => trivial
  next => exact ⟨found, by rw [← records], quotas, rfl⟩

theorem advanceScopes_quotas (scopes : List ScopeIdentity) :
    wp (Tx.advanceScopes scopes) (fun _ after => after.records = database.records ∧ after.quotas = database.quotas)
      (fun _ _ => True) database := by
  induction scopes generalizing database with
  | nil => exact ⟨rfl, rfl⟩
  | cons scope scopes ih =>
      rw [Tx.advanceScopes, wp_bind, Tx.advanceScope, wp_bind, wp_get, wp_bind, wp_set, wp_pure, wp_bind]
      exact wp_mono ih (fun _ _ same => same) fun _ _ _ => trivial

theorem insertRequest_quotas (eventId : RevocationEventId) (request : RevocationRequest) :
    wp (Tx.insertRequest eventId request) (fun _ after => after.records = database.records ∧ after.quotas = database.quotas)
      (fun _ _ => True) database := by
  unfold Tx.insertRequest
  rw [wp_bind, wp_get, wp_ite]
  split
  next => trivial
  next => exact ⟨rfl, rfl⟩

theorem insertRecord_counts (record : MemoryRecord) :
    wp (Tx.insertRecord record)
      (fun _ after => database.records.lookup record.id = none ∧ after.quotas = database.quotas ∧
        ∃ row, row.toMemoryRecord = record ∧ row.owningScope = record.policyGeneration.owningScope ∧
          after.records = database.records.insert record.id row) (fun _ _ => True) database := by
  unfold Tx.insertRecord
  rw [wp_bind, wp_get, wp_ite]
  split
  next => trivial
  next free =>
    simp only [not_or, Bool.not_eq_true, Option.isSome_eq_false_iff, Option.isNone_iff_eq_none] at free
    exact ⟨free.1, rfl, _, rfl, rfl, rfl⟩

theorem transact_exact {α : Type} {moment : Moment} {body : Tx α} {post : α → Database → Prop}
    (exact_ : database.Exact) (spec : wp body post (fun _ _ => True) database)
    (kept : ∀ value after, (transact moment body database).1 = .ok value → post value after → after.Exact) :
    (transact moment body database).2.Exact := by
  unfold transact at kept ⊢
  split
  next => exact exact_
  next open_ =>
    unfold wp at spec
    split
    next value after ran =>
        rw [ran] at spec
        exact kept value after (by simp [open_, ran]) spec
    next => exact exact_
    next => exact exact_

theorem isProposed_eq {state : MemoryState} {reason : TransitionReason} (is : next.state = state)
    (allowed : allowedTransition row.state state reason = .ok ()) (settled : row.state ≠ .proposed) :
    next.isProposed = row.isProposed := by
  have never : next.state ≠ .proposed := by
    intro proposed
    rw [proposed] at is
    rw [← is] at allowed
    cases held : row.state <;> rw [held] at allowed <;> cases allowed
  simp only [isProposed, never, settled, if_false]

theorem completeLocalForgetting_exact (eventId : RevocationEventId) (moment : Moment) (exact_ : database.Exact) :
    (transact moment (completeLocalForgettingCommitted eventId moment.nowMs) database).2.Exact := by
  have spec : wp (completeLocalForgettingCommitted eventId moment.nowMs)
      (fun _ after => after.records = database.records ∧ after.quotas = database.quotas) (fun _ _ => True) database := by
    unfold completeLocalForgettingCommitted
    rw [wp_bind, wp_get]
    split
    next => trivial
    next =>
      rw [wp_ite]
      split
      next => trivial
      next => exact ⟨rfl, rfl⟩
  exact transact_exact exact_ spec fun _ _ _ made => exact_.same made.1 made.2

section Operations

variable [Primitives]

theorem entomb_revises {record : MemoryRecord} {nowMs : Nat} (found : before.records.lookup record.id = some row)
    (records : middle.records = before.records) (quotas : middle.quotas = before.quotas)
    (policy : record.policyGeneration.members = row.policyGeneration.members) :
    wp (do let entombed ← entomb record nowMs; Tx.updateRecord entombed; return entombed)
      (fun _ after => ∃ next, Revises before after record.id row next ∧ next.state = record.state ∧
        (row.Erased → next.bytes = row.bytes)) (fun _ _ => True) middle := by
  rw [wp_bind, entomb, wp_bind, wp_get, wp_bind, Tx.insertTombstone, wp_modify, wp_pure, wp_bind]
  refine wp_mono (updateRecord_revises found records quotas) ?_ fun _ _ _ => trivial
  intro _ after revises
  refine ⟨_, revises, rfl, fun erased => ?_⟩
  simp only [bytes, MemoryRecord.encodedTotalBytes, MemoryRecord.encodedControlBytes, Tx.updatedRow,
    erased.payload, erased.evidenceRefs, erased.sourceFingerprints, PolicyGeneration.encodedLength, policy]

theorem transitionCommitted_revises (id : MemoryId) (expectedGeneration : Nat) (state : MemoryState)
    (reason : TransitionReason) (currentPolicy : PolicyGeneration) (successor : Option MemoryId) (nowMs : Nat) :
    wp (transitionCommitted id expectedGeneration state reason currentPolicy successor nowMs)
      (fun _ after => ∃ row next, Revises database after id row next ∧ next.state = state ∧
        allowedTransition row.state state reason = .ok () ∧ ((state = .revoked → row.Erased) → next.bytes = row.bytes))
      (fun _ _ => True) database := by
  apply wp_transitionCommitted
  intro row moved found allowed made members
  subst made
  split
  next revoked =>
    refine wp_mono (entomb_revises found rfl rfl members) ?_ fun _ _ _ => trivial
    intro _ after ⟨next, revises, is, bytes⟩
    exact ⟨row, next, revises, is, allowed, fun erased => bytes (erased revoked)⟩
  next other =>
    rw [wp_bind]
    refine wp_mono (updateRecord_revises found rfl rfl) ?_ fun _ _ _ => trivial
    intro _ after revises
    refine ⟨row, _, revises, rfl, allowed, fun _ => ?_⟩
    simp only [bytes, MemoryRecord.encodedTotalBytes, MemoryRecord.encodedControlBytes, Tx.updatedRow,
      PolicyGeneration.encodedLength, members]
    rfl

theorem revokeSubject_revises (id : MemoryId) (reason : TransitionReason) (nowMs : Nat)
    (records : middle.records = before.records) (quotas : middle.quotas = before.quotas) :
    wp (revokeSubject id reason nowMs)
      (fun _ after => ∃ row next, Revises before after id row next ∧ next.state = .revoked ∧
        (row.Erased → next.bytes = row.bytes)) (fun _ _ => True) middle := by
  unfold revokeSubject
  rw [wp_bind, wp_get]
  split
  next => trivial
  next record loaded =>
    obtain ⟨row, found, rfl⟩ := loadRecord_some loaded
    rw [records] at found
    rw [wp_ite]
    split
    next => trivial
    next =>
      refine wp_mono (entomb_revises found records quotas rfl) ?_ fun _ _ _ => trivial
      exact fun _ after revised => ⟨row, revised⟩

theorem advanceRevocationCommitted_revises (scopes : List ScopeIdentity) (subject : Option MemoryId)
    (reason : TransitionReason) (moment : Moment) :
    wp (advanceRevocationCommitted scopes subject reason moment)
      (fun _ after => match subject with
        | none => after.records = database.records ∧ after.quotas = database.quotas
        | some id => ∃ row next, Revises database after id row next ∧ next.state = .revoked ∧
            (row.Erased → next.bytes = row.bytes)) (fun _ _ => True) database := by
  unfold advanceRevocationCommitted
  rw [wp_bind]
  refine wp_mono (advanceScopes_quotas scopes) ?_ fun _ _ _ => trivial
  intro members advanced ⟨records, quotas⟩
  split
  next => trivial
  next fence _ =>
    rw [wp_bind]
    refine wp_mono (insertRequest_quotas _ _) ?_ fun _ _ _ => trivial
    intro _ requested ⟨alike, equal⟩
    cases subject with
    | none => exact ⟨alike.trans records, equal.trans quotas⟩
    | some id =>
        refine wp_bind _ _ ▸ wp_mono
          (revokeSubject_revises id reason moment.nowMs (alike.trans records) (equal.trans quotas)) ?_
          fun _ _ _ => trivial
        exact fun _ after revised => revised

theorem createRecord_counts (input : ProposeInput) (moment : Moment) (digest : Digest) :
    wp (createRecord input moment digest)
      (fun result after => result = .created (input.record moment) ∧
        ∃ row, row.owningScope = input.policyGeneration.owningScope ∧
          Counts database after input.owningScope moment.memoryId row) (fun _ _ => True) database := by
  unfold createRecord
  rw [wp_bind, wp_get]
  simp only [wp_ite]
  split
  next => trivial
  next =>
    split
    next => trivial
    next =>
      rw [wp_bind]
      refine wp_mono (insertRecord_counts (input.record moment)) ?_ fun _ _ _ => trivial
      intro _ written ⟨absent, quotas, row, is, scope, records⟩
      rw [wp_bind, Tx.upsertQuota, wp_modify, wp_bind]
      unfold Tx.insertReceipt
      rw [wp_bind, wp_get, wp_ite]
      split
      next => trivial
      next =>
        have proposed : row.state = .proposed := by rw [is]; rfl
        refine ⟨rfl, row, scope, absent, records, proposed, (database.scopeQuota input.owningScope).receiptCount + 1,
          (database.scopeQuota input.owningScope).receiptBytes + 64, ?_⟩
        simp only [quotas, bytes, is]

theorem proposeCommitted_counts (input : ProposeInput) (moment : Moment) :
    wp (proposeCommitted input moment)
      (fun result after => after = database ∨ result = .created (input.record moment) ∧
        ∃ row, row.owningScope = input.policyGeneration.owningScope ∧
          Counts database after input.owningScope moment.memoryId row) (fun _ _ => True) database := by
  unfold proposeCommitted
  rw [wp_bind, wp_get]
  split
  next => trivial
  next => exact .inl rfl
  next =>
    split
    next => trivial
    next =>
      rw [wp_ite]
      split
      next => trivial
      next => exact wp_mono (createRecord_counts input moment _) (fun _ _ => .inr) fun _ _ _ => trivial

/-- What a call has to meet in the store in front of it for its counters to stay exact: a proposal that is
created is for the scope that owns it by its policy, and a record that changes its state is not proposed, and
without content if it is revoked. -/
def Operation.KeepsQuota (operation : Operation) (moment : Moment) (database : Database) : Prop :=
  match operation with
  | .propose input => isCreated (Memory.propose input moment database).1 = true →
      input.owningScope = input.policyGeneration.owningScope
  | .transition id expectedGeneration state reason currentPolicy successor =>
      (transact moment (transitionCommitted id expectedGeneration state reason currentPolicy successor moment.nowMs)
        database).1.isOk = true →
      ∀ row, database.records.lookup id = some row → row.state ≠ .proposed ∧ (state = .revoked → row.Erased)
  | .advanceRevocation scopes subject reason =>
      (Memory.advanceRevocation scopes subject reason moment database).1.isOk = true →
      ∀ id row, subject = some id → database.records.lookup id = some row → row.state ≠ .proposed ∧ row.Erased
  | .completeLocalForgetting _ => True

theorem propose_cases (input : ProposeInput) (moment : Moment) :
    (propose input moment database).2 = database ∨
      propose input moment database = transact moment (proposeCommitted input moment) database := by
  unfold propose
  split
  next => exact .inl rfl
  next =>
    split
    next => exact .inl rfl
    next =>
      split
      next => exact .inl rfl
      next =>
        split
        next => exact .inl rfl
        next => exact .inr rfl

theorem advanceRevocation_cases (scopes : List ScopeIdentity) (subject : Option MemoryId) (reason : TransitionReason)
    (moment : Moment) : (advanceRevocation scopes subject reason moment database).2 = database ∨
      advanceRevocation scopes subject reason moment database =
        transact moment (advanceRevocationCommitted scopes subject reason moment) database := by
  unfold advanceRevocation
  split
  next => exact .inl rfl
  next => exact .inr rfl

theorem propose_exact (input : ProposeInput) (moment : Moment) (exact_ : database.Exact)
    (keeps : (Operation.propose input).KeepsQuota moment database) : (propose input moment database).2.Exact := by
  rcases propose_cases input moment with same | runs
  · rw [same]
    exact exact_
  · rw [Operation.KeepsQuota, runs] at keeps
    rw [runs]
    refine transact_exact exact_ (proposeCommitted_counts input moment) fun result after ran made => ?_
    rcases made with same | ⟨is, row, scope, counts⟩
    · exact same ▸ exact_
    · have own := keeps (by rw [ran, is]; rfl)
      exact exact_.counted counts (scope.trans own.symm)

theorem advanceRevocation_exact (scopes : List ScopeIdentity) (subject : Option MemoryId) (reason : TransitionReason)
    (moment : Moment) (exact_ : database.Exact)
    (keeps : (Operation.advanceRevocation scopes subject reason).KeepsQuota moment database) :
    (advanceRevocation scopes subject reason moment database).2.Exact := by
  rcases advanceRevocation_cases scopes subject reason moment with same | runs
  · rw [same]
    exact exact_
  · rw [Operation.KeepsQuota, runs] at keeps
    rw [runs]
    refine transact_exact exact_ (advanceRevocationCommitted_revises scopes subject reason moment)
      fun record after ran made => ?_
    cases subject with
    | none => exact exact_.same made.1 made.2
    | some id =>
        obtain ⟨row, next, revises, is, bytes⟩ := made
        obtain ⟨settled, erased⟩ := keeps (by rw [ran]; rfl) id row rfl revises.found
        exact exact_.revised revises (by simp [isProposed, is, settled]) (bytes erased)

theorem Operation.after_exact (operation : Operation) (moment : Moment) (exact_ : database.Exact)
    (keeps : operation.KeepsQuota moment database) : (operation.after moment database).Exact := by
  cases operation with
  | propose input => exact propose_exact input moment exact_ keeps
  | transition id expectedGeneration state reason currentPolicy successor =>
      refine transact_exact exact_ (transitionCommitted_revises id expectedGeneration state reason currentPolicy
        successor moment.nowMs) fun record after ran made => ?_
      obtain ⟨row, next, revises, is, allowed, bytes⟩ := made
      obtain ⟨settled, erased⟩ := keeps (by rw [ran]; rfl) row revises.found
      exact exact_.revised revises (isProposed_eq is allowed settled) (bytes erased)
  | advanceRevocation scopes subject reason => exact advanceRevocation_exact scopes subject reason moment exact_ keeps
  | completeLocalForgetting eventId => exact completeLocalForgetting_exact eventId moment exact_

def KeepsQuotas : List (Operation × Moment) → Database → Prop
  | [], _ => True
  | call :: rest, database => call.1.KeepsQuota call.2 database ∧ KeepsQuotas rest (call.1.after call.2 database)

/-- The counters of every scope stay exact. -/
theorem run_quotas_exact (operations : List (Operation × Moment)) (database : Database) (exact_ : database.Exact)
    (keeps : KeepsQuotas operations database) (scope : ScopeIdentity) :
    ((run operations database).scopeQuota scope).proposedCount =
      (run operations database).totalIn scope MemoryRow.isProposed ∧
    ((run operations database).scopeQuota scope).durableBytes =
      (run operations database).totalIn scope MemoryRow.bytes := by
  induction operations generalizing database with
  | nil => exact exact_ scope
  | cons call rest ih => exact ih _ (call.1.after_exact call.2 exact_ keeps.1) keeps.2

end Operations

namespace Sample

def proposals : List (Operation × Moment) :=
  [(.propose (input ['a'] project 1), ⟨0, 5, 0, false⟩), (.propose (input ['a'] project 1), ⟨1, 6, 0, false⟩),
    (.propose (input ['b'] project 2), ⟨2, 7, 0, false⟩)]

def accepted : List (Operation × Moment) :=
  [(.propose (input ['a'] project 1), ⟨0, 5, 0, false⟩),
    (.transition 5 1 .accepted .accept policy none, ⟨1, 0, 0, false⟩)]

end Sample

open Sample

theorem run_quotas_exact_proposals :
    letI := primitives
    ((run proposals empty).scopeQuota project).proposedCount =
      (run proposals empty).totalIn project isProposed := by
  let := primitives
  have own : (input ['a'] project 1).owningScope = policy.owningScope := by decide
  exact (run_quotas_exact proposals empty (fun _ => ⟨rfl, rfl⟩)
    ⟨fun _ => own, fun _ => own, fun _ => own, trivial⟩ project).1

/-- An accepted record is counted as proposed, a forgotten one with the bytes it had, and one that is proposed
for the workspace under a policy that names the project first is counted for the workspace. -/
theorem run_quotas_drift :
    letI := primitives
    let accepted := run accepted empty
    let forgotten := run (forgotten ['a']) empty
    let elsewhere := run [(.propose (input ['a'] workspace 1), ⟨0, 5, 0, false⟩)] empty
    (accepted.scopeQuota project).proposedCount = 1 ∧
    accepted.totalIn project isProposed = 0 ∧
    forgotten.totalIn project bytes < (forgotten.scopeQuota project).durableBytes ∧
    (elsewhere.scopeQuota project).proposedCount = 0 ∧
    elsewhere.totalIn project isProposed = 1 := by
  decide +kernel

end Seyal.Agent.Memory
