import Seyal.Agent.Memory.Store

namespace Seyal.Agent.Memory

open Program Run Sample

/-! What stays of a record that is forgotten, and what keeps it from coming back. -/

variable {before middle after database : Database}

structure Same (before after : Database) : Prop where
  key : after.suppressionKey = before.suppressionKey
  tombstones : after.tombstones = before.tombstones
  records : after.records = before.records

theorem Same.refl : Same database database := ⟨rfl, rfl, rfl⟩

theorem Same.trans (first : Same before middle) (second : Same middle after) : Same before after :=
  ⟨second.key.trans first.key, second.tombstones.trans first.tombstones, second.records.trans first.records⟩

structure MemoryRow.Erased (row : MemoryRow) : Prop where
  payload : row.payload = []
  evidenceRefs : row.evidenceRefs = []
  sourceFingerprints : row.sourceFingerprints = []

theorem insertReceipt_same (requestId : RequestId) (receipt : ReplayReceipt) :
    wp (Tx.insertReceipt requestId receipt) (fun _ after => Same database after) (fun _ _ => True) database := by
  unfold Tx.insertReceipt
  rw [wp_bind, wp_get, wp_ite]
  split
  next => trivial
  next => exact ⟨rfl, rfl, rfl⟩

theorem Database.loadRecord_some {id : MemoryId} {record : MemoryRecord} (loaded : database.loadRecord id = some record) :
    ∃ row, database.records.lookup id = some row ∧
      record = { row.toMemoryRecord with id, quarantineReason := none } := by
  unfold Database.loadRecord at loaded
  obtain ⟨row, present, rfl⟩ := Option.map_eq_some_iff.mp loaded
  exact ⟨row, present, rfl⟩

open Database

theorem not_revoked_of_allowed {state next : MemoryState} {reason : TransitionReason}
    (allowed : allowedTransition state next reason = .ok ()) : state ≠ .revoked := by
  rintro rfl
  rw [allowedTransition_revoked] at allowed
  cases allowed

theorem owningScope_congr {first second : PolicyGeneration} (same : first.members = second.members) :
    first.owningScope = second.owningScope := by
  unfold PolicyGeneration.owningScope
  simp only [same]

theorem insertRequest_same (eventId : RevocationEventId) (request : RevocationRequest) :
    wp (Tx.insertRequest eventId request) (fun _ after => Same database after) (fun _ _ => True) database := by
  unfold Tx.insertRequest
  rw [wp_bind, wp_get, wp_ite]
  split
  next => trivial
  next => exact ⟨rfl, rfl, rfl⟩

theorem advanceScopes_same (scopes : List ScopeIdentity) :
    wp (Tx.advanceScopes scopes) (fun _ after => Same database after) (fun _ _ => True) database := by
  induction scopes generalizing database with
  | nil => exact .refl
  | cons scope scopes follows =>
      rw [Tx.advanceScopes, wp_bind, Tx.advanceScope, wp_bind, wp_get, wp_bind, wp_set, wp_pure, wp_bind]
      refine wp_mono follows ?_ fun _ _ _ => trivial
      exact fun _ after same => ⟨same.key, same.tombstones, same.records⟩

section Stores

variable [Primitives]

/-- A transition of a row that is not revoked yet: its identity stays, and Revoked
comes with a tombstone and without content. -/
structure Moves (after : Database) (row next : MemoryRow) : Prop where
  live : row.state ≠ .revoked
  semantic : next.semantic = row.semantic
  applicability : next.applicability = row.applicability
  scope : next.policyGeneration.owningScope = row.policyGeneration.owningScope
  erased : next.state = .revoked → next.Erased
  entombed : next.state = .revoked → after.tombstoneExists
    (after.deriveSuppression row.policyGeneration.owningScope row.semantic row.applicability) = true

structure Follows (before after : Database) : Prop where
  key : after.suppressionKey = before.suppressionKey
  tombstones : ∀ identity, before.tombstoneExists identity = true → after.tombstoneExists identity = true
  rows : ∀ id row, before.records.lookup id = some row →
    ∃ next, after.records.lookup id = some next ∧ (next = row ∨ Moves after row next)

theorem Same.follows (same : Same before after) : Follows before after where
  key := same.key
  tombstones identity := by
    unfold tombstoneExists
    rw [same.tombstones]
    exact id
  rows id row present := ⟨row, by rw [same.records, present], .inl rfl⟩

theorem Same.then_follows (same : Same before middle) (follows : Follows middle after) : Follows before after where
  key := follows.key.trans same.key
  tombstones identity exists_ := follows.tombstones identity (by
    unfold tombstoneExists at exists_ ⊢
    rw [same.tombstones]
    exact exists_)
  rows id row present := follows.rows id row (by rw [same.records, present])

theorem Follows.then_same (follows : Follows before middle) (same : Same middle after) : Follows before after where
  key := same.key.trans follows.key
  tombstones identity exists_ := by
    unfold tombstoneExists
    rw [same.tombstones]
    exact follows.tombstones identity exists_
  rows id row present := by
    obtain ⟨next, there, moves⟩ := follows.rows id row present
    refine ⟨next, by rw [same.records, there], moves.imp_right fun moves => { moves with entombed := ?_ }⟩
    intro revoked
    unfold tombstoneExists deriveSuppression
    rw [same.tombstones, same.key]
    exact moves.entombed revoked

theorem transact_follows {α : Type} {moment : Moment} {body : Tx α}
    (spec : wp body (fun _ after => Follows database after) (fun _ _ => True) database) :
    Follows database (transact moment body database).2 := by
  unfold transact
  split
  next => exact Same.refl.follows
  next =>
    unfold wp at spec
    split
    next value after ran =>
        rw [ran] at spec
        exact spec
    next => exact Same.refl.follows
    next => exact Same.refl.follows

structure Created (record : MemoryRecord) (after : Database) : Prop where
  row : ∃ row, after.records.lookup record.id = some row ∧ row.toMemoryRecord = record

theorem insertRecord_spec (record : MemoryRecord) :
    wp (Tx.insertRecord record) (fun _ after => Follows database after ∧ Created record after)
      (fun _ _ => True) database := by
  unfold Tx.insertRecord
  rw [wp_bind, wp_get, wp_ite]
  split
  next => trivial
  next free =>
    have absent : database.records.lookup record.id = none := by
      simp only [not_or, Bool.not_eq_true, Option.isSome_eq_false_iff, Option.isNone_iff_eq_none] at free
      exact free.1
    refine ⟨⟨rfl, fun _ exists_ => exists_, fun id row present => ?_⟩, ⟨_, AList.lookup_insert _, rfl⟩⟩
    have other : id ≠ record.id := by
      rintro rfl
      rw [absent] at present
      cases present
    exact ⟨row, by rw [← present]; exact AList.lookup_insert_ne other, .inl rfl⟩

theorem createRecord_spec (input : ProposeInput) (moment : Moment) (digest : Digest) :
    wp (createRecord input moment digest) (fun result after => Follows database after ∧
      result = .created (input.record moment) ∧ Created (input.record moment) after) (fun _ _ => True) database := by
  unfold createRecord
  rw [wp_bind, wp_get]
  simp only [wp_ite]
  split
  next => trivial
  next =>
    split
    next => trivial
    next =>
      rw [wp_bind]
      refine wp_mono (insertRecord_spec (input.record moment)) ?_ fun _ _ _ => trivial
      rintro _ written ⟨follows, created⟩
      rw [wp_bind, Tx.upsertQuota, wp_modify, wp_bind]
      refine wp_mono (insertReceipt_same _ _) ?_ fun _ _ _ => trivial
      intro _ after same
      have kept : Same written after := ⟨same.key, same.tombstones, same.records⟩
      obtain ⟨row, present, is⟩ := created.row
      exact ⟨follows.then_same kept, rfl, ⟨row, by rw [kept.records, present], is⟩⟩

theorem proposeCommitted_spec (input : ProposeInput) (moment : Moment) :
    wp (proposeCommitted input moment) (fun result after => Follows database after ∧
      ∀ record, result = .created record → record = input.record moment ∧ Created record after ∧
        (input.independentPostRevocation = false → database.tombstoneExists
          (database.deriveSuppression input.owningScope input.semantic input.applicability) = false))
      (fun _ _ => True) database := by
  unfold proposeCommitted
  rw [wp_bind, wp_get]
  split
  next => trivial
  next result replayed =>
      refine ⟨Same.refl.follows, fun record same => ?_⟩
      subst same
      unfold readReplay at replayed
      split at replayed
      · cases replayed
      · split_ifs at replayed
        · cases replayed
        · split at replayed <;> cases replayed
  next =>
    split
    next => trivial
    next =>
      rw [wp_ite]
      split
      next => trivial
      next open_ =>
        refine wp_mono (createRecord_spec input moment _) ?_ fun _ _ _ => trivial
        rintro _ after ⟨follows, rfl, created⟩
        refine ⟨follows, ?_⟩
        rintro _ ⟨⟩
        refine ⟨rfl, created, fun dependent => ?_⟩
        simpa [dependent] using open_

theorem updateRecord_follows {record : MemoryRecord} {row : MemoryRow}
    (present : before.records.lookup record.id = some row) (live : row.state ≠ .revoked)
    (scope : record.policyGeneration.owningScope = row.policyGeneration.owningScope)
    (records : middle.records = before.records) (key : middle.suppressionKey = before.suppressionKey)
    (tombstones : ∀ identity, before.tombstoneExists identity = true → middle.tombstoneExists identity = true)
    (erased : record.state = .revoked →
      record.payload = [] ∧ record.evidenceRefs = [] ∧ record.sourceFingerprints = [])
    (entombed : record.state = .revoked → middle.tombstoneExists
      (middle.deriveSuppression row.policyGeneration.owningScope row.semantic row.applicability) = true) :
    wp (Tx.updateRecord record) (fun _ after => Follows before after) (fun _ _ => True) middle := by
  unfold Tx.updateRecord
  rw [wp_bind, wp_get, records, present]
  simp only [wp_ite]
  split
  next => trivial
  next =>
    refine ⟨key, tombstones, fun id other here => ?_⟩
    by_cases same : id = record.id
    · subst same
      rw [present] at here
      cases here
      refine ⟨Tx.updatedRow row record, AList.lookup_insert _, .inr ?_⟩
      exact ⟨live, rfl, rfl, scope, fun revoked => ⟨(erased revoked).1, (erased revoked).2.1, (erased revoked).2.2⟩,
        entombed⟩
    · exact ⟨other, by rw [← here]; exact AList.lookup_insert_ne same, .inl rfl⟩

theorem entomb_follows {record : MemoryRecord} {row : MemoryRow} {nowMs : Nat}
    (present : before.records.lookup record.id = some row) (live : row.state ≠ .revoked)
    (semantic : record.semantic = row.semantic) (applicability : record.applicability = row.applicability)
    (scope : record.policyGeneration.owningScope = row.policyGeneration.owningScope) :
    wp (do let entombed ← entomb record nowMs; Tx.updateRecord entombed; return entombed)
      (fun _ after => Follows before after) (fun _ _ => True) before := by
  rw [wp_bind, entomb, wp_bind, wp_get, wp_bind, Tx.insertTombstone, wp_modify, wp_pure, wp_bind]
  refine wp_mono (updateRecord_follows present live scope rfl rfl ?_ (fun _ => ⟨rfl, rfl, rfl⟩) fun _ => ?_)
    (fun _ _ follows => follows) fun _ _ _ => trivial
  · intro identity exists_
    unfold tombstoneExists at exists_ ⊢
    by_cases same : identity = before.deriveSuppression record.policyGeneration.owningScope record.semantic
        record.applicability
    · rw [same, AList.lookup_insert]
      rfl
    · rw [AList.lookup_insert_ne same]
      exact exists_
  · rw [← scope, ← semantic, ← applicability]
    unfold tombstoneExists
    exact congrArg Option.isSome (AList.lookup_insert _)

theorem wp_transitionCommitted {post : MemoryRecord → Database → Prop} (id : MemoryId) (expectedGeneration : Nat)
    (next : MemoryState) (reason : TransitionReason) (currentPolicy : PolicyGeneration) (successor : Option MemoryId)
    (nowMs : Nat)
    (writes : ∀ row moved, database.records.lookup id = some row → allowedTransition row.state next reason = .ok () →
      moved = ({ row.toMemoryRecord with id, quarantineReason := none } : MemoryRecord).moved next
        (isSafetyMaintenance next reason) currentPolicy successor nowMs →
      moved.policyGeneration.members = row.policyGeneration.members →
      if next = .revoked then
        wp (do let entombed ← entomb moved nowMs; Tx.updateRecord entombed; return entombed) post (fun _ _ => True)
          database
      else wp (do Tx.updateRecord moved; return moved) post (fun _ _ => True) database) :
    wp (transitionCommitted id expectedGeneration next reason currentPolicy successor nowMs) post (fun _ _ => True)
      database := by
  unfold transitionCommitted
  rw [wp_bind, wp_get]
  split
  next => trivial
  next record loaded =>
    obtain ⟨row, present, rfl⟩ := loadRecord_some loaded
    simp only [wp_ite]
    split
    next => trivial
    next =>
      split
      next => trivial
      next allowed =>
        split
        next => trivial
        next =>
          split
          next => trivial
          next matches_ =>
            have members : (if isSafetyMaintenance next reason then row.policyGeneration else currentPolicy).members =
                row.policyGeneration.members := by
              split
              next => rfl
              next ordinary =>
                have same : row.policyGeneration.members = currentPolicy.members := by
                  simpa [ordinary] using matches_
                exact same.symm
            split
            next => trivial
            next =>
              simp only [wp_ite]
              exact writes row _ present (Decidable.not_not.mp allowed) rfl members

theorem transitionCommitted_follows (id : MemoryId) (expectedGeneration : Nat) (next : MemoryState)
    (reason : TransitionReason) (currentPolicy : PolicyGeneration) (successor : Option MemoryId) (nowMs : Nat) :
    wp (transitionCommitted id expectedGeneration next reason currentPolicy successor nowMs)
      (fun _ after => Follows database after) (fun _ _ => True) database := by
  apply wp_transitionCommitted
  intro row moved present allowed made members
  have live := not_revoked_of_allowed allowed
  have scope := owningScope_congr members
  subst made
  split
  next => exact entomb_follows present live rfl rfl scope
  next other =>
    rw [wp_bind]
    exact wp_mono (updateRecord_follows present live scope rfl rfl (fun _ exists_ => exists_)
      (fun revoked => absurd revoked other) fun revoked => absurd revoked other)
      (fun _ _ follows => follows) fun _ _ _ => trivial

theorem revokeSubject_follows (id : MemoryId) (reason : TransitionReason) (nowMs : Nat) :
    wp (revokeSubject id reason nowMs) (fun _ after => Follows database after) (fun _ _ => True) database := by
  unfold revokeSubject
  rw [wp_bind, wp_get]
  split
  next => trivial
  next record loaded =>
    obtain ⟨row, present, rfl⟩ := loadRecord_some loaded
    rw [wp_ite]
    split
    next => trivial
    next allowed =>
      exact entomb_follows present (not_revoked_of_allowed (Decidable.not_not.mp allowed)) rfl rfl rfl

theorem advanceRevocationCommitted_follows (scopes : List ScopeIdentity) (subject : Option MemoryId)
    (reason : TransitionReason) (moment : Moment) :
    wp (advanceRevocationCommitted scopes subject reason moment) (fun _ after => Follows database after)
      (fun _ _ => True) database := by
  unfold advanceRevocationCommitted
  rw [wp_bind]
  refine wp_mono (advanceScopes_same scopes) ?_ fun _ _ _ => trivial
  intro members advanced same
  split
  next => trivial
  next fence _ =>
    rw [wp_bind]
    refine wp_mono (insertRequest_same _ _) ?_ fun _ _ _ => trivial
    intro _ requested further
    have kept := same.trans further
    cases subject with
    | none => exact kept.follows
    | some id =>
        refine wp_bind _ _ ▸ wp_mono (revokeSubject_follows id reason moment.nowMs) ?_ fun _ _ _ => trivial
        exact fun _ after follows => kept.then_follows follows

theorem completeLocalForgettingCommitted_follows (eventId : RevocationEventId) (nowMs : Nat) :
    wp (completeLocalForgettingCommitted eventId nowMs) (fun _ after => Follows database after) (fun _ _ => True)
      database := by
  unfold completeLocalForgettingCommitted
  rw [wp_bind, wp_get]
  split
  next => trivial
  next =>
    rw [wp_ite]
    split
    next => trivial
    next => exact Same.follows ⟨rfl, rfl, rfl⟩

theorem propose_follows (input : ProposeInput) (moment : Moment) :
    Follows database (propose input moment database).2 := by
  unfold propose
  split
  next => exact Same.refl.follows
  next =>
    split
    next => exact Same.refl.follows
    next =>
      split
      next => exact Same.refl.follows
      next =>
        split
        next => exact Same.refl.follows
        next =>
          exact transact_follows (wp_mono (proposeCommitted_spec input moment) (fun _ _ spec => spec.1)
            fun _ _ _ => trivial)

theorem advanceRevocation_follows (scopes : List ScopeIdentity) (subject : Option MemoryId)
    (reason : TransitionReason) (moment : Moment) :
    Follows database (advanceRevocation scopes subject reason moment database).2 := by
  unfold advanceRevocation
  split
  next => exact Same.refl.follows
  next => exact transact_follows (advanceRevocationCommitted_follows scopes subject reason moment)

theorem Operation.follows (operation : Operation) (moment : Moment) :
    Follows database (operation.after moment database) := by
  cases operation with
  | propose input => exact propose_follows input moment
  | transition id expectedGeneration next reason currentPolicy successor =>
      exact transact_follows
        (transitionCommitted_follows id expectedGeneration next reason currentPolicy successor moment.nowMs)
  | advanceRevocation scopes subject reason =>
      exact advanceRevocation_follows scopes subject reason moment
  | completeLocalForgetting eventId =>
      exact transact_follows (completeLocalForgettingCommitted_follows eventId moment.nowMs)

theorem run_preserves {invariant : Database → Prop} (operations : List (Operation × Moment))
    (preserved : ∀ before after, Follows before after → invariant before → invariant after)
    (initial : invariant database) : invariant (run operations database) := by
  induction operations generalizing database with
  | nil => exact initial
  | cons call calls follows => exact follows (preserved _ _ (call.1.follows call.2) initial)

/-- The row is there, and revoked only without its content. -/
def ErasedIfRevoked (id : MemoryId) (database : Database) : Prop :=
  ∃ row, database.records.lookup id = some row ∧ (row.state = .revoked → row.Erased)

theorem ErasedIfRevoked.follows {id : MemoryId} (follows : Follows before after)
    (erased : ErasedIfRevoked id before) : ErasedIfRevoked id after := by
  obtain ⟨row, present, holds⟩ := erased
  obtain ⟨next, there, same | moves⟩ := follows.rows id row present
  · exact ⟨next, there, same ▸ holds⟩
  · exact ⟨next, there, moves.erased⟩

theorem Follows.revoked {id : MemoryId} {row : MemoryRow} (follows : Follows before after)
    (present : before.records.lookup id = some row) (revoked : row.state = .revoked) :
    after.records.lookup id = some row := by
  obtain ⟨next, there, same | moves⟩ := follows.rows id row present
  · rw [there, same]
  · exact absurd revoked moves.live

/-! Statements that come to the same identity. -/

/-- The same call, or the same proposal in other words. -/
inductive Restates : Operation → Operation → Prop where
  | same (operation : Operation) : Restates operation operation
  | proposal {input : ProposeInput} {statement : List Char}
      (canonical : { input with statement }.semantic = input.semantic) :
      Restates (.propose input) (.propose { input with statement })

theorem propose_restated {input : ProposeInput} {statement : List Char} (moment : Moment)
    (canonical : { input with statement }.semantic = input.semantic) :
    propose { input with statement } moment = propose input moment := by
  have record : ProposeInput.record { input with statement } moment = input.record moment := by
    unfold ProposeInput.record
    rw [canonical]
  have committed : proposeCommitted { input with statement } moment = proposeCommitted input moment := by
    unfold proposeCommitted createRecord
    simp only [canonical, record]
  unfold propose
  rw [committed]

theorem Restates.after_eq {first second : Operation} (restates : Restates first second) (moment : Moment) :
    second.after moment database = first.after moment database := by
  cases restates with
  | same operation => rfl
  | proposal canonical =>
      simp only [Operation.after]
      rw [propose_restated moment canonical]

/-- Forgetting. A record that has become Revoked has lost its content and never changes
again; and where two sequences of calls differ only in statements of one identity, every
column of every row is the same behind both. -/
theorem run_forgets (operations restated : List (Operation × Moment)) (database : Database)
    (same : List.Forall₂ (fun first second => Restates first.1 second.1 ∧ first.2 = second.2) operations restated) :
    run restated database = run operations database ∧
    (∀ id row next, database.records.lookup id = some row → row.state ≠ .revoked →
      (run operations database).records.lookup id = some next → next.state = .revoked → next.Erased) ∧
    (∀ id row, database.records.lookup id = some row → row.state = .revoked →
      (run operations database).records.lookup id = some row) := by
  refine ⟨?_, ?_, ?_⟩
  · induction same generalizing database with
    | nil => rfl
    | @cons first second _ _ head _ follows =>
        have here : second.1.after second.2 database = first.1.after first.2 database := by
          rw [← head.2]
          exact head.1.after_eq first.2
        simp only [run, List.foldl_cons] at follows ⊢
        rw [here]
        exact follows _
  · intro id row next present live there revoked
    have kept := run_preserves operations (fun _ _ follows => ErasedIfRevoked.follows follows)
      (show ErasedIfRevoked id database from ⟨row, present, fun wrong => absurd wrong live⟩)
    obtain ⟨found, here, erased⟩ := kept
    rw [there] at here
    cases here
    exact erased revoked
  · intro id row present revoked
    exact @run_preserves _ _ (fun database => database.records.lookup id = some row) operations
      (fun _ _ follows here => follows.revoked here revoked) present

end Stores

theorem run_forgets_sample :
    letI := primitives
    run (forgotten ['a', '\t', 'b']) empty = run (forgotten ['a', ' ', 'b']) empty := by
  let := primitives
  have canonical : ({ input ['a', ' ', 'b'] project 1 with statement := ['a', '\t', 'b'] } :
      ProposeInput).semantic = (input ['a', ' ', 'b'] project 1).semantic := by decide +kernel
  exact (run_forgets (forgotten ['a', ' ', 'b']) (forgotten ['a', '\t', 'b']) empty
    (.cons ⟨.proposal canonical, rfl⟩ (.cons ⟨.same _, rfl⟩ .nil))).1

/-- The row of a forgotten record still says what it was about. -/
theorem run_remembers :
    letI := primitives
    let columns := fun statement : List Char =>
      ((run (forgotten statement) empty).records.lookup 5).map fun row =>
        (row.state, row.payload, row.semantic.canonical)
    columns ['a'] = some (.revoked, [], [97]) ∧ columns ['b'] = some (.revoked, [], [98]) := by
  decide +kernel

section Suppression

variable [Primitives]

theorem propose_created {input : ProposeInput} {moment : Moment} {record : MemoryRecord}
    (created : propose input moment database = (.ok (.created record), after)) :
    record = input.record moment ∧ Created record after ∧
      (input.independentPostRevocation = false → database.tombstoneExists
        (database.deriveSuppression input.owningScope input.semantic input.applicability) = false) ∧
      after.suppressionKey = database.suppressionKey := by
  have key : after.suppressionKey = database.suppressionKey := by
    have follows := @propose_follows database _ input moment
    rw [created] at follows
    exact follows.key
  unfold propose at created
  split at created
  · cases created
  split at created
  · cases created
  split at created
  · cases created
  split at created
  · cases created
  unfold transact at created
  split at created
  · cases created
  have spec := @proposeCommitted_spec database _ input moment
  unfold wp at spec
  split at created
  next result written ran =>
      rw [ran] at spec
      cases created
      obtain ⟨same, there, open_⟩ := spec.2 record rfl
      exact ⟨same, there, open_, key⟩
  next => cases created
  next => cases created

/-- The row of a proposal keeps its identity, and is revoked only with a tombstone. -/
structure Suppressed (input : ProposeInput) (id : MemoryId) (key : Digest) (database : Database) : Prop where
  key : database.suppressionKey = key
  row : ∃ row, database.records.lookup id = some row ∧ row.semantic = input.semantic ∧
    row.applicability = input.applicability ∧
    row.policyGeneration.owningScope = input.policyGeneration.owningScope ∧
    (row.state = .revoked → database.tombstoneExists (database.deriveSuppression
      input.policyGeneration.owningScope input.semantic input.applicability) = true)

theorem Suppressed.follows {input : ProposeInput} {id : MemoryId} {key : Digest} (follows : Follows before after)
    (suppressed : Suppressed input id key before) : Suppressed input id key after := by
  refine ⟨follows.key.trans suppressed.key, ?_⟩
  obtain ⟨row, present, semantic, applicability, scope, entombed⟩ := suppressed.row
  obtain ⟨next, there, same | moves⟩ := follows.rows id row present
  · subst same
    refine ⟨next, there, semantic, applicability, scope, fun revoked => ?_⟩
    have kept := follows.tombstones _ (entombed revoked)
    unfold deriveSuppression at kept ⊢
    rw [follows.key]
    exact kept
  · refine ⟨next, there, moves.semantic.trans semantic, moves.applicability.trans applicability,
      moves.scope.trans scope, fun revoked => ?_⟩
    have fresh := moves.entombed revoked
    rw [semantic, applicability, scope] at fresh
    exact fresh

/-- Revoked memory does not resurrect, where the proposal's owning scope is the one its
policy names first: behind any calls that revoke the record, a proposal of the same
identity in the same scope that claims no independent evidence is not created. -/
theorem propose_not_resurrected {input again : ProposeInput} {moment later : Moment} {record : MemoryRecord}
    {created : Database} (proposed : propose input moment database = (.ok (.created record), created))
    (owning : input.owningScope = input.policyGeneration.owningScope)
    (operations : List (Operation × Moment)) {row : MemoryRow}
    (present : (run operations created).records.lookup record.id = some row) (revoked : row.state = .revoked)
    (scope : again.owningScope = input.owningScope) (applicability : again.applicability = input.applicability)
    (statement : Primitives.nfc again.statement = Primitives.nfc input.statement)
    (dependent : again.independentPostRevocation = false) :
    ∀ resurrected, (propose again later (run operations created)).1 ≠ .ok (.created resurrected) := by
  intro resurrected result
  obtain ⟨rfl, there, _, _⟩ := propose_created proposed
  obtain ⟨first, here, same⟩ := there.row
  have initial : Suppressed input (input.record moment).id created.suppressionKey created := by
    refine ⟨rfl, first, here, ?_, ?_, ?_, ?_⟩
    · rw [same]
      rfl
    · rw [same]
      rfl
    · rw [same]
      rfl
    · intro wrong
      rw [same] at wrong
      cases wrong
  have kept := run_preserves operations (fun _ _ follows => Suppressed.follows follows) initial
  obtain ⟨found, foundHere, _, _, _, entombed⟩ := kept.row
  rw [present] at foundHere
  cases foundHere
  have semantic : again.semantic = input.semantic := by
    unfold ProposeInput.semantic
    rw [statement]
  have unsuppressed := (propose_created (Prod.ext_iff.mpr ⟨result, rfl⟩)).2.2.1 dependent
  rw [scope, semantic, applicability, owning, entombed revoked] at unsuppressed
  cases unsuppressed

end Suppression

def isCreated : Except MemoryError ProposeResult → Bool
  | .ok (.created _) => true
  | _ => false

theorem exists_of_isCreated {result : Except MemoryError ProposeResult} (created : isCreated result = true) :
    ∃ record, result = .ok (.created record) := by
  unfold isCreated at created
  split at created
  next record => exact ⟨record, rfl⟩
  next => cases created

theorem propose_not_resurrected_sample :
    letI := primitives
    isCreated (propose (input ['a'] project 2) ⟨2, 6, 0, false⟩
      (run [forget] (propose (input ['a'] project 1) ⟨0, 5, 0, false⟩ empty).2)).1 =
      false := by
  let := primitives
  have created : isCreated (propose (input ['a'] project 1) ⟨0, 5, 0, false⟩ empty).1 = true := by
    decide +kernel
  have state : ((run [forget] (propose (input ['a'] project 1) ⟨0, 5, 0, false⟩
      empty).2).records.lookup 5).map (·.state) = some .revoked := by
    decide +kernel
  generalize outcome : propose (input ['a'] project 1) ⟨0, 5, 0, false⟩ empty = first
    at created state ⊢
  obtain ⟨result, stored⟩ := first
  obtain ⟨record, rfl⟩ := exists_of_isCreated created
  obtain ⟨row, present, revoked⟩ := Option.map_eq_some_iff.mp state
  have id : record.id = 5 := by
    rw [(propose_created outcome).1]
    rfl
  rw [← id] at present
  by_contra again
  obtain ⟨resurrected, wrong⟩ := exists_of_isCreated (Bool.not_eq_false _ ▸ again)
  exact @propose_not_resurrected _ _ (input ['a'] project 1) (input ['a'] project 2) _ _ _ _
    outcome rfl [forget] _ present revoked rfl rfl rfl rfl resurrected wrong

/-- Proposed for the workspace under a policy that names the project first, a record is
entombed for the project, and the next proposal for the workspace brings it back. -/
theorem propose_resurrected :
    letI := primitives
    let created := propose (input ['a'] workspace 1) ⟨0, 5, 0, false⟩ empty
    let revoked := run [forget] created.2
    isCreated created.1 = true ∧ (revoked.records.lookup 5).map (·.state) = some .revoked ∧
      isCreated (propose (input ['a'] workspace 2) ⟨2, 6, 0, false⟩ revoked).1 = true := by
  decide +kernel

end Seyal.Agent.Memory
