import Seyal.Protocol.BlockState

namespace Seyal.Client.Blocks

open Protocol

/-! The cache in which a client keeps the block of its execution, and what it makes of the frames it reads. -/

inductive BlockApply where
  | applied
  | duplicate
  | stale
  deriving Repr, DecidableEq

inductive BlockCacheError where
  | quarantined
  | conflict
  deriving Repr, DecidableEq

structure BlockCache where
  accepted : Option BlockState := none
  quarantined : Bool := false
  deriving Repr, DecidableEq

namespace BlockCache

def visible (cache : BlockCache) : Option BlockState := if cache.quarantined then none else cache.accepted

theorem visible_eq_some {cache : BlockCache} {block : BlockState} :
    cache.visible = some block ↔ cache.quarantined = false ∧ cache.accepted = some block := by
  simp [visible]

def quarantine (cache : BlockCache) : BlockCache := { cache with quarantined := true }

def conflict (cache : BlockCache) : Except BlockCacheError BlockApply × BlockCache :=
  (.error .conflict, cache.quarantine)

def apply (cache : BlockCache) (expectedExecution : ExecutionId) (incoming : BlockState) :
    Except BlockCacheError BlockApply × BlockCache :=
  if cache.quarantined then (.error .quarantined, cache)
  else if incoming.executionId ≠ expectedExecution then cache.conflict
  else if ¬ (incoming.state = .current ∧ incoming.revision = 1 ∨ incoming.state = .completed ∧ incoming.revision = 2) then
    cache.conflict
  else
    match cache.accepted with
    | none =>
        if incoming.state ≠ .current ∨ incoming.revision ≠ 1 then cache.conflict
        else (.ok .applied, { cache with accepted := some incoming })
    | some current =>
        if incoming.blockId ≠ current.blockId ∨ incoming.executionId ≠ current.executionId ∨
            incoming.startLineId ≠ current.startLineId ∨ incoming.kind ≠ current.kind then cache.conflict
        else if current.state = .completed ∧ incoming.state = .current then cache.conflict
        else if incoming.revision < current.revision then (.ok .stale, cache)
        else if incoming.revision = current.revision then
          if incoming = current then (.ok .duplicate, cache) else cache.conflict
        else if current.state = .current ∧ current.revision = 1 ∧ incoming.state = .completed ∧ incoming.revision = 2 then
          (.ok .applied, { cache with accepted := some incoming })
        else cache.conflict

def completed (block : BlockState) : BlockState := { block with state := .completed, revision := 2 }

/-- What may become of a cache that is not quarantined: its block stays or is completed, and a first one is of the
execution. -/
def Progress (executionId : ExecutionId) (cache next : BlockCache) : Prop :=
  next.quarantined = false → cache.quarantined = false ∧
    (cache.accepted = none → ∀ block, next.accepted = some block → block.executionId = executionId) ∧
    ∀ old, cache.accepted = some old →
      next.accepted = some old ∨ old.state = .current ∧ next.accepted = some (completed old)

variable {executionId : ExecutionId} {cache middle next : BlockCache}

theorem Progress.refused (closed : next.quarantined = true) : Progress executionId cache next := by
  intro calm
  rw [closed] at calm
  cases calm

theorem Progress.same : Progress executionId cache cache := by
  refine fun calm => ⟨calm, fun empty block held => ?_, fun old held => .inl held⟩
  simp [empty] at held

theorem Progress.trans (first : Progress executionId cache middle) (second : Progress executionId middle next) :
    Progress executionId cache next := by
  -- A block that was completed is not current, so it is completed once at most.
  cases between : middle.accepted <;> grind [Progress, completed]

theorem apply_progress (cache : BlockCache) (executionId : ExecutionId) (incoming : BlockState) :
    Progress executionId cache (cache.apply executionId incoming).2 := by
  unfold apply
  cases held : cache.accepted with
  | none =>
      simp only [ne_eq]
      split_ifs with closed owned <;> try exact .refused rfl
      · exact .refused closed
      · exact fun calm => ⟨calm, by simp [held, owned]⟩
  | some current =>
      simp only [ne_eq]
      split_ifs with closed owned known alike back old again same ends <;> try first | exact .same | exact .refused rfl
      have same : incoming = completed current := by ext1 <;> simp_all [completed]
      exact fun calm => ⟨calm, by simp [held, ends.1, same]⟩

end BlockCache

inductive PresentationFrameDisposition where
  | legacy
  | current
  | discard
  | unexpectedFuture
  deriving Repr, DecidableEq

def PresentationFrameDisposition.mustDiscard : PresentationFrameDisposition → Bool
  | .discard | .unexpectedFuture => true
  | .legacy | .current => false

/-- What `poll_prepare` reads: a block frame, as `classify_presentation_frame` disposes of it, or `Lifecycle::Finalized`. -/
inductive Message where
  | blockState (disposition : PresentationFrameDisposition) (payload : List UInt8)
  | finalized
  deriving Repr, DecidableEq

inductive ClientError where
  | blockMetadataConflict
  | noRunningExecution
  deriving Repr, DecidableEq

structure LocalDisplayClient where
  executionId : ExecutionId
  blockMetadataNegotiated : Bool

namespace LocalDisplayClient

/-- A frame that is discarded, as every one is while the delivery is suspended, does not reach the cache. -/
def handle (client : LocalDisplayClient) (cache : BlockCache) : Message → Except ClientError Unit × BlockCache
  | .blockState disposition payload =>
      if disposition.mustDiscard then (.ok (), cache)
      else if ¬ client.blockMetadataNegotiated then (.error .blockMetadataConflict, cache.quarantine)
      else
        match BlockState.decode payload with
        | .error _ => (.error .blockMetadataConflict, cache.quarantine)
        | .ok incoming =>
            match cache.apply client.executionId incoming with
            | (.ok _, next) => (.ok (), next)
            | (.error _, next) => (.error .blockMetadataConflict, next.quarantine)
  | .finalized =>
      if client.blockMetadataNegotiated ∧ cache.visible.map BlockState.state = some .current then
        (.error .noRunningExecution, cache.quarantine)
      else (.error .noRunningExecution, cache)

theorem handle_progress (client : LocalDisplayClient) (cache : BlockCache) (message : Message) :
    cache.Progress client.executionId (client.handle cache message).2 := by
  cases message with
  | finalized => grind [handle, BlockCache.Progress, BlockCache.quarantine]
  | blockState disposition payload =>
      have progress := cache.apply_progress client.executionId
      grind [handle, BlockCache.Progress, BlockCache.quarantine]

/-- The cache behind these messages, one after the other. -/
def reads (client : LocalDisplayClient) (cache : BlockCache) (messages : List Message) : BlockCache :=
  messages.foldl (fun cache message => (client.handle cache message).2) cache

theorem reads_progress (client : LocalDisplayClient) (cache : BlockCache) (messages : List Message) :
    cache.Progress client.executionId (client.reads cache messages) := by
  induction messages generalizing cache with
  | nil => exact .same
  | cons message rest ih => exact (client.handle_progress cache message).trans (ih _)

/-- Whatever is sent, what a client shows is a block of its execution, which can only be completed; and nothing is
shown again once something was refused. -/
theorem visible_only_completes (client : LocalDisplayClient) (before after : List Message) {block : BlockState}
    (shown : (client.reads (client.reads {} before) after).visible = some block) :
    (client.reads {} before).quarantined = false ∧ block.executionId = client.executionId ∧
      ∀ old, (client.reads {} before).visible = some old →
        block = old ∨ old.state = .current ∧ block = { old with state := .completed, revision := 2 } := by
  obtain ⟨calm, accepted⟩ := BlockCache.visible_eq_some.mp shown
  have later := client.reads_progress (client.reads {} before) after
  have whole := (client.reads_progress {} before).trans later
  refine ⟨(later calm).1, (whole calm).2.1 rfl block accepted, ?_⟩
  intro old earlier
  have held := (later calm).2.2 old (BlockCache.visible_eq_some.mp earlier).2
  rwa [accepted, Option.some.injEq, Option.some.injEq] at held

/-- A current block, a frame that a suspended client discards, and the completion. -/
theorem visible_only_completes_ended :
    let current : BlockState := ⟨1, 2, 1, 4, .terminalActivity, .current⟩
    let completed : BlockState := ⟨1, 2, 2, 4, .terminalActivity, .completed⟩
    let first : BlockCache := reads ⟨1, true⟩ {} [.blockState .legacy current.layout]
    first.visible = some current ∧ current ≠ completed ∧
      (reads ⟨1, true⟩ first [.blockState .discard [], .blockState .current completed.layout]).visible =
        some completed ∧
      (completed = current ∨
        current.state = .current ∧ completed = { current with state := .completed, revision := 2 }) :=
  have shown := by decide
  have ended := by decide
  ⟨shown, by decide, ended, (visible_only_completes ⟨1, true⟩ [_] [_, _] ended).2.2 _ shown⟩

end LocalDisplayClient

end Seyal.Client.Blocks
