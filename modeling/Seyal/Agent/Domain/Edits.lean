import Seyal.Agent.Domain.Transitions

namespace Seyal.Agent.Domain

open Program Mapping Relation

/-! What a transition can do to the domain, as the edits it is made of. -/

attribute [grind =] Process.minted Process.withItem Process.withAttempt Process.withRun Process.withAttachments

/-- What may happen in a run: rows are recovered, a run is created under a closed attempt, a
control generation advances under an attached client, an execution becomes the current one of a run. -/
structure Guard where
  recovers : Prop
  reopens : Prop
  outpaces : Prop
  binds : ExecutionRef → Prop

def AgentDomain.HasController (domain : AgentDomain) (agentRunId : AgentRunId) : Prop :=
  ∃ session attachment, domain.attachments.lookup session = some attachment ∧
    attachment.agentRunId = agentRunId ∧ attachment.access = .control

/-- The fields of a run that no edit of the run changes. -/
structure AgentRun.Continues (run next : AgentRun) : Prop where
  attempt : next.attemptId = run.attemptId
  item : next.workItemId = run.workItemId
  ended : run.lifecycle = .terminated → next.lifecycle = .terminated ∧ next.termination = run.termination

inductive Edit (guard : Guard) (before : Process) : Process → Prop where
  | aside {after : Process} (nextId : before.nextId ≤ after.nextId)
      (workItems : after.domain.workItems = before.domain.workItems)
      (attempts : after.domain.attempts = before.domain.attempts)
      (agentRuns : after.domain.agentRuns = before.domain.agentRuns)
      (attachments : after.domain.attachments = before.domain.attachments)
      (retired : ∀ execution ∈ before.domain.retiredExecutions, execution ∈ after.domain.retiredExecutions) :
      Edit guard before after
  | newItem (item : WorkItem) :
      Edit guard before (before.minted.withItem before.nextId item)
  | editItem {id : WorkItemId} {item : WorkItem} (next : WorkItem)
      (found : before.domain.workItems.lookup id = some item)
      (final : item.lifecycle = .finalized → next.lifecycle = .finalized) :
      Edit guard before (before.withItem id next)
  | newAttempt {item : WorkItem} (attempt : Attempt) (created : attempt.lifecycle = .created)
      (found : before.domain.workItems.lookup attempt.workItemId = some item)
      (unfinished : item.lifecycle ≠ .finalized) :
      Edit guard before (before.minted.withAttempt before.nextId attempt)
  | editAttempt {id : AttemptId} {attempt : Attempt} (next : Attempt)
      (found : before.domain.attempts.lookup id = some attempt)
      (item : next.workItemId = attempt.workItemId)
      (shut : attempt.lifecycle = .closed → next.lifecycle = .closed)
      (closes : attempt.lifecycle ≠ .closed → next.lifecycle = .closed →
        ∀ other run, before.domain.agentRuns.lookup other = some run → run.attemptId = id →
          run.lifecycle = .terminated) :
      Edit guard before (before.withAttempt id next)
  | newRun {attempt : Attempt} (run : AgentRun)
      (found : before.domain.attempts.lookup run.attemptId = some attempt)
      (same : run.workItemId = attempt.workItemId)
      (unfinished : ∀ item, before.domain.workItems.lookup attempt.workItemId = some item → item.lifecycle ≠ .finalized)
      (only : ∀ other existing, before.domain.agentRuns.lookup other = some existing →
        existing.attemptId ≠ run.attemptId)
      (shut : attempt.lifecycle = .closed → guard.reopens) (unbound : run.currentExecution = none) :
      Edit guard before (before.minted.withRun before.nextId run)
  | editRun {id : AgentRunId} {run : AgentRun} (next : AgentRun)
      (found : before.domain.agentRuns.lookup id = some run) (continues : run.Continues next)
      (control : next.controlGeneration = run.controlGeneration)
      (bound : ∀ execution, next.currentExecution = some execution →
        run.currentExecution = some execution ∨ guard.binds execution) :
      Edit guard before (before.withRun id next)
  | advance {id : AgentRunId} {run : AgentRun} (next : AgentRun)
      (found : before.domain.agentRuns.lookup id = some run) (continues : run.Continues next)
      (control : run.controlGeneration < next.controlGeneration)
      (attached : before.domain.HasController id → guard.outpaces)
      (same : next.currentExecution = run.currentExecution) :
      Edit guard before (before.withRun id next)
  | attach {run : AgentRun} (session : ClientSessionId) (attachment : Attachment)
      (found : before.domain.agentRuns.lookup attachment.agentRunId = some run)
      (epoch : attachment.controlEpoch = run.controlGeneration) :
      Edit guard before (before.withAttachments (before.domain.attachments.insert session attachment))
  | detach (attachments : Mapping ClientSessionId Attachment)
      (fewer : ∀ session attachment, attachments.lookup session = some attachment →
        before.domain.attachments.lookup session = some attachment) :
      Edit guard before (before.withAttachments attachments)
  | restoreItem {id : WorkItemId} (item : WorkItem) (recovers : guard.recovers) (issued : id < before.nextId)
      (absent : before.domain.workItems.lookup id = none) :
      Edit guard before (before.withItem id item)
  | restoreAttempt {id : AttemptId} {item : WorkItem} (attempt : Attempt) (recovers : guard.recovers)
      (issued : id < before.nextId) (absent : before.domain.attempts.lookup id = none)
      (found : before.domain.workItems.lookup attempt.workItemId = some item) :
      Edit guard before (before.withAttempt id attempt)
  | restoreRun {id : AgentRunId} (run : AgentRun) (recovers : guard.recovers) (issued : id < before.nextId)
      (attempt : run.attemptId < before.nextId) (absent : before.domain.agentRuns.lookup id = none)
      (unbound : run.currentExecution = none) :
      Edit guard before (before.withRun id run)

theorem Edit.change {guard : Guard} {before : Process} {id : AgentRunId} {run : AgentRun} (next : AgentRun)
    (found : before.domain.agentRuns.lookup id = some run) (continues : run.Continues next)
    (control : next.controlGeneration = run.controlGeneration)
    (same : next.currentExecution = run.currentExecution) : Edit guard before (before.withRun id next) :=
  .editRun next found continues control fun _ held => .inl (same ▸ held)

def Edits (guard : Guard) : Process → Process → Prop := ReflTransGen (Edit guard)

/-- Identifiers in use have been issued, and an attempt is at a known work item. -/
structure Process.Issued (process : Process) : Prop where
  items : ∀ id item, process.domain.workItems.lookup id = some item → id < process.nextId
  attempts : ∀ id attempt, process.domain.attempts.lookup id = some attempt →
    id < process.nextId ∧ ∃ item, process.domain.workItems.lookup attempt.workItemId = some item
  runs : ∀ id run, process.domain.agentRuns.lookup id = some run →
    id < process.nextId ∧ run.attemptId < process.nextId

/-- Rows stay, and what is final stays as it is. -/
structure AgentDomain.Lasts (before after : AgentDomain) : Prop where
  items : ∀ id item, before.workItems.lookup id = some item → item.lifecycle = .finalized →
    ∃ next, after.workItems.lookup id = some next ∧ next.lifecycle = .finalized
  attempts : ∀ id attempt, before.attempts.lookup id = some attempt →
    ∃ next, after.attempts.lookup id = some next ∧ next.workItemId = attempt.workItemId ∧
      (attempt.lifecycle = .closed → next.lifecycle = .closed)
  runs : ∀ id run, before.agentRuns.lookup id = some run →
    ∃ next, after.agentRuns.lookup id = some next ∧ run.Continues next ∧
      run.controlGeneration ≤ next.controlGeneration

/-- Nothing is added under a finalized work item. -/
structure AgentDomain.Adds (before after : AgentDomain) : Prop where
  attempts : ∀ id attempt item, after.attempts.lookup id = some attempt → before.attempts.lookup id = none →
    before.workItems.lookup attempt.workItemId = some item → item.lifecycle ≠ .finalized
  runs : ∀ id run item, after.agentRuns.lookup id = some run → before.agentRuns.lookup id = none →
    before.workItems.lookup run.workItemId = some item → item.lifecycle ≠ .finalized

/-- Every run is the one run of an attempt at the run's work item. -/
structure AgentDomain.Coherent (domain : AgentDomain) : Prop where
  attempt : ∀ id run, domain.agentRuns.lookup id = some run →
    ∃ attempt, domain.attempts.lookup run.attemptId = some attempt ∧ attempt.workItemId = run.workItemId
  single : ∀ first second run other, domain.agentRuns.lookup first = some run →
    domain.agentRuns.lookup second = some other → run.attemptId = other.attemptId → first = second

/-- The run of a closed attempt is terminated. -/
def AgentDomain.ClosedDone (domain : AgentDomain) : Prop :=
  ∀ id run attempt, domain.agentRuns.lookup id = some run → domain.attempts.lookup run.attemptId = some attempt →
    attempt.lifecycle = .closed → run.lifecycle = .terminated

/-- The epoch a controlling client was issued is its run's control generation. -/
def AgentDomain.Fenced (domain : AgentDomain) : Prop :=
  ∀ session attachment, domain.attachments.lookup session = some attachment → attachment.access = .control →
    ∃ run, domain.agentRuns.lookup attachment.agentRunId = some run ∧
      attachment.controlEpoch = run.controlGeneration

section Keeping

variable {guard : Guard} {before after : Process}

theorem AgentRun.Continues.refl (run : AgentRun) : run.Continues run := ⟨rfl, rfl, fun ended => ⟨ended, rfl⟩⟩

theorem AgentRun.Continues.trans {run next last : AgentRun} (first : run.Continues next) (second : next.Continues last) :
    run.Continues last := by
  refine ⟨second.attempt.trans first.attempt, second.item.trans first.item, fun ended => ?_⟩
  obtain ⟨still, termination⟩ := first.ended ended
  obtain ⟨final, same⟩ := second.ended still
  exact ⟨final, same.trans termination⟩

theorem Edit.issued (edit : Edit guard before after) (issued : before.Issued) : after.Issued := by
  obtain ⟨items, attempts, runs⟩ := issued
  cases edit with
  | aside | newItem | editItem | newAttempt | editAttempt | newRun => exact ⟨by grind, by grind, by grind⟩
  | editRun next found continues control | advance next found continues control attached =>
      have same := continues.attempt
      exact ⟨by grind, by grind, by grind⟩
  | attach | detach => exact ⟨items, attempts, runs⟩
  | restoreItem | restoreAttempt | restoreRun => exact ⟨by grind, by grind, by grind⟩

theorem AgentDomain.Lasts.refl (domain : AgentDomain) : domain.Lasts domain where
  items _ item found final := ⟨item, found, final⟩
  attempts _ attempt found := ⟨attempt, found, rfl, id⟩
  runs _ run found := ⟨run, found, .refl run, Nat.le_refl _⟩

theorem AgentDomain.Lasts.trans {first second third : AgentDomain} (one : first.Lasts second) (two : second.Lasts third) :
    first.Lasts third where
  items id item found final := by
    obtain ⟨next, there, still⟩ := one.items id item found final
    exact two.items id next there still
  attempts id attempt found := by
    obtain ⟨next, there, same, shut⟩ := one.attempts id attempt found
    obtain ⟨last, here, still, closed⟩ := two.attempts id next there
    exact ⟨last, here, still.trans same, fun closed_ => closed (shut closed_)⟩
  runs id run found := by
    obtain ⟨next, there, continues, grows⟩ := one.runs id run found
    obtain ⟨last, here, further, more⟩ := two.runs id next there
    exact ⟨last, here, continues.trans further, grows.trans more⟩

theorem AgentDomain.Adds.trans {first second third : AgentDomain} (lasts : first.Lasts second)
    (later : second.Lasts third) (one : first.Adds second) (two : second.Adds third) : first.Adds third where
  attempts id attempt item found absent there final := by
    obtain ⟨next, still, finished⟩ := lasts.items _ item there final
    cases between : second.attempts.lookup id with
    | none => exact two.attempts id attempt next found between still finished
    | some middle =>
        obtain ⟨last, here, same, _⟩ := later.attempts id middle between
        cases here.symm.trans found
        exact one.attempts id middle item between absent (same ▸ there) final
  runs id run item found absent there final := by
    obtain ⟨next, still, finished⟩ := lasts.items _ item there final
    cases between : second.agentRuns.lookup id with
    | none => exact two.runs id run next found between still finished
    | some middle =>
        obtain ⟨last, here, continues, _⟩ := later.runs id middle between
        cases here.symm.trans found
        exact one.runs id middle item between absent (continues.item ▸ there) final

theorem Edit.lasts (edit : Edit guard before after) (issued : before.Issued) :
    before.domain.Lasts after.domain := by
  obtain ⟨items, attempts, runs⟩ := issued
  have same := AgentRun.Continues.refl
  cases edit with
  | aside | newItem | editItem | newAttempt | editAttempt | newRun | editRun | advance | attach | detach
  | restoreItem | restoreAttempt | restoreRun => exact ⟨by grind, by grind, by grind⟩

theorem Edit.adds (edit : Edit guard before after) (issued : before.Issued) (fresh : ¬ guard.recovers) :
    before.domain.Adds after.domain := by
  obtain ⟨items, attempts, runs⟩ := issued
  cases edit with
  | restoreItem item recovers | restoreAttempt attempt recovers | restoreRun run recovers =>
      exact absurd recovers fresh
  | _ => exact ⟨by grind, by grind⟩

theorem Edit.coherent (edit : Edit guard before after) (issued : before.Issued) (fresh : ¬ guard.recovers)
    (coherent : before.domain.Coherent) : after.domain.Coherent := by
  obtain ⟨items, attempts, runs⟩ := issued
  obtain ⟨attempt, single⟩ := coherent
  cases edit with
  | restoreItem item recovers | restoreAttempt attempt recovers | restoreRun run recovers =>
      exact absurd recovers fresh
  | editRun next found continues control | advance next found continues control =>
      obtain ⟨sameAttempt, sameItem, _⟩ := continues
      exact ⟨by grind, by grind⟩
  | _ => exact ⟨by grind, by grind⟩

theorem Edit.closedDone (edit : Edit guard before after) (issued : before.Issued) (fresh : ¬ guard.recovers)
    (shut : ¬ guard.reopens) (done : before.domain.ClosedDone) : after.domain.ClosedDone := by
  obtain ⟨items, attempts, runs⟩ := issued
  unfold AgentDomain.ClosedDone at done ⊢
  cases edit with
  | restoreItem item recovers | restoreAttempt attempt recovers | restoreRun run recovers =>
      exact absurd recovers fresh
  | editRun next found continues control | advance next found continues control =>
      obtain ⟨sameAttempt, _, ended⟩ := continues
      grind
  | _ => grind

theorem Edit.fenced (edit : Edit guard before after) (issued : before.Issued) (kept : ¬ guard.outpaces)
    (fenced : before.domain.Fenced) : after.domain.Fenced := by
  obtain ⟨items, attempts, runs⟩ := issued
  unfold AgentDomain.Fenced at fenced ⊢
  cases edit with
  | advance next found continues control attached =>
      have alone : ¬ before.domain.HasController _ := fun client => kept (attached client)
      unfold AgentDomain.HasController at alone
      grind
  | _ => grind

theorem Edits.keeps (edits : Edits guard before after) (holds : Process → Prop) (start : holds before)
    (keeps : ∀ process next, Edit guard process next → holds process → holds next) : holds after := by
  induction edits with
  | refl => exact start
  | tail _ edit so => exact keeps _ _ edit so

theorem Edits.issued (edits : Edits guard before after) (issued : before.Issued) : after.Issued :=
  edits.keeps Process.Issued issued fun _ _ edit => edit.issued

theorem Edits.lasts (edits : Edits guard before after) (issued : before.Issued) :
    before.domain.Lasts after.domain := by
  induction edits with
  | refl => exact .refl _
  | tail edits edit so => exact so.trans (edit.lasts (Edits.issued edits issued))

theorem Edits.adds (edits : Edits guard before after) (issued : before.Issued) (fresh : ¬ guard.recovers) :
    before.domain.Adds after.domain := by
  induction edits with
  | refl => exact ⟨by grind, by grind⟩
  | tail edits edit so =>
      have known := Edits.issued edits issued
      exact .trans (Edits.lasts edits issued) (edit.lasts known) so (edit.adds known fresh)

end Keeping

end Seyal.Agent.Domain
