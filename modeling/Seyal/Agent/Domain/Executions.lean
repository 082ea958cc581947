import Seyal.Agent.Domain.Reachable

namespace Seyal.Agent.Domain

open Program Mapping Run Relation

/-! The executions of runs, and those that are retired. -/

def AgentDomain.Current (domain : AgentDomain) (id : AgentRunId) (execution : ExecutionRef) : Prop :=
  ∃ run, domain.agentRuns.lookup id = some run ∧ run.currentExecution = some execution

open AgentDomain

instance (domain : AgentDomain) (id : AgentRunId) (execution : ExecutionRef) :
    Decidable (domain.Current id execution) :=
  decidable_of_iff ((domain.agentRuns.lookup id).bind AgentRun.currentExecution = some execution)
    Option.bind_eq_some_iff

/-- Retired executions stay retired, and what is current was so before or has been bound. -/
structure AgentDomain.Rebinds (binds : ExecutionRef → Prop) (before after : AgentDomain) : Prop where
  retired : ∀ execution ∈ before.retiredExecutions, execution ∈ after.retiredExecutions
  current : ∀ id execution, after.Current id execution → before.Current id execution ∨ binds execution

section Rebinds

variable {guard : Guard} {before after : Process} {binds : ExecutionRef → Prop}

theorem AgentDomain.Rebinds.refl (domain : AgentDomain) : domain.Rebinds binds domain :=
  ⟨fun _ => id, fun _ _ => .inl⟩

theorem AgentDomain.Rebinds.trans {first second third : AgentDomain} (one : first.Rebinds binds second)
    (two : second.Rebinds binds third) : first.Rebinds binds third where
  retired := fun execution gone => two.retired execution (one.retired execution gone)
  current id execution now := by
    rcases two.current id execution now with was | bound
    · exact one.current id execution was
    · exact .inr bound

theorem rebinds_same {first second : AgentDomain} (runs : second.agentRuns = first.agentRuns)
    (retired : ∀ execution ∈ first.retiredExecutions, execution ∈ second.retiredExecutions) :
    first.Rebinds binds second :=
  ⟨retired, fun id execution now => .inl (by simpa only [Current, runs] using now)⟩

theorem rebinds_withRun {id : AgentRunId} {next : AgentRun}
    (bound : ∀ execution, next.currentExecution = some execution →
      before.domain.Current id execution ∨ binds execution) :
    before.domain.Rebinds binds (before.withRun id next).domain where
  retired _ gone := gone
  current other execution now := by
    obtain ⟨run, found, held⟩ := now
    by_cases same : other = id
    · subst same
      cases (AList.lookup_insert _).symm.trans found
      exact bound execution held
    · exact .inl ⟨run, (AList.lookup_insert_ne same).symm.trans found, held⟩

theorem Edit.rebinds (edit : Edit guard before after) : before.domain.Rebinds guard.binds after.domain := by
  cases edit with
  | aside nextId workItems attempts agentRuns attachments retired =>
      exact rebinds_same agentRuns retired
  | newRun run found same unfinished only shut unbound =>
      exact @rebinds_withRun before.minted _ _ _ fun execution held => by simp [unbound] at held
  | editRun next found continues control bound =>
      exact rebinds_withRun fun execution held => (bound execution held).imp_left fun was => ⟨_, found, was⟩
  | advance next found continues control attached same =>
      exact rebinds_withRun fun execution held => .inl ⟨_, found, same ▸ held⟩
  | restoreRun run recovers issued attempt absent unbound =>
      exact rebinds_withRun fun execution held => by simp [unbound] at held
  | _ => exact rebinds_same rfl fun _ => id

theorem Edits.rebinds (edits : Edits guard before after) : before.domain.Rebinds guard.binds after.domain := by
  induction edits with
  | refl => exact .refl _
  | tail _ edit ih => exact ih.trans edit.rebinds

end Rebinds

section Binds

variable {before after : Process} {operation : Operation} {execution : ExecutionRef}

theorem Operation.within_of_not_binds {domain : AgentDomain} (free : operation.binds domain execution = false) :
    operation.Within ⟨True, True, True, (· ≠ execution)⟩ domain := by
  refine ⟨fun _ => trivial, fun _ => trivial, fun _ => trivial, ?_⟩
  rintro other bound rfl
  cases bound.symm.trans free

theorem Step.current_of_not_binds (step : Step before operation after) (known : before.Issued)
    (free : operation.binds before.domain execution = false) {id : AgentRunId} (now : after.domain.Current id execution) :
    before.domain.Current id execution :=
  ((GuardedStep.edits ⟨step, Operation.within_of_not_binds free⟩ known).rebinds.current id execution now).resolve_right
    fun other => other rfl

theorem Step.retired (step : Step before operation after) (known : before.Issued)
    (gone : execution ∈ before.domain.retiredExecutions) : execution ∈ after.domain.retiredExecutions :=
  (step.edits known).rebinds.retired execution gone

theorem Path.retired {operations : List Operation} (path : Path Step before operations after) (known : before.Issued)
    (gone : execution ∈ before.domain.retiredExecutions) :
    after.Issued ∧ execution ∈ after.domain.retiredExecutions := by
  induction path with
  | nil => exact ⟨known, gone⟩
  | cons step _ ih => exact ih ((step.edits known).issued known) (step.retired known gone)

theorem Path.current_of_not_binds {operations : List Operation}
    (path : Path (Meeting fun domain operation => !operation.binds domain execution) before operations after)
    (known : before.Issued) {id : AgentRunId} (now : after.domain.Current id execution) :
    before.domain.Current id execution := by
  induction path with
  | nil => exact now
  | cons step _ ih =>
      have free := (Bool.not_eq_true' _).mp step.2
      exact step.1.current_of_not_binds known free (ih ((step.1.edits known).issued known) now)

open Transition

theorem replaceExecution_spec (id : AgentRunId) (newExecution oldExecution : ExecutionRef) :
    wp (replaceExecution id newExecution oldExecution)
      (fun _ after => newExecution ≠ oldExecution ∧ before.domain.replaceable id newExecution oldExecution = true ∧
        oldExecution ∈ after.domain.retiredExecutions ∧ after.domain.Current id newExecution)
      (fun _ _ => before.domain.replaceable id newExecution oldExecution = false) before := by
  unfold replaceExecution
  simp only [wp_bind, wp_read, wp_write, wp_runMut, wp_refuseIf, wp_putRun]
  refine ⟨fun same => by simp [replaceable, same], fun different =>
    ⟨fun gone => by simp [replaceable, gone], fun live => ⟨fun run found =>
      ⟨fun ended => by simp [replaceable, found, ended], fun going => ?_⟩, fun absent => ?_⟩⟩⟩
  · refine ⟨different, by simp [replaceable, different, live, going, found], ?_, _, AList.lookup_insert _, rfl⟩
    exact List.mem_cons_self
  · simp [replaceable, absent]

theorem detectAndBind_spec (issued : before.Issued) (scope : WorkScopeId) (key : ExternalIdentityKey)
    (unbound : before.domain.detectionBindings.lookup key = none) (there : before.domain.workScopes.lookup scope ≠ none) :
    wp (detectAndBind scope key) (fun ids after => after.domain.Current ids.1.agentRunId key.executionRef)
      (fun _ _ => False) before := by
  unfold detectAndBind bindDetected requireScope mintWorkItem
  simp only [wp_bind, wp_read, unbound, wp_refuseIf, there, wp_uniqueId, wp_putItem, wp_pure, false_implies,
    not_false_eq_true, true_implies, true_and]
  have opened : Edit ⟨True, True, True, fun _ => True⟩ before (before.minted.withItem before.nextId
      { workScopeId := scope, lifecycle := .open, outcome := none, acceptanceMode := .humanFinal,
        relatedTo := none }) := .newItem _
  refine wp_mono (createCandidate_spec ⟨True, True, True, fun _ => True⟩ (opened.issued issued) before.nextId
    .initial none) ?_ ?_
  · rintro ids between ⟨_, run, made⟩
    simp only [wp_runMut, wp_putRun, wp_write]
    exact ⟨fun other found => ⟨_, AList.lookup_insert _, rfl⟩, fun absent => by cases made.symm.trans absent⟩
  · rintro _ after ⟨rfl, unfit⟩
    refine absurd ⟨⟨_, AList.lookup_insert _, fun final => by cases final⟩, fun id impossible => ?_⟩ unfit
    cases impossible

theorem Step.current_of_binds (step : Step before operation after) (known : before.Issued)
    (binds : operation.binds before.domain execution = true) : ∃ id, after.domain.Current id execution := by
  obtain ⟨_, outcome, ran⟩ := step
  cases operation with
  | replaceExecution id newExecution oldExecution =>
      simp only [Operation.binds, Bool.and_eq_true, decide_eq_true_eq] at binds
      obtain ⟨rfl, passes⟩ := binds
      have spec := @replaceExecution_spec before id newExecution oldExecution
      cases outcome with
      | ok => exact ⟨id, (wp_ok spec ran).2.2.2⟩
      | error => cases passes.symm.trans (wp_error spec ran)
  | detectAndBind scope key =>
      simp only [Operation.binds, Bool.and_eq_true, decide_eq_true_eq, Option.isNone_iff_eq_none] at binds
      obtain ⟨⟨rfl, unbound⟩, there⟩ := binds
      have spec : wp (done (detectAndBind scope key))
          (fun _ after => ∃ id, after.domain.Current id key.executionRef) (fun _ _ => False) before := by
        rw [wp_done]
        exact wp_mono (detectAndBind_spec known scope key unbound (Option.isSome_iff_ne_none.mp there))
          (fun ids _ now => ⟨ids.1.agentRunId, now⟩) fun _ _ => id
      cases outcome with
      | ok => exact wp_ok spec ran
      | error => exact (wp_error spec ran).elim
  | _ => cases binds

theorem replaceExecution_ok_iff (id : AgentRunId) (newExecution oldExecution : ExecutionRef) :
    (∃ replaced, replaceExecution id newExecution oldExecution before = some (.ok (), replaced)) ↔
      before.domain.replaceable id newExecution oldExecution = true := by
  have spec := @replaceExecution_spec before id newExecution oldExecution
  constructor
  · rintro ⟨replaced, ran⟩
    exact (wp_ok spec ran).2.1
  · intro passes
    obtain ⟨⟨outcome, replaced⟩, ran⟩ := Option.isSome_iff_exists.mp (isSome_of_wp spec)
    cases outcome with
    | ok => exact ⟨replaced, ran⟩
    | error => cases passes.symm.trans (wp_error spec ran)

/-- A replacement is made if the two executions differ, the old one is not retired and the run has not ended; that the
old one is current and the new one free is not looked at. From then on the old execution is retired, and a step makes
it current exactly if it replaces another one by it or detects it anew. -/
theorem replaced_stays_retired {start : Nat} {operations : List Operation} {process : Process}
    (path : Path Step { nextId := start } operations process) (id : AgentRunId)
    (newExecution oldExecution : ExecutionRef) :
    ((∃ replaced, replaceExecution id newExecution oldExecution process = some (.ok (), replaced)) ↔
      process.domain.replaceable id newExecution oldExecution = true) ∧
    ∀ replaced, replaceExecution id newExecution oldExecution process = some (.ok (), replaced) →
      (∀ more later operation last, Path Step replaced more later → Step later operation last →
        oldExecution ∈ last.domain.retiredExecutions ∧
        if operation.binds later.domain oldExecution then ∃ other, last.domain.Current other oldExecution
        else ∀ other, last.domain.Current other oldExecution → later.domain.Current other oldExecution) ∧
      ∀ more later, Path (Meeting fun domain operation => !operation.binds domain oldExecution) replaced more later →
        ∀ other, later.domain.Current other oldExecution → other ≠ id ∧ replaced.domain.Current other oldExecution := by
  refine ⟨replaceExecution_ok_iff id newExecution oldExecution, fun replaced replaces => ?_⟩
  obtain ⟨different, passes, gone, current⟩ := wp_ok (replaceExecution_spec id newExecution oldExecution) replaces
  have replacing : Step process (.replaceExecution id newExecution oldExecution) replaced := ⟨trivial, _, replaces⟩
  have known := Path.issued (path.snoc replacing)
  refine ⟨fun more later operation last further step => ?_, fun more later further other now => ?_⟩
  · obtain ⟨upto, still⟩ := Path.retired further known gone
    refine ⟨step.retired upto still, ?_⟩
    split
    next binds => exact step.current_of_binds upto binds
    next free => exact fun other => step.current_of_not_binds upto (Bool.not_eq_true _ ▸ free)
  · have earlier := Path.current_of_not_binds further known now
    refine ⟨?_, earlier⟩
    rintro rfl
    obtain ⟨run, found, held⟩ := earlier
    obtain ⟨same, there, new⟩ := current
    cases there.symm.trans found
    exact different (Option.some.inj (new.symm.trans held))

end Binds

namespace Sample

def detected : List Operation :=
  [.createWorkScope .project, .detectAndBind 1 { executionRef := 8, externalIdentity := 5 }]

def running : Process := Operation.applyAll detected {}

def replaced : Process := (Operation.replaceExecution 4 9 8).apply running

end Sample

/-- Detecting the harness under the execution it has now does not bring the old one back, replacing by it does. -/
theorem replaced_stays_retired_detected :
    ¬ ((Operation.detectAndBind 1 ⟨9, 5⟩).apply Sample.replaced).domain.Current 4 8 ∧
    ∃ other, ((Operation.replaceExecution 4 8 7).apply Sample.replaced).domain.Current other 8 := by
  have path : Path (Meeting Operation.plain) { nextId := 1 } Sample.detected Sample.running :=
    path_applyAll (issued_empty 1) (by decide +kernel)
  have stays := replaced_stays_retired (Path.steps path) 4 9 8
  obtain ⟨replaced, replaces⟩ := stays.1.mpr (by decide +kernel)
  cases (rfl : Transition.replaceExecution 4 9 8 Sample.running = some (.ok (), Sample.replaced)).symm.trans replaces
  have whole : Path (Meeting Operation.plain) { nextId := 1 } (Sample.detected ++ [.replaceExecution 4 9 8])
      Sample.replaced := path_applyAll (issued_empty 1) (by decide +kernel)
  have known := Path.issued (Path.steps whole)
  have detecting : Meeting (fun domain operation => !operation.binds domain 8) Sample.replaced
      (.detectAndBind 1 ⟨9, 5⟩) _ := ⟨Operation.step_apply known rfl, by decide +kernel⟩
  have back := (stays.2 _ replaces).1 [] _ (.replaceExecution 4 8 7) _ .nil (Operation.step_apply known rfl)
  exact ⟨fun now => ((stays.2 _ replaces).2 _ _ (.cons detecting .nil) 4 now).1 rfl, back.2⟩

/-- An execution that was never current is replaced by the retired one. -/
theorem replaced_comes_back :
    ∃ operations process replaced last, Path (Meeting Operation.plain) {} operations process ∧
      Transition.replaceExecution 4 9 8 process = some (.ok (), replaced) ∧
      Transition.replaceExecution 4 8 7 replaced = some (.ok (), last) ∧
      8 ∈ replaced.domain.retiredExecutions ∧ ¬ replaced.domain.Current 4 7 ∧ last.domain.Current 4 8 := by
  have path : Path (Meeting Operation.plain) {} Sample.detected Sample.running :=
    path_applyAll (issued_empty 1) (by decide +kernel)
  exact ⟨_, _, Sample.replaced, (Operation.replaceExecution 4 8 7).apply Sample.replaced, path, rfl, rfl,
    by decide +kernel, by decide +kernel, by decide +kernel⟩

end Seyal.Agent.Domain
