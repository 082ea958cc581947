import Seyal.Agent.Action.Run

namespace Seyal.Agent.Action

open Program Relation Sample RecoveryEvidence

/-! No effect is repeated and no outcome invented, whatever the interleaving, the
crashes and the evidence. -/

namespace Phase

variable {phase after : Phase} {events : List Event}

theorem Step.entersDispatching {event : Event} (step : Step phase event after)
    (enters : event.entersDispatching = true) : after.lifecycle = .dispatching := by
  cases step with
  | dispatched => rfl
  | kept settled idle => exact absurd (of_decide_eq_true enters) idle
  | ended ending authentic asked running => rcases ending with rfl | rfl <;> cases enters
  | resumed pending asked kind authentic => rfl
  | authorized | invalidated | withdrawn | returned _ _ _ | unknown _ _ | cancelledBefore _ | cancelledAfter _ =>
      cases enters

theorem Step.not_entering_of_closed {event : Event} (step : Step phase event after) (closed : phase.Closed) :
    event.entersDispatching = false := by
  by_contra enters
  have entered := step.entersDispatching (Bool.not_eq_false _ ▸ enters)
  rcases (step.closed closed).1 with terminal | cancelled
  · rw [entered] at terminal
    cases terminal
  · rw [entered] at cancelled
    cases cancelled

theorem Path.not_entering {evidence : RecoveryEvidence} {first second : ActionLifecycle}
    (path : Phase.Path phase (.decided .cancelled evidence first second :: events) after) :
    ∀ event ∈ events, event.entersDispatching = false := by
  cases path with
  | cons step rest =>
      intro event member
      have kept := rest.invariant step.closed_of_cancelled fun _ _ _ _ step closed => (step.closed closed).1
      obtain ⟨state, next, step, closed⟩ := kept.2 event member
      exact step.not_entering_of_closed closed

theorem Step.resumes {cause : Cause} {evidence : RecoveryEvidence} {before : ActionLifecycle}
    (step : Step phase (.decided cause evidence before .dispatching) after) :
    before.Pending ∧ evidence.kind = .validatedIdempotencyContract ∧ evidence.executorAuthenticated = true ∧
      phase.lifecycle = before := by
  generalize target : ActionLifecycle.dispatching = last at step
  cases step with
  | kept settled idle => exact absurd target.symm idle
  | resumed pending asked kind authentic => exact ⟨pending, kind, authentic, rfl⟩
  | ended ending _ _ _ => subst target; rcases ending with ending | ending <;> cases ending
  | withdrawn | returned _ _ _ | unknown _ _ | cancelledBefore _ | cancelledAfter _ => cases target

theorem Step.unauthenticated {cause : Cause} {evidence : RecoveryEvidence} {before last : ActionLifecycle}
    (step : Step phase (.decided cause evidence before last) after)
    (doubtful : evidence.executorAuthenticated = false) (moves : before ≠ last) :
    last ≠ .succeeded ∧ last ≠ .failedKnown ∧ (last = .prepared → before = .authorized) := by
  cases step with
  | kept settled idle => exact absurd rfl moves
  | withdrawn => exact ⟨by decide, by decide, fun _ => rfl⟩
  | returned pending asked denies =>
      rw [denies.2.1] at doubtful
      cases doubtful
  | ended ending authentic asked running =>
      rw [authentic] at doubtful
      cases doubtful
  | unknown _ _ | resumed _ _ _ _ | cancelledBefore _ | cancelledAfter _ =>
      exact ⟨by decide, by decide, fun wrong => by cases wrong⟩

end Phase

section Runs

variable [IntentDigest] {initial : AgentStore} {pool later : AgentPool}
  {actionId : ActionId} {row : ActionRow}

theorem Database.Commits.settled {before after : Database} (commits : before.Commits after)
    (present : before.actions.lookup actionId = some row) (terminal : row.lifecycle.isKnownTerminal = true) :
    ∃ next, after.actions.lookup actionId = some next ∧ next.lifecycle = row.lifecycle := by
  rcases commits.at_row present with same | ⟨next, _, there, _, step, _⟩
  · exact ⟨row, same, rfl⟩
  · exact ⟨next, there, step.settled terminal⟩

theorem AgentPool.Reached.settled (fresh : initial.Fresh)
    (reached : AgentPool.Reached initial pool) (onward : ReflTransGen AgentPool.Step pool later)
    (present : pool.shared.database.actions.lookup actionId = some row)
    (terminal : row.lifecycle.isKnownTerminal = true) :
    ∃ next, later.shared.database.actions.lookup actionId = some next ∧ next.lifecycle = row.lifecycle := by
  induction onward with
  | refl => exact ⟨row, present, rfl⟩
  | tail further step before =>
      obtain ⟨next, there, same⟩ := before
      have follows := AgentPool.Reached.follows fresh (reached.trans further) step
      obtain ⟨last, here, kept⟩ := follows.settled there (same ▸ terminal)
      exact ⟨last, here, kept.trans same⟩

open AgentPool

theorem Database.Sound.path_from {database : Database} {front back : List Event} {event : Event}
    (sound : database.Sound) (events : database.eventsOf actionId = front ++ event :: back)
    (later : event ≠ .prepared) : ∃ phase last, Phase.Path phase (event :: back) last := by
  cases present : database.actions.lookup actionId with
  | none =>
      rw [sound.absent actionId present] at events
      simp at events
  | some row =>
      obtain ⟨rest, here, path⟩ := sound.path actionId row present
      rw [here] at events
      cases front with
      | nil => exact absurd (List.cons.inj events).1.symm later
      | cons first front =>
          rw [List.cons_append, List.cons.injEq] at events
          rw [events.2] at path
          obtain ⟨phase, _, behind⟩ := path.split
          exact ⟨phase, row.phase, behind⟩

theorem Database.Sound.step_of_mem {database : Database} {event : Event} (sound : database.Sound)
    (member : event ∈ database.eventsOf actionId) (later : event ≠ .prepared) :
    ∃ phase last, Phase.Step phase event last := by
  obtain ⟨front, back, events⟩ := List.append_of_mem member
  obtain ⟨phase, last, path⟩ := sound.path_from events later
  cases path with
  | cons step _ => exact ⟨_, _, step⟩

theorem Database.Sound.denied {database : Database} {front middle back : List Event}
    {generation nowMs policyGeneration : Nat} {approval : Option ApprovalId} {last : Event}
    (sound : database.Sound)
    (events : database.eventsOf actionId =
      front ++ .dispatched generation nowMs policyGeneration approval :: (middle ++ last :: back))
    (dispatched : last.isDispatched = true) :
    ∃ cause evidence before after, Event.decided cause evidence before after ∈ middle ∧
      evidence.Denies generation := by
  obtain ⟨phase, _, path⟩ := sound.path_from events (by simp)
  have regrouped : .dispatched generation nowMs policyGeneration approval :: (middle ++ last :: back) =
      (.dispatched generation nowMs policyGeneration approval :: middle ++ [last]) ++ back := by simp
  rw [regrouped] at path
  obtain ⟨_, between, _⟩ := path.split
  exact Phase.Path.denied between dispatched

/-- Effect safety. An Action is where its committed events took it; known outcomes stay; nothing is dispatched
behind a cancellation;
between two dispatches the first was denied by evidence its executor vouches for;
Dispatching is entered otherwise only to resume the dispatch under way; and evidence
nobody vouches for neither settles an Action nor returns a dispatched one. -/
theorem AgentPool.Reached.effects_safe (fresh : initial.Fresh)
    (reached : Reached initial pool) (actionId : ActionId) :
    (∀ row, pool.shared.database.actions.lookup actionId = some row →
      ∃ events, pool.shared.database.eventsOf actionId = .prepared :: events ∧
        Phase.Path Phase.start events row.phase) ∧
    (∀ later row, ReflTransGen Step pool later →
      pool.shared.database.actions.lookup actionId = some row → row.lifecycle.isKnownTerminal = true →
      ∃ next, later.shared.database.actions.lookup actionId = some next ∧ next.lifecycle = row.lifecycle) ∧
    (∀ front back evidence first second,
      pool.shared.database.eventsOf actionId = front ++ .decided .cancelled evidence first second :: back →
      ∀ event ∈ back, event.entersDispatching = false) ∧
    (∀ front middle back generation nowMs policyGeneration approval last,
      pool.shared.database.eventsOf actionId =
        front ++ .dispatched generation nowMs policyGeneration approval :: (middle ++ last :: back) →
      last.isDispatched = true →
      ∃ cause evidence before after, Event.decided cause evidence before after ∈ middle ∧
        evidence.Denies generation) ∧
    (∀ cause evidence before, Event.decided cause evidence before .dispatching ∈
        pool.shared.database.eventsOf actionId →
      before.Pending ∧ evidence.kind = .validatedIdempotencyContract ∧ evidence.executorAuthenticated = true) ∧
    (∀ cause evidence before after, Event.decided cause evidence before after ∈
        pool.shared.database.eventsOf actionId →
      evidence.executorAuthenticated = false → before ≠ after →
      after ≠ .succeeded ∧ after ≠ .failedKnown ∧ (after = .prepared → before = .authorized)) := by
  have sound := Reached.sound fresh reached
  refine ⟨fun row present => sound.path actionId row present, fun later row onward present terminal => ?_,
    ?_, ?_, ?_, ?_⟩
  · exact Reached.settled fresh reached onward present terminal
  · intro front back evidence first second events
    obtain ⟨phase, last, path⟩ := sound.path_from events (by simp)
    exact Phase.Path.not_entering path
  · intro front middle back generation nowMs policyGeneration approval last events dispatched
    exact sound.denied events dispatched
  · intro cause evidence before member
    obtain ⟨phase, last, step⟩ := sound.step_of_mem member (by simp)
    obtain ⟨pending, kind, authentic, _⟩ := step.resumes
    exact ⟨pending, kind, authentic⟩
  · intro cause evidence before after member doubtful moves
    obtain ⟨phase, last, step⟩ := sound.step_of_mem member (by simp)
    exact step.unauthenticated doubtful moves

end Runs

/-- Evidence nobody vouches for returns an authorized Action, and a contract enters
Dispatching again with no denial in between. -/
theorem AgentPool.Reached.effects_repeated : ∃ (_ : IntentDigest) (pool : AgentPool),
    store.Fresh ∧ Reached store pool ∧
      pool.shared.database.eventsOf 7 =
        [.prepared, .authorized,
          .decided (.recovered .authorizedBeforeDispatchCommit) none .authorized .prepared,
          .authorized, .dispatched 1 5 1 none,
          .decided .reconciled none .dispatching .effectUnknown,
          .decided .reconciled contract .effectUnknown .dispatching] := by
  refine ⟨digest, ⟨@Action.perform digest
    [.prepare (intent .policy) none, .authorize 7 0,
      .recover 7 .authorizedBeforeDispatchCommit none, .authorize 7 0, .dispatch 7 input,
      .reconcile 7 none, .reconcile 7 contract] store, []⟩, fresh, ?_, by decide +kernel⟩
  exact @AgentPool.Reached.perform digest _ _ _ .refl

theorem AgentPool.Reached.effects_safe_sample : ∃ cause evidence before after,
    Event.decided cause evidence before after ∈
      [.decided .reconciled (knownNotDispatched 1) .dispatching .prepared, .authorized] ∧
    evidence.Denies 1 := by
  let := digest
  have reached : Reached store ⟨Action.perform
      [.prepare (intent .policy) none, .authorize 7 0, .dispatch 7 input,
        .reconcile 7 (knownNotDispatched 1), .authorize 7 0, .dispatch 7 input]
      store, []⟩ :=
    Reached.perform .refl
  obtain ⟨_, _, _, denied, _, _⟩ := Reached.effects_safe fresh reached 7
  exact denied [.prepared, .authorized] _ [] 1 5 1 none (.dispatched 1 5 1 none) (by decide +kernel) rfl

/-- The generation in the row behind an event. -/
def Event.leaves (held : Option Nat) : Event → Option Nat
  | .dispatched generation _ _ _ => some generation
  | _ => held

open Event

/-- The generations of the commits to Dispatching: a dispatch takes one, and a resumption keeps the one it finds. -/
def commitGenerations (held : Option Nat) : List Event → List Nat
  | [] => []
  | event :: rest =>
      (if event.entersDispatching then (event.leaves held).toList else []) ++ commitGenerations (event.leaves held) rest

def Database.dispatchGenerations (database : Database) (actionId : ActionId) : List Nat :=
  commitGenerations none (database.eventsOf actionId)

/-- A commit to Dispatching behind another one: the dispatch is resumed on a contract, or one is made behind accepted
evidence that the first did not happen. -/
inductive Repeats (events : List Event) : Prop where
  | resumed {cause : Cause} {evidence : RecoveryEvidence} {before : ActionLifecycle}
      (member : .decided cause evidence before .dispatching ∈ events)
      (contract : evidence.kind = .validatedIdempotencyContract) (authentic : evidence.executorAuthenticated = true)
  | denied {front middle back : List Event} {generation nowMs policyGeneration : Nat} {approval : Option ApprovalId}
      {last : Event} {cause : Cause} {evidence : RecoveryEvidence} {before after : ActionLifecycle}
      (split : events = front ++ .dispatched generation nowMs policyGeneration approval :: (middle ++ last :: back))
      (again : last.isDispatched = true) (member : .decided cause evidence before after ∈ middle)
      (denies : evidence.Denies generation)

theorem split_of_sublist {first second : Event} {events : List Event} (sublist : List.Sublist [first, second] events) :
    ∃ front middle back, events = front ++ first :: (middle ++ second :: back) := by
  obtain ⟨left, right, rfl, here, rest⟩ := List.cons_sublist_iff.mp sublist
  obtain ⟨front, tail, rfl⟩ := List.append_of_mem here
  obtain ⟨head, back, rfl⟩ := List.append_of_mem (List.singleton_sublist.mp rest)
  exact ⟨front, tail ++ head, back, by simp⟩

theorem admitEvidence_stale {runtime : ActionRuntime} {evidence : RecoveryEvidence} {stored named : Nat}
    (authoritative : evidence.kind.isAuthoritative = true) (authentic : evidence.executorAuthenticated = true)
    (present : runtime.dispatchGeneration = some stored) (names : evidence.dispatchGeneration = some named)
    (other : named ≠ stored) : admitEvidence runtime evidence = .error .staleDispatchGeneration := by
  unfold admitEvidence
  rw [if_pos authoritative, authentic, present, names]
  simp [Ne.symm other]

theorem Phase.Step.leaves {phase after : Phase} {event : Event} {held : Option Nat} (step : Phase.Step phase event after)
    (known : phase.lifecycle.Pending → held = some 1)
    (dispatched : event.entersDispatching = true ∨ after.lifecycle.Pending) : event.leaves held = some 1 := by
  cases step with
  | dispatched => rfl
  | kept settled idle =>
      rcases dispatched with enters | pending
      · exact absurd (of_decide_eq_true enters) idle
      · exact known pending
  | unknown pending _ | resumed pending _ _ _ => exact known pending
  | ended ending _ _ _ =>
      rcases ending with rfl | rfl <;> exact absurd dispatched (by simp [Event.entersDispatching, ActionLifecycle.Pending])
  | authorized | invalidated | withdrawn | returned _ _ _ | cancelledBefore _ | cancelledAfter _ =>
      exact absurd dispatched (by simp [Event.entersDispatching, ActionLifecycle.Pending])

/-- Every commit to Dispatching is of the first generation. -/
theorem Phase.Path.commitGenerations_eq {phase after : Phase} {events : List Event} {held : Option Nat}
    (path : Phase.Path phase events after) (known : phase.lifecycle.Pending → held = some 1) :
    commitGenerations held events = List.replicate (events.countP entersDispatching) 1 := by
  induction path generalizing held with
  | nil => rfl
  | cons step rest ih =>
      rw [commitGenerations, ih fun pending => step.leaves known (.inr pending), List.countP_cons]
      split
      next enters =>
          rw [step.leaves known (.inl enters), List.replicate_succ]
          rfl
      next => rfl

/-- What is resumed was dispatched before. -/
theorem Phase.Path.dispatched_before {front back : List Event} {cause : Cause} {evidence : RecoveryEvidence}
    {before : ActionLifecycle} {last : Phase}
    (path : Phase.Path Phase.start (front ++ .decided cause evidence before .dispatching :: back) last) :
    ∃ earlier ∈ front, earlier.isDispatched = true := by
  by_contra never
  obtain ⟨phase, reached, behind⟩ := path.split
  have idle : ¬ phase.lifecycle.Pending := by
    refine (@Path.invariant _ _ Phase.Step _ _ _ (fun phase => ¬ phase.lifecycle.Pending) reached (by decide) ?_).1
    intro state event next member step idle
    cases step with
    | dispatched => exact absurd ⟨_, member, rfl⟩ never
    | kept _ _ => exact idle
    | unknown pending _ | resumed pending _ _ _ => exact absurd pending idle
    | ended ending _ _ _ => rcases ending with rfl | rfl <;> simp [ActionLifecycle.Pending]
    | authorized | invalidated | withdrawn | returned _ _ _ | cancelledBefore _ | cancelledAfter _ =>
        simp [ActionLifecycle.Pending]
  cases behind with
  | cons step _ =>
      obtain ⟨pending, _, _, here⟩ := step.resumes
      exact idle (here ▸ pending)

theorem two_of_split {events front middle back : List Event} {first second : Event}
    (split : events = front ++ first :: (middle ++ second :: back)) (one : first.entersDispatching = true)
    (two : second.entersDispatching = true) : 2 ≤ events.countP entersDispatching := by
  rw [split]
  simp only [List.countP_append, List.countP_cons, one, two, if_true]
  omega

theorem split_of_two {events : List Event} (two : 2 ≤ events.countP entersDispatching) :
    ∃ front first middle second back, events = front ++ first :: (middle ++ second :: back) ∧
      first.entersDispatching = true ∧ second.entersDispatching = true := by
  rw [List.countP_eq_length_filter] at two
  match entering : events.filter entersDispatching with
  | [] | [_] => simp [entering] at two
  | first :: second :: rest =>
      have sublist : List.Sublist [first, second] (events.filter entersDispatching) := by simp [entering]
      obtain ⟨front, middle, back, split⟩ := split_of_sublist (sublist.trans List.filter_sublist)
      exact ⟨front, first, middle, second, back, split, (List.mem_filter.mp (entering ▸ List.mem_cons_self)).2,
        (List.mem_filter.mp (entering ▸ List.mem_cons_of_mem _ List.mem_cons_self)).2⟩

theorem Event.entering_cases {event : Event} (enters : event.entersDispatching = true) :
    event.isDispatched = true ∨ ∃ cause evidence before, event = .decided cause evidence before .dispatching := by
  cases event with
  | dispatched => exact .inl rfl
  | decided cause evidence before after =>
      obtain rfl := of_decide_eq_true enters
      exact .inr ⟨cause, evidence, before, rfl⟩
  | _ => cases enters

section Generations

variable [IntentDigest] {initial : AgentStore} {pool : AgentPool} {database : Database} {actionId : ActionId}

theorem Database.Sound.repeats_of_two (sound : database.Sound)
    (two : 2 ≤ (database.eventsOf actionId).countP entersDispatching) : Repeats (database.eventsOf actionId) := by
  obtain ⟨front, first, middle, second, back, split, one, other⟩ := split_of_two two
  have resumed {event : Event} (member : event ∈ database.eventsOf actionId)
      (again : ∃ cause evidence before, event = .decided cause evidence before .dispatching) :
      Repeats (database.eventsOf actionId) := by
    obtain ⟨cause, evidence, before, rfl⟩ := again
    obtain ⟨_, _, step⟩ := sound.step_of_mem member (by simp)
    obtain ⟨_, contract, authentic, _⟩ := step.resumes
    exact .resumed member contract authentic
  rcases entering_cases other with dispatched | again
  · cases first with
    | dispatched generation nowMs policyGeneration approval =>
        obtain ⟨_, _, _, _, member, denies⟩ := sound.denied split dispatched
        exact .denied split dispatched member denies
    | decided => exact resumed (by simp [split]) ((entering_cases one).resolve_left nofun)
    | prepared | authorized | invalidated => cases one
  · exact resumed (by simp [split]) again

theorem Database.Sound.two_of_repeats (sound : database.Sound) (repeats : Repeats (database.eventsOf actionId)) :
    2 ≤ (database.eventsOf actionId).countP entersDispatching := by
  cases repeats with
  | resumed member _ _ =>
      cases present : database.actions.lookup actionId with
      | none => simp [sound.absent actionId present] at member
      | some row =>
          obtain ⟨events, whole, path⟩ := sound.path actionId row present
          rw [whole] at member ⊢
          obtain ⟨front, back, rfl⟩ := List.append_of_mem ((List.mem_cons.mp member).resolve_left nofun)
          obtain ⟨earlier, inside, dispatched⟩ := Phase.Path.dispatched_before path
          have one : 0 < front.countP entersDispatching :=
            List.countP_pos_iff.mpr ⟨earlier, inside, by cases earlier <;> first | rfl | cases dispatched⟩
          simp only [List.countP_append, List.countP_cons, entersDispatching, decide_true, if_true]
          omega
  | @denied _ _ _ _ _ _ _ last _ _ _ _ split again member denies =>
      exact two_of_split split rfl (by cases last <;> first | rfl | cases again)

theorem Database.Sound.dispatchGenerations_eq (sound : database.Sound) (actionId : ActionId) :
    database.dispatchGenerations actionId =
      List.replicate ((database.eventsOf actionId).countP entersDispatching) 1 := by
  unfold Database.dispatchGenerations
  cases present : database.actions.lookup actionId with
  | none =>
      rw [sound.absent actionId present]
      rfl
  | some row =>
      obtain ⟨events, whole, path⟩ := sound.path actionId row present
      rw [whole]
      have same : commitGenerations none events = _ :=
        Phase.Path.commitGenerations_eq path fun pending => absurd pending (by decide)
      simpa [commitGenerations, leaves, entersDispatching] using same

/-- Every commit to Dispatching is of generation 1. So generations increase exactly where none of them is behind
another; and authoritative evidence that names another dispatch than the stored one is refused. -/
theorem AgentPool.Reached.generations_increase (fresh : initial.Fresh)
    (reached : Reached initial pool) (actionId : ActionId) :
    (∀ generation ∈ pool.shared.database.dispatchGenerations actionId, generation = 1) ∧
    ((pool.shared.database.dispatchGenerations actionId).Pairwise (· < ·) ↔
      ¬ Repeats (pool.shared.database.eventsOf actionId)) ∧
    (∀ row evidence stored named, pool.shared.database.actions.lookup actionId = some row →
      row.lifecycle.Dispatched → row.dispatchGeneration = some stored →
      evidence.kind.isAuthoritative = true → evidence.executorAuthenticated = true →
      evidence.dispatchGeneration = some named → named ≠ stored →
      reconcile actionId row.intent.agentRunId row.intent.effectClass row.runtime evidence =
        .error .staleDispatchGeneration) := by
  have sound := Reached.sound fresh reached
  rw [sound.dispatchGenerations_eq]
  refine ⟨fun generation member => List.eq_of_mem_replicate member, ?_, ?_⟩
  · rw [List.pairwise_replicate, or_iff_left (Nat.lt_irrefl 1)]
    refine ⟨fun once repeats => ?_, fun once => ?_⟩
    · have two := sound.two_of_repeats repeats
      omega
    · by_contra two
      exact once (sound.repeats_of_two (by omega))
  · intro row evidence stored named present dispatched here authoritative authentic names other
    have refused : recoverAfterDispatch actionId row.intent.agentRunId row.intent.effectClass row.runtime evidence =
        .error .staleDispatchGeneration := by
      unfold recoverAfterDispatch
      rw [@admitEvidence_stale row.runtime evidence stored named authoritative authentic here names other]
      rfl
    unfold reconcile
    rcases dispatched with (at_ | at_) | at_
    · rw [show row.runtime.lifecycle = .dispatching from at_]
      exact refused
    · rw [show row.runtime.lifecycle = .effectUnknown from at_]
      exact refused
    · rw [show row.runtime.lifecycle = .cancelledAfterDispatch from at_]
      exact refused

end Generations

/-- A dispatch that is denied, and not made again. -/
theorem AgentPool.Reached.generations_increase_sample :
    letI := digest
    let database := (Action.perform [.prepare (intent .policy) none, .authorize 7 0, .dispatch 7 input,
      .reconcile 7 (knownNotDispatched 1), .authorize 7 0] store).database
    database.dispatchGenerations 7 = [1] ∧ ¬ Repeats (database.eventsOf 7) := by
  let := digest
  have reached : Reached store ⟨Action.perform
      [.prepare (intent .policy) none, .authorize 7 0, .dispatch 7 input,
        .reconcile 7 (knownNotDispatched 1), .authorize 7 0] store, []⟩ :=
    Reached.perform .refl
  have once : (Action.perform [.prepare (intent .policy) none, .authorize 7 0, .dispatch 7 input,
      .reconcile 7 (knownNotDispatched 1), .authorize 7 0]
      store).database.dispatchGenerations 7 = [1] := by decide +kernel
  exact ⟨once, (Reached.generations_increase fresh reached 7).2.1.mp (once ▸ List.pairwise_singleton ..)⟩

/-- A denied dispatch frees its generation: the next one takes it again, and a report
of the first settles the second. -/
theorem AgentPool.Reached.generation_reused : ∃ (_ : IntentDigest) (pool : AgentPool),
    store.Fresh ∧ Reached store pool ∧
      pool.shared.database.dispatchGenerations 7 = [1, 1] ∧
      pool.shared.database.eventsOf 7 =
        [.prepared, .authorized, .dispatched 1 5 1 none,
          .decided .reconciled (knownNotDispatched 1) .dispatching .prepared,
          .authorized, .dispatched 1 5 1 none,
          .decided .reconciled (causalSuccess 1 ⟨.operationId, 9⟩) .dispatching .succeeded] := by
  refine ⟨digest, ⟨@Action.perform digest
    [.prepare (intent .policy) none, .authorize 7 0, .dispatch 7 input,
      .reconcile 7 (knownNotDispatched 1), .authorize 7 0, .dispatch 7 input,
      .reconcile 7 (causalSuccess 1 ⟨.operationId, 9⟩)] store, []⟩,
    fresh, ?_, by decide +kernel, by decide +kernel⟩
  exact @AgentPool.Reached.perform digest _ _ _ .refl

end Seyal.Agent.Action
