import Seyal.Agent.Action.Lifecycle
import Seyal.Program.Check

namespace Seyal.Agent.Action

open Program ActionRuntime

/-! The decisions of recovery, reconciliation and cancellation are steps of the
lifecycle. -/

variable {actionId : ActionId} {agentRunId : AgentRunId} {effectClass : EffectClass} {runtime next : ActionRuntime}
  {evidence : RecoveryEvidence} {cause : Cause} {decision : RecoveryDecision}

def ActionLifecycle.Dispatched (lifecycle : ActionLifecycle) : Prop :=
  lifecycle.Pending ∨ lifecycle = .cancelledAfterDispatch

theorem unresolved_of_pending (pending : runtime.lifecycle.Pending) :
    (unresolved runtime).phase = ⟨.effectUnknown, runtime.dispatchGeneration⟩ := by
  rcases pending with at_ | at_ <;> simp [unresolved, at_, phase]

theorem unresolved_of_cancelled (cancelled : runtime.lifecycle = .cancelledAfterDispatch) :
    (unresolved runtime).phase = runtime.phase := by
  simp [unresolved, cancelled, phase]

theorem unresolved_step (dispatched : runtime.lifecycle.Dispatched) (asked : cause ≠ .cancelled) :
    Phase.Step runtime.phase
      (.decided cause evidence runtime.lifecycle (unresolved runtime).lifecycle) (unresolved runtime).phase := by
  rcases dispatched with pending | cancelled
  · have phase := unresolved_of_pending pending
    have lifecycle : (unresolved runtime).lifecycle = .effectUnknown := congrArg Phase.lifecycle phase
    rw [phase, lifecycle]
    exact .unknown pending asked
  · have phase := unresolved_of_cancelled cancelled
    have lifecycle : (unresolved runtime).lifecycle = runtime.lifecycle := congrArg Phase.lifecycle phase
    rw [phase, lifecycle]
    exact .kept (fun wrong => absurd wrong asked) (by simp [ActionRuntime.phase, cancelled])

theorem not_terminal_of_dispatched {lifecycle : ActionLifecycle} (dispatched : lifecycle.Dispatched) :
    lifecycle.isKnownTerminal = false := by
  rcases dispatched with (rfl | rfl) | rfl <;> rfl

theorem settle_step {query fresh : Bool} (dispatched : runtime.lifecycle.Dispatched) (asked : cause ≠ .cancelled)
    (authentic : evidence.kind.isAuthoritative = true → evidence.executorAuthenticated = true)
    (settled : settle effectClass runtime evidence = .ok (next, query, fresh)) :
    Phase.Step runtime.phase (.decided cause evidence runtime.lifecycle next.lifecycle) next.phase := by
  cases kind : evidence.kind with
  | knownNotDispatched =>
      simp only [settle, kind] at settled
      split at settled
      · cases settled
      next pending =>
        split at settled
        · cases settled
        next named =>
          simp only [not_or, Decidable.not_not] at named
          obtain ⟨present, _, same⟩ := named
          obtain ⟨generation, stored⟩ : ∃ generation, runtime.dispatchGeneration = some generation := by
            simpa [Option.ne_none_iff_exists'] using present
          simp only [Except.ok.injEq, Prod.mk.injEq] at settled
          have phase : runtime.phase = ⟨runtime.lifecycle, some generation⟩ := by rw [← stored]; rfl
          rw [phase, ← settled.1]
          exact .returned (Decidable.not_not.mp pending) asked ⟨kind, authentic (by rw [kind]; rfl), same.symm.trans stored⟩
  | causalSuccess =>
      simp only [settle, kind, Except.ok.injEq, Prod.mk.injEq] at settled
      rw [← settled.1]
      exact .ended (.inl rfl) (authentic (by rw [kind]; rfl)) asked (not_terminal_of_dispatched dispatched)
  | causalFailedKnown =>
      simp only [settle, kind, Except.ok.injEq, Prod.mk.injEq] at settled
      rw [← settled.1]
      exact .ended (.inr rfl) (authentic (by rw [kind]; rfl)) asked (not_terminal_of_dispatched dispatched)
  | validatedIdempotencyContract =>
      simp only [settle, kind] at settled
      split at settled
      next contract =>
        simp only [Except.ok.injEq, Prod.mk.injEq] at settled
        rw [← settled.1]
        exact .resumed contract.2 asked kind (authentic (by rw [kind]; rfl))
      next =>
        simp only [Except.ok.injEq, Prod.mk.injEq] at settled
        rw [← settled.1]
        exact unresolved_step dispatched asked
  | none | observedStateNoCausalMarker | untrustedNarration | untrustedIdempotencyClaim
  | operatorAckWithoutCausalEvidence =>
      simp only [settle, kind, Except.ok.injEq, Prod.mk.injEq] at settled
      rw [← settled.1]
      exact unresolved_step dispatched asked

theorem authentic_of_admitted (admitted : admitEvidence runtime evidence = .ok ()) :
    evidence.kind.isAuthoritative = true → evidence.executorAuthenticated = true := by
  intro authoritative
  unfold admitEvidence at admitted
  rw [if_pos authoritative] at admitted
  split at admitted
  · cases admitted
  next authentic => simpa using authentic

theorem recoverAfterDispatch_ok
    (recovered : recoverAfterDispatch actionId agentRunId effectClass runtime evidence = .ok decision)
    (dispatched : runtime.lifecycle.Dispatched) :
    admitEvidence runtime evidence = .ok () ∧
      ∃ query fresh, settle effectClass runtime evidence = .ok (decision.runtime, query, fresh) := by
  have open_ : runtime.lifecycle ≠ .cancelledBeforeDispatch := by
    rcases dispatched with (at_ | at_) | at_ <;> simp [at_]
  simp only [recoverAfterDispatch, if_neg open_, bind_eq_ok, pure_eq_ok] at recovered
  obtain ⟨_, admitted, ⟨next, query, fresh⟩, settled, same⟩ := recovered
  subst same
  exact ⟨admitted, query, fresh, settled⟩

theorem recoverAfterDispatch_step
    (recovered : recoverAfterDispatch actionId agentRunId effectClass runtime evidence = .ok decision)
    (dispatched : runtime.lifecycle.Dispatched) (asked : cause ≠ .cancelled) :
    Phase.Step runtime.phase (.decided cause evidence runtime.lifecycle decision.runtime.lifecycle)
      decision.runtime.phase := by
  obtain ⟨admitted, query, fresh, settled⟩ := recoverAfterDispatch_ok recovered dispatched
  exact settle_step dispatched asked (authentic_of_admitted admitted) settled

theorem recoverAfterDispatch_none_step {presented : RecoveryEvidence}
    (recovered : recoverAfterDispatch actionId agentRunId effectClass runtime RecoveryEvidence.none = .ok decision)
    (dispatched : runtime.lifecycle.Dispatched) (asked : cause ≠ .cancelled) :
    Phase.Step runtime.phase (.decided cause presented runtime.lifecycle decision.runtime.lifecycle)
      decision.runtime.phase := by
  obtain ⟨_, query, fresh, settled⟩ := recoverAfterDispatch_ok recovered dispatched
  have same : unresolved runtime = decision.runtime := by
    simp only [settle, RecoveryEvidence.none, Except.ok.injEq, Prod.mk.injEq] at settled
    exact settled.1
  rw [← same]
  exact unresolved_step dispatched asked

theorem kept_step (asked : cause ≠ .cancelled) (idle : runtime.lifecycle ≠ .dispatching) :
    Phase.Step runtime.phase (.decided cause evidence runtime.lifecycle runtime.lifecycle) runtime.phase :=
  .kept (fun wrong => absurd wrong asked) idle

theorem stayed_step (asked : cause ≠ .cancelled) (cancelled : runtime.lifecycle = .cancelledAfterDispatch) :
    Phase.Step runtime.phase (.decided cause evidence runtime.lifecycle
      (stayCancelledAfterDispatch runtime).runtime.lifecycle) (stayCancelledAfterDispatch runtime).runtime.phase := by
  have same : (stayCancelledAfterDispatch runtime).runtime = runtime := by
    unfold stayCancelledAfterDispatch
    rw [← cancelled]
  rw [same]
  exact kept_step asked (by simp [cancelled])

theorem withdrawn_step {boundary : CrashBoundary} (sound : runtime.phase.Sound)
    (authorized : runtime.lifecycle = .authorized) :
    Phase.Step runtime.phase (.decided (.recovered boundary) evidence runtime.lifecycle .prepared)
      ⟨.prepared, none⟩ := by
  have phase : runtime.phase = ⟨.authorized, none⟩ := by
    rw [← sound.idle (.inr authorized), ← authorized]
    rfl
  rw [phase, authorized]
  exact .withdrawn

theorem recover_step {boundary : CrashBoundary} (sound : runtime.phase.Sound)
    (recovered : recover actionId agentRunId effectClass runtime boundary evidence = .ok decision) :
    Phase.Step runtime.phase (.decided (.recovered boundary) evidence runtime.lifecycle decision.runtime.lifecycle)
      decision.runtime.phase := by
  unfold recover at recovered
  have asked : Cause.recovered boundary ≠ .cancelled := fun wrong => by cases wrong
  split at recovered
  next terminal =>
      cases recovered
      exact kept_step asked (by intro at_; simp [at_, ActionLifecycle.isKnownTerminal] at terminal)
  next =>
    split at recovered
    next =>
        split at recovered
        next idle =>
            cases recovered
            exact kept_step asked (by simp [idle.1])
        next => cases recovered
    next =>
        split at recovered
        next at_ =>
            cases recovered
            exact kept_step asked (by simp [at_])
        next at_ =>
            cases recovered
            exact kept_step asked (by simp [at_])
        next at_ => exact recoverAfterDispatch_none_step recovered (.inl (.inl at_)) asked
        next at_ => exact recoverAfterDispatch_none_step recovered (.inl (.inr at_)) asked
        next at_ =>
            cases recovered
            exact stayed_step asked at_
        next => cases recovered
    next =>
        split at recovered
        next at_ =>
            cases recovered
            exact withdrawn_step sound at_
        next at_ => exact recoverAfterDispatch_none_step recovered (.inl (.inl at_)) asked
        next at_ => exact recoverAfterDispatch_none_step recovered (.inl (.inr at_)) asked
        next at_ =>
            cases recovered
            exact stayed_step asked at_
        next => cases recovered
    all_goals
      split at recovered
      next at_ => exact recoverAfterDispatch_step recovered (.inl (.inl at_)) asked
      next at_ => exact recoverAfterDispatch_step recovered (.inl (.inr at_)) asked
      next at_ => exact recoverAfterDispatch_step recovered (.inr at_) asked
      next => cases recovered

theorem reconcile_step
    (reconciled : reconcile actionId agentRunId effectClass runtime evidence = .ok decision) :
    Phase.Step runtime.phase (.decided .reconciled evidence runtime.lifecycle decision.runtime.lifecycle)
      decision.runtime.phase := by
  have asked : Cause.reconciled ≠ .cancelled := fun wrong => by cases wrong
  unfold reconcile at reconciled
  split at reconciled
  next at_ => exact recoverAfterDispatch_step reconciled (.inl (.inl at_)) asked
  next at_ => exact recoverAfterDispatch_step reconciled (.inl (.inr at_)) asked
  next at_ => exact recoverAfterDispatch_step reconciled (.inr at_) asked
  next => cases reconciled

theorem linearizeCancel_step (sound : runtime.phase.Sound) :
    Phase.Step runtime.phase
      (.decided .cancelled evidence runtime.lifecycle (linearizeCancel runtime).runtime.lifecycle)
      (linearizeCancel runtime).runtime.phase := by
  cases at_ : runtime.lifecycle with
  | prepared =>
      have phase : runtime.phase = ⟨.prepared, none⟩ := by
        rw [← sound.idle (.inl at_), ← at_]
        rfl
      simp only [linearizeCancel, at_, phase]
      exact .cancelledBefore (.inl rfl)
  | authorized =>
      have phase : runtime.phase = ⟨.authorized, none⟩ := by
        rw [← sound.idle (.inr at_), ← at_]
        rfl
      simp only [linearizeCancel, at_, phase]
      exact .cancelledBefore (.inr rfl)
  | dispatching =>
      simp only [linearizeCancel, at_, phase]
      exact .cancelledAfter (.inl (.inl rfl))
  | effectUnknown =>
      simp only [linearizeCancel, at_, phase]
      exact .cancelledAfter (.inl (.inr rfl))
  | cancelledAfterDispatch =>
      simp only [linearizeCancel, at_, phase]
      exact .cancelledAfter (.inr rfl)
  | succeeded | failedKnown | cancelledBeforeDispatch =>
      have same : linearizeCancel runtime = terminalDecision runtime false := by simp [linearizeCancel, at_]
      rw [same, ← at_]
      exact .kept (fun _ => by simp [phase, at_, ActionLifecycle.isKnownTerminal])
        (by simp [phase, at_])

end Seyal.Agent.Action
