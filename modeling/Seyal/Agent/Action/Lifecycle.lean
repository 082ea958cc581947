import Seyal.Agent.Action.Store
import Seyal.Program.Path

namespace Seyal.Agent.Action

open Program

/-! The lifecycle of one Action as a machine of its own: the phases it goes
through, the committed events that move it, and what holds along every path. -/

/-- Where an Action stands: its lifecycle and the dispatch it names. -/
structure Phase where
  lifecycle : ActionLifecycle
  generation : Option Nat
  deriving Repr, DecidableEq

def ActionRuntime.phase (runtime : ActionRuntime) : Phase := ⟨runtime.lifecycle, runtime.dispatchGeneration⟩

def ActionRow.phase (row : ActionRow) : Phase := ⟨row.lifecycle, row.dispatchGeneration⟩

/-- An effect may be under way, and no cancellation was asked for. -/
def ActionLifecycle.Pending (lifecycle : ActionLifecycle) : Prop :=
  lifecycle = .dispatching ∨ lifecycle = .effectUnknown

/-- No dispatch was committed, or the last one is known not to have happened. -/
def ActionLifecycle.Idle (lifecycle : ActionLifecycle) : Prop :=
  lifecycle = .prepared ∨ lifecycle = .authorized

instance (lifecycle : ActionLifecycle) : Decidable lifecycle.Pending := inferInstanceAs (Decidable (_ ∨ _))

instance (lifecycle : ActionLifecycle) : Decidable lifecycle.Idle := inferInstanceAs (Decidable (_ ∨ _))

/-- An idle Action names no dispatch, one under way names the first. -/
structure Phase.Sound (phase : Phase) : Prop where
  idle : phase.lifecycle.Idle → phase.generation = none
  pending : phase.lifecycle.Pending → phase.generation = some 1

def Event.isDispatched : Event → Bool
  | .dispatched .. => true
  | _ => false

/-- Executor-authenticated evidence that the dispatch of this generation did not happen. -/
def RecoveryEvidence.Denies (evidence : RecoveryEvidence) (generation : Nat) : Prop :=
  evidence.kind = .knownNotDispatched ∧ evidence.executorAuthenticated = true ∧
    evidence.dispatchGeneration = some generation

namespace Phase

inductive Step : Phase → Event → Phase → Prop where
  | authorized : Step ⟨.prepared, none⟩ .authorized ⟨.authorized, none⟩
  | invalidated : Step ⟨.authorized, none⟩ .invalidated ⟨.prepared, none⟩
  | dispatched {nowMs policyGeneration : Nat} {approval : Option ApprovalId} :
      Step ⟨.authorized, none⟩ (.dispatched 1 nowMs policyGeneration approval) ⟨.dispatching, some 1⟩
  | kept {phase : Phase} {cause : Cause} {evidence : RecoveryEvidence}
      (settled : cause = .cancelled → phase.lifecycle.isKnownTerminal = true)
      (idle : phase.lifecycle ≠ .dispatching) :
      Step phase (.decided cause evidence phase.lifecycle phase.lifecycle) phase
  | withdrawn {boundary : CrashBoundary} {evidence : RecoveryEvidence} :
      Step ⟨.authorized, none⟩ (.decided (.recovered boundary) evidence .authorized .prepared) ⟨.prepared, none⟩
  | returned {lifecycle : ActionLifecycle} {generation : Nat} {cause : Cause} {evidence : RecoveryEvidence}
      (pending : lifecycle.Pending) (asked : cause ≠ .cancelled) (denies : evidence.Denies generation) :
      Step ⟨lifecycle, some generation⟩ (.decided cause evidence lifecycle .prepared) ⟨.prepared, none⟩
  | ended {lifecycle next : ActionLifecycle} {generation : Option Nat} {cause : Cause} {evidence : RecoveryEvidence}
      (ending : next = .succeeded ∨ next = .failedKnown) (authentic : evidence.executorAuthenticated = true)
      (asked : cause ≠ .cancelled) (running : lifecycle.isKnownTerminal = false) :
      Step ⟨lifecycle, generation⟩ (.decided cause evidence lifecycle next) ⟨next, generation⟩
  | unknown {lifecycle : ActionLifecycle} {generation : Option Nat} {cause : Cause} {evidence : RecoveryEvidence}
      (pending : lifecycle.Pending) (asked : cause ≠ .cancelled) :
      Step ⟨lifecycle, generation⟩ (.decided cause evidence lifecycle .effectUnknown) ⟨.effectUnknown, generation⟩
  | resumed {lifecycle : ActionLifecycle} {generation : Option Nat} {cause : Cause} {evidence : RecoveryEvidence}
      (pending : lifecycle.Pending) (asked : cause ≠ .cancelled)
      (kind : evidence.kind = .validatedIdempotencyContract) (authentic : evidence.executorAuthenticated = true) :
      Step ⟨lifecycle, generation⟩ (.decided cause evidence lifecycle .dispatching) ⟨.dispatching, generation⟩
  | cancelledBefore {lifecycle : ActionLifecycle} {evidence : RecoveryEvidence} (idle : lifecycle.Idle) :
      Step ⟨lifecycle, none⟩ (.decided .cancelled evidence lifecycle .cancelledBeforeDispatch)
        ⟨.cancelledBeforeDispatch, none⟩
  | cancelledAfter {lifecycle : ActionLifecycle} {generation : Option Nat} {evidence : RecoveryEvidence}
      (dispatched : lifecycle.Pending ∨ lifecycle = .cancelledAfterDispatch) :
      Step ⟨lifecycle, generation⟩ (.decided .cancelled evidence lifecycle .cancelledAfterDispatch)
        ⟨.cancelledAfterDispatch, generation⟩

variable {lifecycle : ActionLifecycle} {after : Phase} {event : Event} {generation : Nat}

theorem Sound.of_not_pending (other : ¬ lifecycle.Pending) : (⟨lifecycle, none⟩ : Phase).Sound :=
  ⟨fun _ => rfl, fun pending => absurd pending other⟩

theorem Sound.of_over {generation : Option Nat} (busy : ¬ lifecycle.Idle) (other : ¬ lifecycle.Pending) :
    (⟨lifecycle, generation⟩ : Phase).Sound :=
  ⟨fun idle => absurd idle busy, fun pending => absurd pending other⟩

theorem Sound.of_pending {generation : Option Nat} (busy : ¬ lifecycle.Idle) (first : generation = some 1) :
    (⟨lifecycle, generation⟩ : Phase).Sound :=
  ⟨fun idle => absurd idle busy, fun _ => first⟩

theorem Step.sound {phase : Phase} (step : Step phase event after) (sound : phase.Sound) :
    after.Sound := by
  cases step with
  | authorized | invalidated => exact .of_not_pending (by decide)
  | dispatched => exact .of_pending (by decide) rfl
  | kept settled idle => exact sound
  | withdrawn | returned pending asked denies => exact .of_not_pending (by decide)
  | ended ending authentic asked running =>
      rcases ending with ending | ending
      · exact .of_over (by subst ending; decide) (by subst ending; decide)
      · exact .of_over (by subst ending; decide) (by subst ending; decide)
  | unknown pending asked | resumed pending asked kind authentic =>
      exact .of_pending (by decide) (sound.pending pending)
  | cancelledBefore idle => exact .of_not_pending (by decide)
  | cancelledAfter dispatched => exact .of_over (by decide) (by decide)

/-- A phase in which an outcome or a cancellation is on record. -/
def Closed (phase : Phase) : Prop :=
  phase.lifecycle.isKnownTerminal = true ∨ phase.lifecycle = .cancelledAfterDispatch

theorem Step.settled {phase : Phase} (step : Step phase event after)
    (terminal : phase.lifecycle.isKnownTerminal = true) : after.lifecycle = phase.lifecycle := by
  cases step with
  | kept settled idle => rfl
  | ended ending authentic asked running => exact absurd terminal (by simp [running])
  | authorized | invalidated | dispatched | withdrawn => cases terminal
  | returned pending _ _ | unknown pending _ | resumed pending _ _ _ =>
      rcases pending with rfl | rfl <;> cases terminal
  | cancelledBefore idle => rcases idle with rfl | rfl <;> cases terminal
  | cancelledAfter dispatched =>
      rcases dispatched with (rfl | rfl) | rfl <;> cases terminal

theorem Step.closed {phase : Phase} (step : Step phase event after) (closed : phase.Closed) :
    after.Closed ∧ event.isDispatched = false := by
  cases step with
  | kept settled idle => exact ⟨closed, rfl⟩
  | ended ending authentic asked running => rcases ending with rfl | rfl <;> exact ⟨.inl rfl, rfl⟩
  | authorized | invalidated | dispatched | withdrawn => rcases closed with closed | closed <;> cases closed
  | returned pending _ _ | unknown pending _ | resumed pending _ _ _ =>
      rcases pending with rfl | rfl <;> rcases closed with closed | closed <;> cases closed
  | cancelledBefore idle => exact ⟨.inl rfl, rfl⟩
  | cancelledAfter dispatched => exact ⟨.inr rfl, rfl⟩

theorem Step.closed_of_cancelled {phase : Phase} {evidence : RecoveryEvidence} {first second : ActionLifecycle}
    (step : Step phase (.decided .cancelled evidence first second) after) :
    after.Closed := by
  cases step with
  | kept settled idle => exact .inl (settled rfl)
  | returned _ asked _ | ended _ _ asked _ | unknown _ asked | resumed _ asked _ _ => exact absurd rfl asked
  | cancelledBefore idle => exact .inl rfl
  | cancelledAfter dispatched => exact .inr rfl

/-- The dispatch of this generation was committed and has not been denied. -/
def Outstanding (generation : Nat) (phase : Phase) : Prop :=
  ¬ phase.lifecycle.Idle ∧ (phase.lifecycle.Pending → phase.generation = some generation)

theorem Outstanding.of_over {dispatch : Option Nat} (busy : ¬ lifecycle.Idle) (other : ¬ lifecycle.Pending) :
    Outstanding generation ⟨lifecycle, dispatch⟩ :=
  ⟨busy, fun pending => absurd pending other⟩

theorem Outstanding.of_same {dispatch : Option Nat} (busy : ¬ lifecycle.Idle) (same : dispatch = some generation) :
    Outstanding generation ⟨lifecycle, dispatch⟩ :=
  ⟨busy, fun _ => same⟩

theorem Step.outstanding {phase : Phase} (step : Step phase event after) (outstanding : phase.Outstanding generation)
    (undenied : ∀ cause evidence before after, event = .decided cause evidence before after →
      ¬ evidence.Denies generation) : after.Outstanding generation := by
  cases step with
  | authorized | invalidated | dispatched | withdrawn => exact absurd (by decide) outstanding.1
  | kept settled idle => exact outstanding
  | returned pending asked denies =>
      have same := outstanding.2 pending
      cases same
      exact absurd denies (undenied _ _ _ _ rfl)
  | ended ending authentic asked running =>
      rcases ending with rfl | rfl <;> exact .of_over (by decide) (by decide)
  | unknown pending asked | resumed pending asked kind authentic => exact .of_same (by decide) (outstanding.2 pending)
  | cancelledBefore idle => exact absurd idle outstanding.1
  | cancelledAfter dispatched => exact .of_over (by decide) (by decide)

theorem Step.idle_of_dispatched {phase : Phase} (step : Step phase event after)
    (dispatched : event.isDispatched = true) : phase.lifecycle.Idle ∧ after.Outstanding 1 := by
  cases step with
  | dispatched => exact ⟨.inr rfl, by decide, fun _ => rfl⟩
  | _ => cases dispatched

end Phase

section Path

variable {phase after : Phase} {events : List Event}

abbrev Phase.Path := Program.Path Phase.Step

theorem Phase.Path.denied {generation nowMs policyGeneration : Nat} {approval : Option ApprovalId} {last : Event}
    (path : Phase.Path phase (.dispatched generation nowMs policyGeneration approval :: events ++ [last]) after)
    (dispatched : last.isDispatched = true) :
    ∃ cause evidence before after, Event.decided cause evidence before after ∈ events ∧
      evidence.Denies generation := by
  by_contra undenied
  obtain ⟨middle, front, back⟩ := path.split
  cases front with
  | cons step rest =>
      cases step with
      | dispatched =>
          have kept := rest.invariant (show Phase.Outstanding 1 _ from ⟨by decide, fun _ => rfl⟩)
            fun state event next member step outstanding => step.outstanding outstanding
              fun cause evidence before after same denies =>
                undenied ⟨cause, evidence, before, after, same ▸ member, denies⟩
          cases back with
          | cons step _ => exact kept.1.1 (step.idle_of_dispatched dispatched).1

end Path

end Seyal.Agent.Action
