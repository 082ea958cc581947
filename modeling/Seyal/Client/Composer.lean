import Seyal.Client.RecallHistory
import Seyal.Program.Check

namespace Seyal.Client.Composer

open Program

/-! The composer of a pane: its draft, the submission that waits for a result, and the recall of commands. -/

abbrev PaneId := Nat
abbrev BlockId := Nat

inductive PresentationMode where
  | flow
  | raw
  | tui
  deriving Repr, DecidableEq

inductive InputRoute where
  | composer
  | directTerminal
  | frozen
  deriving Repr, DecidableEq

inductive ComposerMode where
  | available
  | busy (process : Text)
  | relay
  | hidden
  deriving Repr, DecidableEq

inductive RuntimeComposerEligibility where
  | available
  | busy
  | unsupported
  | relay
  deriving Repr, DecidableEq

inductive ComposerError where
  | unknownPane
  | emptyDraft
  | submitDisabled
  | staleRequest
  | staleEpoch
  | historyUnavailable
  | historyClosed
  | historyNoSelection
  deriving Repr, DecidableEq

inductive BlockPresentationState where
  | running
  | completed
  | failed
  | unknown
  deriving Repr, DecidableEq

structure RuntimeBlockRecord where
  id : BlockId
  command : Text
  running : Bool
  exitStatus : Option Int
  canvasFloor : Bool
  deriving Repr, DecidableEq

def RuntimeBlockRecord.presentationState (record : RuntimeBlockRecord) : BlockPresentationState :=
  match record.running, record.exitStatus with
  | true, _ => .running
  | false, some status => if status = 0 then .completed else .failed
  | false, none => .unknown

structure BlockProjection where
  id : BlockId
  command : Text
  state : BlockPresentationState
  deriving Repr, DecidableEq

structure PaneComposer where
  draft : Text := []
  pendingRequestId : Option Nat := none
  pendingIsRelay : Bool := false
  nextRequestId : Nat := 1
  epoch : Nat := 1
  busyProcess : Option Text := none
  executionEnded : Bool := false
  runtimeEligibility : Option (RuntimeComposerEligibility × Nat) := none
  presentationMode : PresentationMode := .flow
  inputRoute : InputRoute := .composer
  blocks : List BlockProjection := []
  canvasFloor : Option BlockId := none
  history : PaneHistory := {}
  overlay : Option HistoryOverlay := none
  deriving Repr, DecidableEq

inductive PaneAction where
  | ensurePane
  | setDraft (text : Text) (epoch : Nat)
  | submit (epoch : Nat)
  | applyResult (requestId : Nat) (accepted : Bool)
  | setBusy (process : Option Text)
  | applyPresentation (mode : PresentationMode) (inputRoute : InputRoute)
  | setExecutionEnded (ended : Bool)
  | applyRuntimeBlocks (records : List RuntimeBlockRecord)
  | applyRuntimeEligibility (eligibility : Option RuntimeComposerEligibility) (revision : Nat)
  | resetAdmission
  | openHistory
  | setHistoryFilter (query : Text)
  | moveHistorySelection (delta : Int)
  | selectHistory (epoch : Nat)
  | closeHistory

def PaneAction.creates : PaneAction → Bool
  | .ensurePane | .setBusy _ | .applyPresentation _ _ | .setExecutionEnded _ | .applyRuntimeBlocks _
  | .applyRuntimeEligibility _ _ | .resetAdmission => true
  | _ => false

namespace PaneComposer

variable (composer : PaneComposer)

def runningCommand : Option Text :=
  (composer.blocks.reverse.find? fun block => block.state = .running).map BlockProjection.command

def mode : ComposerMode :=
  if composer.executionEnded then .hidden
  else if composer.inputRoute ≠ .composer ∨ composer.presentationMode ≠ .flow then .hidden
  else
    match composer.busyProcess with
    | some process => .busy process
    | none =>
        if composer.pendingRequestId.isSome then .busy composer.draft
        else
          match composer.runtimeEligibility.map Prod.fst with
          | some .relay => .relay
          | some .available | some .unsupported => .available
          | some .busy | none => .busy (composer.runningCommand.getD [])

def canSubmit : Bool :=
  (composer.mode = .available || composer.mode = .relay) && composer.draft ≠ []

def bumpEpoch : PaneComposer := { composer with epoch := min (composer.epoch + 1) (2 ^ 64 - 1) }

def closeOverlayIfUnavailable : PaneComposer :=
  if composer.mode = .available then composer else { composer with overlay := none }

def revised : PaneComposer := composer.bumpEpoch.closeOverlayIfUnavailable

def submitting : PaneComposer :=
  { composer with
    nextRequestId := if composer.nextRequestId = 2 ^ 64 - 1 then 1 else composer.nextRequestId + 1
    pendingIsRelay := composer.mode = .relay
    pendingRequestId := some composer.nextRequestId
    overlay := none
    epoch := min (composer.epoch + 1) (2 ^ 64 - 1) }

def resulted (accepted : Bool) : PaneComposer :=
  if accepted then
    { composer with
      pendingRequestId := none
      history := if composer.pendingIsRelay then composer.history else composer.history.record composer.draft
      pendingIsRelay := false
      draft := []
      epoch := min (composer.epoch + 1) (2 ^ 64 - 1) }
  else { composer with pendingRequestId := none, epoch := min (composer.epoch + 1) (2 ^ 64 - 1) }

def withBlocks (records : List RuntimeBlockRecord) : PaneComposer :=
  { composer with
    canvasFloor :=
      match records.find? RuntimeBlockRecord.canvasFloor with
      | some record => some record.id
      | none => composer.canvasFloor.filter fun id => records.any fun record => record.id = id
    blocks := records.map fun record => ⟨record.id, record.command, record.presentationState⟩ }

def staleRevision (eligibility : Option RuntimeComposerEligibility) (revision : Nat) : Bool :=
  match composer.runtimeEligibility, eligibility with
  | some (_, current), some _ => revision < current
  | _, _ => false

def admissionReset : PaneComposer :=
  { composer with pendingRequestId := none, busyProcess := none, runtimeEligibility := none, canvasFloor := none }

/-- `lower` lowercases Unicode text. An error leaves the composer as it is. -/
def apply (lower : Text → Text) : PaneAction → Except ComposerError (Option Nat × PaneComposer)
  | .ensurePane => .ok (none, composer)
  | .setDraft text epoch => do
      refuse (composer.epoch ≠ epoch) .staleEpoch
      return (none, { composer with draft := text })
  | .submit epoch => do
      refuse (composer.epoch ≠ epoch) .staleEpoch
      refuse (composer.draft = []) .emptyDraft
      refuse (composer.canSubmit = false) .submitDisabled
      return (some composer.nextRequestId, composer.submitting)
  | .applyResult requestId accepted => do
      refuse (composer.pendingRequestId ≠ some requestId) .staleRequest
      return (none, composer.resulted accepted)
  | .setBusy process =>
      .ok (none, if composer.busyProcess ≠ process then revised { composer with busyProcess := process } else composer)
  | .applyPresentation mode inputRoute =>
      .ok (none, if composer.presentationMode ≠ mode ∨ composer.inputRoute ≠ inputRoute then
        revised { composer with presentationMode := mode, inputRoute := inputRoute } else composer)
  | .setExecutionEnded ended =>
      .ok (none, if composer.executionEnded ≠ ended then revised { composer with executionEnded := ended } else composer)
  | .applyRuntimeBlocks records => .ok (none, composer.withBlocks records)
  | .applyRuntimeEligibility eligibility revision =>
      let next := eligibility.map fun eligibility => (eligibility, revision)
      .ok (none, if composer.staleRevision eligibility revision then composer
        else if composer.runtimeEligibility ≠ next then revised { composer with runtimeEligibility := next }
        else composer)
  | .resetAdmission =>
      .ok (none, if composer.pendingRequestId.isSome ∨ composer.busyProcess.isSome ∨
          composer.runtimeEligibility.isSome ∨ composer.canvasFloor.isSome then composer.admissionReset.revised
        else composer.admissionReset)
  | .openHistory => do
      refuse (composer.mode ≠ .available ∨ composer.history.entries.length = 0) .historyUnavailable
      return (none, { composer with overlay := composer.overlay.or (some {}) })
  | .setHistoryFilter query => do
      let overlay ← orRefuse composer.overlay .historyClosed
      return (none, if overlay.query ≠ query then { composer with overlay := some ⟨query, 0⟩ } else composer)
  | .moveHistorySelection delta => do
      let overlay ← orRefuse composer.overlay .historyClosed
      return (none, { composer with
        overlay := some (overlay.step delta (composer.history.rank lower overlay.query).length) })
  | .selectHistory epoch => do
      refuse (composer.epoch ≠ epoch) .staleEpoch
      let overlay ← orRefuse composer.overlay .historyClosed
      let rows := (composer.history.rank lower overlay.query).map HistoryEntry.command
      let command ← orRefuse rows[(overlay.clamp rows.length).selected]? .historyNoSelection
      return (none, { composer with
        draft := command, overlay := none, epoch := min (composer.epoch + 1) (2 ^ 64 - 1) })
  | .closeHistory => .ok (none, { composer with overlay := none })

end PaneComposer

structure ComposerAction where
  pane : PaneId
  action : PaneAction

structure ComposerState where
  panes : PaneId → Option PaneComposer := fun _ => none

def ComposerState.apply (state : ComposerState) (lower : Text → Text) (action : ComposerAction) :
    Except ComposerError (Option Nat × ComposerState) := do
  let composer ← orRefuse ((state.panes action.pane).or (if action.action.creates then some {} else none)) .unknownPane
  let (requestId, after) ← composer.apply lower action.action
  return (requestId, ⟨Function.update state.panes action.pane (some after)⟩)

namespace PaneComposer

variable {composer after : PaneComposer} {lower : Text → Text} {requestId : Option Nat}

theorem mode_eq_available_iff : composer.mode = .available ↔
    composer.executionEnded = false ∧ composer.inputRoute = .composer ∧ composer.presentationMode = .flow ∧
      composer.busyProcess = none ∧ composer.pendingRequestId = none ∧
      (composer.runtimeEligibility.map Prod.fst = some .available ∨
        composer.runtimeEligibility.map Prod.fst = some .unsupported) := by
  unfold mode
  split
  next ended => simp [ended]
  next running =>
    split
    next elsewhere =>
      refine iff_of_false (by simp) ?_
      rintro ⟨_, route, flow, _⟩
      exact elsewhere.elim (· route) (· flow)
    next here =>
      obtain ⟨route, flow⟩ := not_or.mp here
      split
      next process busy => simp [busy]
      next idle =>
        split
        next waits =>
          refine iff_of_false (by simp) ?_
          rintro ⟨_, _, _, _, none, _⟩
          simp [none] at waits
        next free =>
          have none : composer.pendingRequestId = none := by simpa using free
          generalize composer.runtimeEligibility.map Prod.fst = eligibility
          cases eligibility with
          | none => simp
          | some eligibility =>
              cases eligibility with
              | available | unsupported => simpa [idle, none] using And.intro running (And.intro route flow)
              | relay | busy => simp

/-- An overlay is only shown while the composer is available. -/
def Shown (composer : PaneComposer) : Prop := composer.overlay.isSome = true → composer.mode = .available

theorem shown_revised (composer : PaneComposer) : Shown composer.revised := by
  unfold revised closeOverlayIfUnavailable
  split
  next available => exact fun _ => available
  next => exact fun absent => by cases absent

theorem Shown.pending (shown : Shown composer) (overlay : composer.overlay.isSome = true) :
    composer.pendingRequestId = none := (mode_eq_available_iff.mp (shown overlay)).2.2.2.2.1

/-- The texts and the numbering are left alone, and at most a pending submission is forgotten. -/
structure Quiet (composer after : PaneComposer) : Prop where
  draft : after.draft = composer.draft
  history : after.history = composer.history
  next : after.nextRequestId = composer.nextRequestId
  pending : after.pendingRequestId = none ∨
    after.pendingRequestId = composer.pendingRequestId ∧ after.pendingIsRelay = composer.pendingIsRelay

theorem Quiet.refl (composer : PaneComposer) : Quiet composer composer := ⟨rfl, rfl, rfl, .inr ⟨rfl, rfl⟩⟩

theorem Quiet.revised (quiet : Quiet composer after) : Quiet composer after.revised := by
  unfold PaneComposer.revised closeOverlayIfUnavailable
  split <;> exact ⟨quiet.draft, quiet.history, quiet.next, quiet.pending⟩

/-- The kinds of steps a composer takes. -/
inductive Step (composer : PaneComposer) : PaneAction → Option Nat → PaneComposer → Prop where
  | quiet {action : PaneAction} {after : PaneComposer} (quiet : Quiet composer after)
      (other : ∀ requestId accepted, action ≠ .applyResult requestId accepted) : Step composer action none after
  | draft {action : PaneAction} {after : PaneComposer} {text : Text}
      (source : composer.pendingRequestId = none ∨ action = .setDraft text composer.epoch)
      (other : ∀ requestId accepted, action ≠ .applyResult requestId accepted)
      (quiet : Quiet { composer with draft := text } after) : Step composer action none after
  | submit {epoch : Nat} (idle : composer.pendingRequestId = none) :
      Step composer (.submit epoch) (some composer.nextRequestId) composer.submitting
  | result {requestId : Nat} {accepted : Bool} (waits : composer.pendingRequestId = some requestId) :
      Step composer (.applyResult requestId accepted) none (composer.resulted accepted)

theorem idle_of_canSubmit (can : composer.canSubmit = true) : composer.pendingRequestId = none := by
  simp only [canSubmit, Bool.and_eq_true, Bool.or_eq_true, decide_eq_true_eq] at can
  rcases can.1 with available | relay
  · exact (mode_eq_available_iff.mp available).2.2.2.2.1
  · unfold mode at relay
    split at relay
    next => cases relay
    next =>
      split at relay
      next => cases relay
      next =>
        split at relay
        next => cases relay
        next =>
          split at relay
          next => cases relay
          next free => simpa using free

theorem step_overlay {action : PaneAction} {overlay : Option HistoryOverlay}
    (open_ : overlay.isSome = true → composer.mode = .available)
    (other : ∀ requestId accepted, action ≠ .applyResult requestId accepted) :
    Shown { composer with overlay := overlay } ∧ Step composer action none { composer with overlay := overlay } := by
  refine ⟨fun present => ?_, .quiet ⟨rfl, rfl, rfl, .inr ⟨rfl, rfl⟩⟩ other⟩
  exact open_ present

theorem step_revised {action : PaneAction} {changed : PaneComposer} {condition : Prop} [Decidable condition]
    (shown : Shown composer) (quiet : Quiet composer changed)
    (other : ∀ requestId accepted, action ≠ .applyResult requestId accepted) :
    Shown (if condition then changed.revised else composer) ∧
      Step composer action none (if condition then changed.revised else composer) := by
  split
  · exact ⟨shown_revised changed, .quiet quiet.revised other⟩
  · exact ⟨shown, .quiet (.refl composer) other⟩

theorem shown_submitting (composer : PaneComposer) : Shown composer.submitting := fun absent => by cases absent

theorem shown_resulted {waiting : Nat} (shown : Shown composer) (waits : composer.pendingRequestId = some waiting)
    (accepted : Bool) : Shown (composer.resulted accepted) := by
  have closed : composer.overlay = none := by
    cases overlay : composer.overlay with
    | none => rfl
    | some open_ =>
        have none := shown.pending (by rw [overlay]; rfl)
        rw [none] at waits
        cases waits
  unfold resulted
  intro present
  split at present <;> rw [closed] at present <;> cases present

theorem shown_admissionReset (shown : Shown composer)
    (clean : ¬ (composer.pendingRequestId.isSome = true ∨ composer.busyProcess.isSome = true ∨
      composer.runtimeEligibility.isSome = true ∨ composer.canvasFloor.isSome = true)) :
    Shown composer.admissionReset := by
  intro present
  have available := mode_eq_available_iff.mp (shown present)
  simp only [not_or, Bool.not_eq_true, Option.isSome_eq_false_iff, Option.isNone_iff_eq_none] at clean
  rw [clean.2.2.1] at available
  simp at available

theorem apply_step {action : PaneAction} (applied : composer.apply lower action = .ok (requestId, after))
    (shown : Shown composer) : Shown after ∧ Step composer action requestId after := by
  cases action with
  | ensurePane =>
      cases applied
      exact ⟨shown, .quiet (.refl composer) (by simp)⟩
  | setDraft text epoch =>
      simp only [apply, refuse_bind_eq_ok, Decidable.not_not, pure_eq_ok, Prod.mk.injEq] at applied
      obtain ⟨rfl, rfl, rfl⟩ := applied
      refine ⟨fun present => ?_, .draft (.inr rfl) (by simp) (.refl _)⟩
      have available := mode_eq_available_iff.mp (shown present)
      exact mode_eq_available_iff.mpr available
  | submit epoch =>
      simp only [apply, refuse_bind_eq_ok, Decidable.not_not, pure_eq_ok, Prod.mk.injEq, Bool.not_eq_false] at applied
      obtain ⟨_, _, can, rfl, rfl⟩ := applied
      exact ⟨shown_submitting composer, .submit (idle_of_canSubmit can)⟩
  | applyResult waiting accepted =>
      simp only [apply, refuse_bind_eq_ok, Decidable.not_not, pure_eq_ok, Prod.mk.injEq] at applied
      obtain ⟨waits, rfl, rfl⟩ := applied
      exact ⟨shown_resulted shown waits accepted, .result waits⟩
  | setBusy process | applyPresentation mode inputRoute | setExecutionEnded ended =>
      cases applied
      exact step_revised shown ⟨rfl, rfl, rfl, .inr ⟨rfl, rfl⟩⟩ (by simp)
  | applyRuntimeBlocks records =>
      cases applied
      refine ⟨fun present => ?_, .quiet ⟨rfl, rfl, rfl, .inr ⟨rfl, rfl⟩⟩ (by simp)⟩
      have available := mode_eq_available_iff.mp (shown present)
      exact mode_eq_available_iff.mpr available
  | applyRuntimeEligibility eligibility revision =>
      cases applied
      split
      · exact ⟨shown, .quiet (.refl composer) (by simp)⟩
      · exact step_revised shown ⟨rfl, rfl, rfl, .inr ⟨rfl, rfl⟩⟩ (by simp)
  | resetAdmission =>
      have quiet : Quiet composer composer.admissionReset := ⟨rfl, rfl, rfl, .inl rfl⟩
      cases applied
      split
      next => exact ⟨shown_revised _, .quiet quiet.revised (by simp)⟩
      next clean => exact ⟨shown_admissionReset shown clean, .quiet quiet (by simp)⟩
  | openHistory =>
      simp only [apply, refuse_bind_eq_ok, pure_eq_ok, Prod.mk.injEq, not_or, Decidable.not_not] at applied
      obtain ⟨⟨available, _⟩, rfl, rfl⟩ := applied
      exact step_overlay (fun _ => available) (by simp)
  | setHistoryFilter query =>
      simp only [apply, bind_eq_ok, orRefuse_eq_ok, pure_eq_ok, Prod.mk.injEq] at applied
      obtain ⟨overlay, found, rfl, rfl⟩ := applied
      have available := shown (by rw [found]; rfl)
      split
      · exact step_overlay (fun _ => available) (by simp)
      · exact ⟨shown, .quiet (.refl composer) (by simp)⟩
  | moveHistorySelection delta =>
      simp only [apply, bind_eq_ok, orRefuse_eq_ok, pure_eq_ok, Prod.mk.injEq] at applied
      obtain ⟨overlay, found, rfl, rfl⟩ := applied
      exact step_overlay (fun _ => shown (by rw [found]; rfl)) (by simp)
  | selectHistory epoch =>
      simp only [apply, bind_eq_ok, orRefuse_eq_ok, pure_eq_ok, Prod.mk.injEq] at applied
      obtain ⟨_, _, overlay, found, command, _, rfl, rfl⟩ := applied
      refine ⟨(fun absent => by cases absent), ?_⟩
      exact .draft (.inl (shown.pending (by rw [found]; rfl))) (by simp) ⟨rfl, rfl, rfl, .inr ⟨rfl, rfl⟩⟩
  | closeHistory =>
      cases applied
      exact step_overlay (fun absent => by cases absent) (by simp)

end PaneComposer

end Seyal.Client.Composer
