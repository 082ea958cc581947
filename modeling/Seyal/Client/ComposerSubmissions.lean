import Seyal.Client.Composer

namespace Seyal.Client.Composer

open Program

/-! The submissions of one pane over a history of actions. -/

/-- A submission, with the draft and the mode at its `Submit`. -/
structure Submission where
  id : Nat
  draft : Text
  relay : Bool
  deriving Repr, DecidableEq

/-- The state after some actions, and the submissions of one pane: all of them, and those that were accepted. -/
structure Traced where
  state : ComposerState := {}
  submitted : List Submission := []
  accepted : List Submission := []

namespace Traced

variable (lower : Text → Text) (pane : PaneId)

def composer (traced : Traced) : PaneComposer := (traced.state.panes pane).getD {}

def acceptedBy (submitted : List Submission) : PaneAction → List Submission
  | .applyResult requestId true => (submitted.reverse.find? fun submission => submission.id = requestId).toList
  | _ => []

def perform (traced : Traced) (action : ComposerAction) : Traced :=
  match traced.state.apply lower action with
  | .error _ => traced
  | .ok (requestId, state) =>
      if action.pane = pane then
        { state
          submitted := traced.submitted ++ (requestId.map fun id =>
            ⟨id, (traced.composer pane).draft, (traced.composer pane).mode = .relay⟩).toList
          accepted := traced.accepted ++ acceptedBy traced.submitted action.action }
      else { traced with state }

def play (traced : Traced) (actions : List ComposerAction) : Traced := actions.foldl (perform lower pane) traced

/-- No `SetDraft` changes the pane's draft while one of its submissions waits for a result. -/
def Undisturbed (traced : Traced) : List ComposerAction → Prop
  | [] => True
  | action :: rest =>
      (∀ text, action = ⟨pane, .setDraft text (traced.composer pane).epoch⟩ →
        (traced.composer pane).pendingRequestId = none ∨ text = (traced.composer pane).draft) ∧
      (traced.perform lower pane action).Undisturbed rest

def requestIdAt (count : Nat) : Nat := count % (2 ^ 64 - 1) + 1

variable {lower} {pane} {traced : Traced}

/-- What holds of a pane's composer and its submissions. -/
structure Kept (composer : PaneComposer) (submitted : List Submission) : Prop where
  shown : composer.Shown
  ids : submitted.map Submission.id = (List.range submitted.length).map requestIdAt
  next : composer.nextRequestId = requestIdAt submitted.length
  pending : ∀ id ∈ composer.pendingRequestId, ∃ last, submitted.getLast? = some last ∧ last.id = id ∧
    last.relay = composer.pendingIsRelay

/-- What holds besides when no draft changes under a submission. -/
structure Recalled (composer : PaneComposer) (submitted accepted : List Submission) : Prop where
  draft : composer.pendingRequestId.isSome = true → submitted.getLast?.map Submission.draft = some composer.draft
  recent : composer.history.entries.map HistoryEntry.command =
    remembered ((accepted.filter fun submission => !submission.relay).map Submission.draft)

def submissionOf (composer : PaneComposer) (requestId : Option Nat) : List Submission :=
  (requestId.map fun id => ⟨id, composer.draft, composer.mode = .relay⟩).toList

theorem requestIdAt_succ (count : Nat) :
    requestIdAt (count + 1) = if requestIdAt count = 2 ^ 64 - 1 then 1 else requestIdAt count + 1 := by
  unfold requestIdAt
  split <;> omega

section Steps

variable {composer after : PaneComposer} {submitted accepted : List Submission} {action : PaneAction}
  {requestId : Option Nat}

theorem Kept.quiet (kept : Kept composer submitted) (shown : after.Shown)
    (next : after.nextRequestId = composer.nextRequestId)
    (pending : after.pendingRequestId = none ∨
      after.pendingRequestId = composer.pendingRequestId ∧ after.pendingIsRelay = composer.pendingIsRelay) :
    Kept after submitted where
  shown := shown
  ids := kept.ids
  next := next.trans kept.next
  pending := by
    rcases pending with none | ⟨same, relay⟩
    · simp [none]
    · rw [same, relay]
      exact kept.pending

theorem Kept.submit (kept : Kept composer submitted) (shown : composer.submitting.Shown) :
    Kept composer.submitting (submitted ++ submissionOf composer (some composer.nextRequestId)) where
  shown := shown
  ids := by
    simp only [submissionOf, Option.map_some, Option.toList_some, List.map_append, List.map_singleton,
      List.length_append, List.length_singleton, List.range_succ]
    rw [kept.ids, kept.next]
  next := by
    simp only [submissionOf, Option.map_some, Option.toList_some, List.length_append, List.length_singleton,
      PaneComposer.submitting]
    rw [requestIdAt_succ, kept.next]
  pending id found := by
    cases found
    exact ⟨_, by simp [submissionOf]; rfl, rfl, rfl⟩

theorem Kept.step (kept : Kept composer submitted) (shown : after.Shown) (step : composer.Step action requestId after) :
    Kept after (submitted ++ submissionOf composer requestId) := by
  cases step with
  | quiet quiet other | draft source other quiet =>
      simpa [submissionOf] using kept.quiet shown quiet.next quiet.pending
  | submit idle => exact kept.submit shown
  | @result waiting accepted waits =>
      have same : (composer.resulted accepted).nextRequestId = composer.nextRequestId := by
        cases accepted with
        | true | false => rfl
      have none : (composer.resulted accepted).pendingRequestId = none := by
        cases accepted with
        | true | false => rfl
      simpa [submissionOf] using kept.quiet shown same (.inl none)

theorem acceptedBy_of_other (other : ∀ requestId accepted, action ≠ .applyResult requestId accepted) :
    acceptedBy submitted action = [] := by
  unfold acceptedBy
  split
  next requestId => exact absurd rfl (other requestId true)
  next => rfl

theorem Kept.acceptedBy_pending (kept : Kept composer submitted) {waiting : Nat}
    (waits : composer.pendingRequestId = some waiting) :
    ∃ last, submitted.getLast? = some last ∧ last.relay = composer.pendingIsRelay ∧
      acceptedBy submitted (.applyResult waiting true) = [last] := by
  obtain ⟨last, found, named, relay⟩ := kept.pending waiting waits
  refine ⟨last, found, relay, ?_⟩
  have first : submitted.reverse.head? = some last := by rw [List.head?_reverse, found]
  obtain ⟨rest, split⟩ := List.head?_eq_some_iff.mp first
  simp [acceptedBy, split, named]

theorem Recalled.quiet (recalled : Recalled composer submitted accepted) (quiet : composer.Quiet after) :
    Recalled after submitted accepted where
  draft waits := by
    rcases quiet.pending with none | ⟨same, _⟩
    · simp [none] at waits
    · rw [quiet.draft]
      exact recalled.draft (same ▸ waits)
  recent := by
    rw [quiet.history]
    exact recalled.recent

theorem Recalled.result (kept : Kept composer submitted) (recalled : Recalled composer submitted accepted)
    {waiting : Nat} (waits : composer.pendingRequestId = some waiting) :
    Recalled (composer.resulted true) submitted (accepted ++ acceptedBy submitted (.applyResult waiting true)) where
  draft none := by cases none
  recent := by
    obtain ⟨last, found, relay, accepts⟩ := kept.acceptedBy_pending waits
    have draft := recalled.draft (by rw [waits]; rfl)
    rw [found] at draft
    have same : last.draft = composer.draft := Option.some.inj draft
    rw [accepts, List.filter_append, List.map_append]
    change (if composer.pendingIsRelay then composer.history
      else composer.history.record composer.draft).entries.map _ = _
    rw [← relay]
    cases isRelay : last.relay with
    | true => simpa [isRelay] using recalled.recent
    | false =>
        have recorded := record_remembered recalled.recent composer.draft
        simpa [isRelay, same] using recorded

theorem Recalled.step (kept : Kept composer submitted) (recalled : Recalled composer submitted accepted)
    (step : composer.Step action requestId after)
    (undisturbed : ∀ text, action = .setDraft text composer.epoch →
      composer.pendingRequestId = none ∨ text = composer.draft) :
    Recalled after (submitted ++ submissionOf composer requestId) (accepted ++ acceptedBy submitted action) := by
  cases step with
  | quiet quiet other =>
      rw [acceptedBy_of_other other]
      simpa [submissionOf] using recalled.quiet quiet
  | @draft action after text source other quiet =>
      have idle : composer.pendingRequestId = none ∨ text = composer.draft := source.elim .inl (undisturbed text)
      have redrafted : Recalled { composer with draft := text } submitted accepted := by
        refine ⟨fun waits => ?_, recalled.recent⟩
        change composer.pendingRequestId.isSome = true at waits
        rcases idle with none | rfl
        · rw [none] at waits
          cases waits
        · exact recalled.draft waits
      rw [acceptedBy_of_other other]
      simpa [submissionOf] using redrafted.quiet quiet
  | submit idle =>
      rw [acceptedBy_of_other (by simp), List.append_nil]
      exact ⟨fun _ => by simp [submissionOf]; rfl, recalled.recent⟩
  | @result waiting accepts waits =>
      rw [show submissionOf composer none = [] from rfl, List.append_nil]
      cases accepts with
      | true => exact recalled.result kept waits
      | false =>
          rw [show acceptedBy submitted (.applyResult waiting false) = [] from rfl, List.append_nil]
          exact ⟨(fun none => by cases none), recalled.recent⟩

end Steps

theorem perform_cases (traced : Traced) (action : ComposerAction) :
    ((traced.perform lower pane action).composer pane = traced.composer pane ∧
      (traced.perform lower pane action).submitted = traced.submitted ∧
      (traced.perform lower pane action).accepted = traced.accepted) ∨
    ∃ requestId after, action.pane = pane ∧ (traced.composer pane).apply lower action.action = .ok (requestId, after) ∧
      (traced.perform lower pane action).composer pane = after ∧
      (traced.perform lower pane action).submitted =
        traced.submitted ++ submissionOf (traced.composer pane) requestId ∧
      (traced.perform lower pane action).accepted = traced.accepted ++ acceptedBy traced.submitted action.action := by
  unfold perform
  split
  next => exact .inl ⟨rfl, rfl, rfl⟩
  next requestId state applied =>
    simp only [ComposerState.apply, bind_eq_ok, orRefuse_eq_ok, pure_eq_ok, Prod.mk.injEq] at applied
    obtain ⟨before, found, ⟨returned, after⟩, applied, rfl, rfl⟩ := applied
    by_cases own : action.pane = pane
    · subst own
      have same : before = traced.composer action.pane := by
        rw [composer]
        cases present : traced.state.panes action.pane with
        | some old =>
            rw [present] at found
            exact (Option.some.inj found).symm
        | none =>
            rw [present] at found
            simp only [Option.none_or] at found
            split at found
            · exact (Option.some.inj found).symm
            · cases found
      rw [same] at applied
      rw [if_pos rfl]
      exact .inr ⟨_, after, rfl, applied, by simp [composer], rfl, rfl⟩
    · rw [if_neg own]
      exact .inl ⟨by simp [composer, Ne.symm own], rfl, rfl⟩

theorem kept_perform (kept : Kept (traced.composer pane) traced.submitted) (action : ComposerAction) :
    Kept ((traced.perform lower pane action).composer pane) (traced.perform lower pane action).submitted := by
  rcases perform_cases traced action with ⟨same, submitted, _⟩ | ⟨requestId, after, _, applied, now, submitted, _⟩
  · rw [same, submitted]
    exact kept
  · obtain ⟨shown, step⟩ := PaneComposer.apply_step applied kept.shown
    rw [now, submitted]
    exact kept.step shown step

theorem recalled_perform (kept : Kept (traced.composer pane) traced.submitted)
    (recalled : Recalled (traced.composer pane) traced.submitted traced.accepted) {action : ComposerAction}
    (undisturbed : ∀ text, action = ⟨pane, .setDraft text (traced.composer pane).epoch⟩ →
      (traced.composer pane).pendingRequestId = none ∨ text = (traced.composer pane).draft) :
    Recalled ((traced.perform lower pane action).composer pane) (traced.perform lower pane action).submitted
      (traced.perform lower pane action).accepted := by
  rcases perform_cases traced action with
    ⟨same, submitted, accepted⟩ | ⟨requestId, after, own, applied, now, submitted, accepted⟩
  · rw [same, submitted, accepted]
    exact recalled
  · obtain ⟨shown, step⟩ := PaneComposer.apply_step applied kept.shown
    rw [now, submitted, accepted]
    refine recalled.step kept step fun text set => undisturbed text ?_
    obtain ⟨named, kind⟩ := action
    change named = pane at own
    change kind = _ at set
    rw [own, set]

theorem kept_play (kept : Kept (traced.composer pane) traced.submitted) (actions : List ComposerAction) :
    Kept ((traced.play lower pane actions).composer pane) (traced.play lower pane actions).submitted := by
  induction actions generalizing traced with
  | nil => exact kept
  | cons action actions ih => exact ih (kept_perform kept action)

theorem recalled_play {actions : List ComposerAction} (kept : Kept (traced.composer pane) traced.submitted)
    (recalled : Recalled (traced.composer pane) traced.submitted traced.accepted)
    (undisturbed : traced.Undisturbed lower pane actions) :
    Recalled ((traced.play lower pane actions).composer pane) (traced.play lower pane actions).submitted
      (traced.play lower pane actions).accepted := by
  induction actions generalizing traced with
  | nil => exact recalled
  | cons action actions ih =>
      exact ih (kept_perform kept action) (recalled_perform kept recalled undisturbed.1) undisturbed.2

theorem kept_start : Kept {} [] where
  shown absent := by cases absent
  ids := rfl
  next := rfl
  pending _ absent := by cases absent

theorem Kept.ids_nodup {composer : PaneComposer} {submitted : List Submission} (kept : Kept composer submitted)
    (few : submitted.length < 2 ^ 64) : (submitted.map Submission.id).Nodup := by
  rw [kept.ids]
  refine List.Nodup.map_on ?_ List.nodup_range
  intro first firstBelow second secondBelow same
  rw [List.mem_range] at firstBelow secondBelow
  unfold requestIdAt at same
  omega

def submittedOnce : List ComposerAction :=
  [⟨1, .applyRuntimeEligibility (some .available) 1⟩, ⟨1, .setDraft ['a'] 2⟩, ⟨1, .submit 2⟩, ⟨1, .setDraft ['a'] 3⟩,
    ⟨1, .applyResult 1 true⟩]

end Traced

end Seyal.Client.Composer
