import Seyal.Runtime.Session.Blocks

namespace Seyal.Runtime.Session

open Program Protocol Terminal Run Keeps
open SshSpawn (ShellIntegrationToken)

/-! Direct input is held while a session is set up, and no longer than its deadline. -/

variable {entry : Entry} {overlay next : SessionOverlay} {event : SessionEvent}

/-- A session that holds the input has its secret and a deadline. -/
def Guarded (entry : Entry) : Prop :=
  entry.session.holdsDirectInput = true →
    entry.sessionRuntime.secret.isSome = true ∧ entry.sessionRuntime.deadline.isSome = true

/-- The flag that the input looks at says what the overlay says. -/
structure Held (entry : Entry) : Prop where
  flag : entry.directInputHeld = entry.session.holdsDirectInput
  guarded : Guarded entry

theorem Guarded.of_free (free : entry.session.holdsDirectInput = false) : Guarded entry := fun holds => by
  rw [free] at holds
  cases holds

theorem SessionOverlay.free_of_on (moved : overlay.on event = some next) (notArmed : event ≠ .accept)
    (notDelivering : event ≠ .beginDelivering) : next.holdsDirectInput = false := by
  unfold SessionOverlay.on at moved
  cases event with
  | accept => exact absurd rfl notArmed
  | beginDelivering => exact absurd rfl notDelivering
  | _ =>
      cases overlay <;> simp only [Option.ite_none_right_eq_some, Option.some.injEq, reduceCtorEq] at moved <;>
        first | (subst moved; rfl) | (rw [← moved.2]; rfl)

theorem closeStep_frees {kind : SessionClose} {delivered : Option Nat} {step : CloseStep}
    (closes : closeStep overlay kind delivered = some step) :
    ((overlay.on step.event).getD overlay).holdsDirectInput = false := by
  cases overlay <;> cases kind <;> cases closes <;> rfl

theorem closeStep_of_holds (holds : overlay.holdsDirectInput = true) (kind : SessionClose) (delivered : Option Nat) :
    (closeStep overlay kind delivered).isSome = true := by
  cases overlay <;> first | rfl | cases holds

theorem held_noteInputTarget (guarded : Guarded entry) :
    wp noteInputTarget (fun _ => Held) (fun _ => Held) entry :=
  ⟨rfl, guarded⟩

theorem holds_noteInputTarget : Keeps Held noteInputTarget := fun _ held => held_noteInputTarget held.guarded

theorem holds_publish : Keeps Held publishComposerStatusIfChanged := holds_noteInputTarget

theorem holds_applyLocal (env : Env) (event : IntegrationEvent) : Keeps Held (applyLocalIntegrationEvent env event) :=
  fun _ held => ⟨held.flag, held.guarded⟩

theorem guarded_applySession (env : Env) (event : IntegrationEvent) (guarded : Guarded entry) :
    wp (applySessionEffects env event) (fun _ => Guarded) (fun _ _ => False) entry :=
  guarded

theorem holds_applySession (env : Env) (event : IntegrationEvent) : Keeps Held (applySessionEffects env event) :=
  fun _ held => ⟨held.flag, held.guarded⟩

theorem wp_closeSession (env : Env) (kind : SessionClose) (held : Held entry) :
    wp (closeSession env kind)
      (fun _ after => Held after ∧ (entry.session.holdsDirectInput = true → after.directInputHeld = false))
      (fun _ _ => False) entry := by
  rw [closeSession, wp_bind, wp_get]
  split
  next stays =>
    refine ⟨held, fun holds => ?_⟩
    have closes := closeStep_of_holds holds kind entry.sessionRuntime.delivered
    rw [stays] at closes
    cases closes
  next step closes =>
    have same : wp (closeEffects env step) (fun _ after => after.session = entry.session) (fun _ _ => False) entry := by
      rw [closeEffects, wp_ite]
      split <;> rfl
    rw [wp_bind]
    refine wp_mono same (fun _ after same => ?_) fun _ _ => False.elim
    have free := closeStep_frees closes
    rw [← same] at free
    exact ⟨⟨rfl, .of_free free⟩, fun _ => free⟩

theorem holds_closeSession (env : Env) (kind : SessionClose) : Keeps Held (closeSession env kind) := fun _ held =>
  wp_mono (wp_closeSession env kind held) (fun _ _ after => after.1) fun _ _ => False.elim

theorem holds_considerSessionCandidate (env : Env) : Keeps Held (considerSessionCandidate env) := by
  refine get fun entry held => ?_
  split
  next =>
    rw [wp_ite]
    split
    next => exact held
    next =>
      rw [wp_ite]
      split
      next => exact held
      next =>
        split
        next moved =>
          rw [wp_bind, wp_modify]
          exact held_noteInputTarget (.of_free (SessionOverlay.free_of_on moved nofun nofun))
        next => exact held
  next => exact held

theorem holds_expire (env : Env) : Keeps Held (expireSessionBootstraps env) := by
  refine get fun entry held => ?_
  split
  next =>
    rw [wp_ite]
    split
    next => exact holds_closeSession env .fail entry held
    next => exact held
  next => exact held

theorem holds_detach (env : Env) : Keeps Held (abortBootstrapOnDetach env) := by
  refine get fun entry held => ?_
  rw [wp_ite]
  split
  next => exact holds_closeSession env .fail entry held
  next => exact held

theorem holds_commitSpawn (block : UInt64) (spawn : Option SpawnArm) : Keeps Held (commitSpawn block spawn) := by
  cases spawn with
  | none => exact .pure ()
  | some arm =>
      refine get fun entry held => ?_
      split
      next => exact held
      next moved =>
        rw [wp_bind, wp_modify]
        exact held_noteInputTarget (.of_free (SessionOverlay.free_of_on moved nofun nofun))

theorem holds_endOrphanedSpawn (env : Env) : Keeps Held (endOrphanedSpawn env) := by
  refine get fun entry held => ?_
  have closed := holds_closeSession env .endSession entry held
  split
  next =>
    split
    next => exact held
    next =>
      rw [wp_ite]
      split
      next => exact closed
      next => exact held
    next => exact closed
  next => exact held

/-- The secrets of a session and its stager are at hand. -/
def Env.draws (env : Env) : Bool := env.challenge.isOk && env.secret.isOk && env.stager.isOk

theorem held_beginArmedBootstrap {env : Env} (draws : env.draws = true) {host generation : UInt64}
    (armed : entry.session = .armed host generation) :
    wp (beginArmedBootstrap env) (fun _ => Held) (fun _ => Held) entry := by
  rw [beginArmedBootstrap, wp_bind, wp_get, armed, wp_bind]
  refine wp_check (fun challenge _ => ?_) fun error failed =>
    absurd draws (by simp [Env.draws, failed, Except.isOk, Except.toBool])
  rw [wp_bind]
  refine wp_check (fun secret _ => ?_) fun error failed =>
    absurd draws (by simp [Env.draws, failed, Except.isOk, Except.toBool])
  rw [wp_bind]
  refine wp_check (fun _ _ => ?_) fun error failed =>
    absurd draws (by simp [Env.draws, failed, Except.isOk, Except.toBool])
  rw [wp_bind, wp_modify, wp_bind]
  refine wp_mono (held_noteInputTarget fun _ => ⟨rfl, rfl⟩) (fun _ after held => ?_) fun _ _ => id
  split
  next => exact holds_closeSession env .fail after held
  next => exact holds_publish after held

theorem holds_offerSession (env : Env) (hostBlock : UInt64) : Keeps Held (offerSession env hostBlock) := by
  refine get fun entry held => ?_
  rw [wp_ite]
  split
  next => exact held
  next =>
    rw [wp_ite]
    split
    next => exact holds_publish entry held
    next =>
      split
      next => exact held
      next =>
        rw [wp_bind, wp_modify]
        split
        next => exact ⟨held.flag, held.guarded⟩
        next moved =>
          rw [wp_bind, wp_modify, wp_bind]
          exact wp_mono (held_noteInputTarget (.of_free (SessionOverlay.free_of_on moved nofun nofun)))
            (fun _ => holds_publish) fun _ _ => id

/-- An operation that arms a session has its secrets drawn and its stager made. -/
def Operation.drawsFor (entry : Entry) : Operation → Bool
  | .consent env hostBlock offerGeneration presentationEpoch true =>
      !(entry.session = .offered hostBlock offerGeneration && presentationEpoch = entry.offerPresentationEpoch) ||
        env.draws
  | _ => true

theorem SessionOverlay.offered_of_accept (moved : overlay.on .accept = some next) :
    ∃ host generation, overlay = .offered host generation ∧ next = .armed host generation := by
  cases overlay <;> cases moved
  exact ⟨_, _, rfl, rfl⟩

theorem holds_applySessionConsent {env : Env} {hostBlock offerGeneration presentationEpoch : UInt64} {accept : Bool}
    (held : Held entry)
    (draws : (Operation.consent env hostBlock offerGeneration presentationEpoch accept).drawsFor entry = true) :
    wp (applySessionConsent env hostBlock offerGeneration presentationEpoch accept) (fun _ => Held) (fun _ => Held)
      entry := by
  rw [applySessionConsent, wp_bind, wp_get, wp_ite]
  split
  next => exact held
  next fence =>
    push Not at fence
    obtain ⟨sameHost, sameGeneration, sameEpoch⟩ := fence
    split
    next => exact held
    next next moved =>
      rw [wp_bind, wp_modify, wp_bind]
      refine wp_mono ?_ (fun _ => holds_considerSessionCandidate env) fun _ _ => id
      cases accept with
      | true =>
          obtain ⟨host, generation, offered, armed⟩ := SessionOverlay.offered_of_accept moved
          rw [offered] at sameHost sameGeneration
          cases sameHost
          cases sameGeneration
          refine held_beginArmedBootstrap ?_ armed
          simpa [Operation.drawsFor, offered, sameEpoch] using draws
      | false =>
          rw [answerOffer, wp_bind]
          exact wp_mono (held_noteInputTarget (.of_free (SessionOverlay.free_of_on moved nofun nofun)))
            (fun _ => holds_publish) fun _ _ => id

theorem holds_noteStarted (env : Env) (block : Option UInt64) : Keeps Held (noteStarted env block) := by
  cases block with
  | none => exact .pure ()
  | some block =>
      refine bind (get fun entry held => ?_) fun _ => holds_considerSessionCandidate env
      rw [wp_ite]
      split
      next =>
        split
        next moved =>
          rw [wp_bind, wp_modify]
          exact held_noteInputTarget (.of_free (SessionOverlay.free_of_on moved nofun nofun))
        next => exact held
      next => exact held

theorem holds_acceptReadiness (env : Env) (token : ShellIntegrationToken) (shell : SessionShellKind) :
    Keeps Held (acceptReadiness env token shell) := by
  have closed : Keeps Held (do closeSession env .fail; return false) :=
    (holds_closeSession env .fail).bind fun _ => .pure false
  refine get fun entry held => ?_
  rw [wp_ite]
  split
  next => exact held
  next ready =>
    push Not at ready
    have secret : entry.sessionRuntime.secret.isSome = true := by
      simpa [Option.isSome_iff_ne_none] using ready.2.2
    rw [wp_bind, wp_modify]
    split
    next => exact closed _ ⟨held.flag, held.guarded⟩
    next =>
      rw [wp_bind, wp_modify, wp_bind]
      refine wp_mono (held_noteInputTarget fun _ => ⟨secret, rfl⟩) (fun _ after held => ?_) fun _ _ => id
      split
      next => exact closed after held
      next =>
        exact ((modify fun _ held => ⟨held.flag, held.guarded⟩).bind fun _ =>
          holds_publish.bind fun _ => .pure false) after held

theorem guarded_trustSessionMarker (env : Env) (event : IntegrationEvent) (guarded : Guarded entry) :
    wp (trustSessionMarker env event) (fun _ => Guarded) (fun _ _ => False) entry := by
  rw [trustSessionMarker, wp_bind, wp_get]
  split
  next =>
    rw [wp_ite]
    split
    next => exact guarded
    next =>
      split
      next => exact guarded
      next moved =>
        rw [wp_bind, wp_modify]
        exact guarded_applySession env event (.of_free (SessionOverlay.free_of_on moved nofun nofun))
  next => exact guarded_applySession env event guarded
  next => exact guarded

theorem holds_applySessionMarker (env : Env) (event : IntegrationEvent) :
    Keeps Held (applySessionMarker env event) := by
  intro entry held
  rw [applySessionMarker, wp_bind]
  refine wp_mono (guarded_trustSessionMarker env event held.guarded) (fun _ after guarded => ?_)
    fun _ _ => False.elim
  rw [wp_bind]
  exact wp_mono (held_noteInputTarget guarded) (fun _ => holds_publish.bind fun _ => .pure false) fun _ _ => id

theorem holds_applyLocalMarker (env : Env) (event : IntegrationEvent) : Keeps Held (applyLocalMarker env event) := by
  have ends : Keeps Held (endAtLocalMarker env) := by
    refine get fun entry held => ?_
    rw [wp_ite]
    split
    next => exact holds_closeSession env .endSession entry held
    next => exact held
  refine ends.bind fun _ => get fun entry held => ?_
  refine ((holds_applyLocal env event).bind fun changed => get fun after held => ?_) entry held
  exact ((holds_noteStarted env _).bind fun _ => (holds_endOrphanedSpawn env).bind fun _ => .pure changed) after held

theorem holds_dispatch (env : Env) (event : ShellIntegrationEvent) :
    Keeps Held (dispatchShellIntegrationEvent env event) := by
  have marker (token : ShellIntegrationToken) (event : IntegrationEvent) :
      Keeps Held (dispatchMarker env token event) := by
    refine get fun entry held => ?_
    split
    next => exact holds_applyLocalMarker env event entry held
    next => exact holds_applySessionMarker env event entry held
    next => exact held
  cases event with
  | readiness token shell => exact holds_acceptReadiness env token shell
  | promptStarted token | commandStarted token line | commandFinished token exitStatus line => exact marker token _

theorem holds_observe (events : List (Env × ShellIntegrationEvent)) (env : Env) :
    Keeps Held (observeShellIntegrationEvents events env) := by
  have screen : Keeps Held (noteLocalScreen env) := by
    refine get fun entry held => ?_
    rw [wp_ite]
    split
    next => exact holds_applyLocal env _ entry held
    next => exact held
  have sessionScreen : Keeps Held (noteSessionScreen env) := by
    refine get fun entry held => ?_
    rw [wp_ite]
    split
    next => exact holds_applySession env _ entry held
    next => exact held
  refine bind (forEach fun observed => ?_) fun _ => screen.bind fun _ => sessionScreen.bind fun _ =>
    holds_publish
  exact (holds_dispatch observed.1 observed.2).bind fun _ => .pure ()

theorem holds_submitSessionCommand (env : Env) (command : List Char) :
    Keeps Held (submitSessionCommand env command) := by
  refine get fun entry held => ?_
  rw [wp_ite]
  split
  next => exact held
  next =>
    split
    next => exact held
    next =>
      rw [wp_bind]
      refine wp_check (fun _ _ => ?_) fun _ _ => held
      split
      next => exact held
      next =>
        rw [wp_bind, wp_modify]
        exact (holds_noteInputTarget.bind fun _ => holds_publish.bind fun _ => .pure _) _ ⟨held.flag, held.guarded⟩

theorem holds_submitLocalCommand (env : Env) (command : List Char) (targetGeneration : Option Nat) :
    Keeps Held (submitLocalCommand env command targetGeneration) := by
  refine get fun entry held => ?_
  rw [wp_ite]
  split
  next => exact held
  next =>
    rw [wp_bind]
    refine wp_mono (wp_spawnFor env command targetGeneration entry) (fun spawn after same => ?_)
      fun _ _ same => same ▸ held
    subst same
    split
    next => exact held
    next =>
      rw [wp_bind]
      refine wp_check (fun _ _ => ?_) fun _ _ => held
      split
      next => exact held
      next block timeline _ =>
        rw [wp_bind, wp_modify]
        exact ((holds_commitSpawn block spawn).bind fun _ => holds_noteInputTarget.bind fun _ =>
          holds_publish.bind fun _ => .pure _) _ ⟨held.flag, held.guarded⟩

theorem holds_submit (env : Env) (command : List Char) (targetGeneration : Option Nat) :
    Keeps Held (submitComposerCommandFenced env command targetGeneration) := by
  have sent (admission : ComposerAdmission) : Keeps Held (do check env.submitted; return admission) :=
    (Keeps.check env.submitted).bind fun _ => .pure admission
  intro entry held
  rw [submitComposerCommandFenced, wp_ite]
  split
  next => exact held
  next =>
    refine (holds_noteInputTarget.bind fun _ => Keeps.get fun entry held => ?_) entry held
    split
    next => exact held
    next => exact held
    next => exact sent .relayed entry held
    next =>
      rw [wp_ite]
      split
      next => exact holds_submitSessionCommand env command entry held
      next =>
        rw [wp_ite]
        split
        next => exact sent .unsupported entry held
        next => exact holds_submitLocalCommand env command targetGeneration entry held

theorem holds_run {operation : Operation} (held : Held entry) (draws : operation.drawsFor entry = true) :
    wp operation.run (fun _ => Held) (fun _ => Held) entry := by
  cases operation with
  | observe events env => exact holds_observe events env entry held
  | directInput env => exact ((holds_applyLocal env _).bind fun _ => holds_publish) entry held
  | candidateEdge env => exact ((holds_considerSessionCandidate env).bind fun _ => holds_publish) entry held
  | attach env => exact holds_considerSessionCandidate env entry held
  | submit env command targetGeneration =>
      exact ((holds_submit env command targetGeneration).bind fun _ => .pure ()) entry held
  | offer env hostBlock => exact holds_offerSession env hostBlock entry held
  | consent env hostBlock offerGeneration presentationEpoch accept => exact holds_applySessionConsent held draws
  | deadlines env => exact holds_expire env entry held
  | detach env => exact holds_detach env entry held
  | ended env =>
      exact ((holds_closeSession env .endSession).bind fun _ => (holds_applyLocal env _).bind fun _ => holds_publish)
        entry held

/-- Each session that the operations arm has its secrets drawn and its stager made. -/
def Entry.draws : Entry → List Operation → Bool
  | _, [] => true
  | entry, operation :: rest =>
      operation.drawsFor entry &&
        match operation.run entry with
        | none => true
        | some (_, after) => after.draws rest

theorem holds_play (held : Held entry) (operations : List Operation) (draws : entry.draws operations = true) :
    ∃ after, entry.play operations = some after ∧ Held after := by
  induction operations generalizing entry with
  | nil => exact ⟨entry, rfl, held⟩
  | cons operation rest ih =>
      obtain ⟨here, later⟩ := (Bool.and_eq_true _ _).mp draws
      obtain ⟨outcome, after, runs, held⟩ := exists_of_wp (holds_run held here)
      rw [runs] at later
      obtain ⟨last, played, held⟩ := ih held later
      exact ⟨last, by simp [Entry.play, runs, played], held⟩

theorem Held.released (held : Held entry) (holds : entry.directInputHeld = true) :
    ∃ deadline, entry.sessionRuntime.deadline = some deadline ∧ ∀ env : Env, deadline ≤ env.now →
      ∃ after, (Operation.deadlines env).run entry = some (.ok (), after) ∧ after.directInputHeld = false := by
  have inside : entry.session.holdsDirectInput = true := held.flag ▸ holds
  obtain ⟨deadline, due⟩ := Option.isSome_iff_exists.mp (held.guarded inside).2
  refine ⟨deadline, due, fun env late => ?_⟩
  have closed : wp (Operation.deadlines env).run (fun _ after => after.directInputHeld = false) (fun _ _ => False)
      entry := by
    rw [Operation.run, expireSessionBootstraps, wp_bind, wp_get, due]
    simp only [late, if_true]
    exact wp_mono (wp_closeSession env .fail held) (fun _ _ after => after.2 inside) fun _ _ => False.elim
  obtain ⟨⟨outcome, after⟩, ran⟩ := Option.isSome_iff_exists.mp (isSome_of_wp closed)
  cases outcome with
  | ok _ => exact ⟨after, ran, wp_ok closed ran⟩
  | error _ => exact (wp_error closed ran).elim

/-- After every operation of a run whose sessions get their secrets, the flag is set exactly while a
session is armed or delivering, such a session has its secret and a deadline, and once the
deadline has passed the input is free again. -/
theorem hold_coherent (shellNonce : Option ShellIntegrationToken) (mode : ShellIntegrationMode)
    (operations : List Operation) (draws : (Entry.starting shellNonce mode).draws operations = true) :
    ∃ entry, (Entry.starting shellNonce mode).play operations = some entry ∧
      entry.directInputHeld = entry.session.holdsDirectInput ∧
      (entry.session.holdsDirectInput = true →
        entry.sessionRuntime.secret.isSome = true ∧ entry.sessionRuntime.deadline.isSome = true) ∧
      (entry.directInputHeld = true → ∃ deadline, entry.sessionRuntime.deadline = some deadline ∧
        ∀ env : Env, deadline ≤ env.now → ∃ after, (Operation.deadlines env).run entry = some (.ok (), after) ∧
          after.directInputHeld = false) := by
  have rests : Held (.starting shellNonce mode) := ⟨rfl, .of_free rfl⟩
  obtain ⟨entry, played, held⟩ := holds_play rests operations draws
  exact ⟨entry, played, held.flag, held.guarded, held.released⟩

def tokenOf (byte : UInt8) : ShellIntegrationToken := .replicate 16 byte

def Env.quiet : Env where
  alternateScreen := false
  bracketedPaste := false
  inputPending := false
  inputReserved := false
  ioActive := true
  cursorLine := 0
  clampBlockSpan := Prod.mk
  submitted := .ok ()
  challenge := .ok (tokenOf 2)
  secret := .ok (tokenOf 3)
  stager := .ok ()
  now := 0

def offerThenAccept (env : Env) : List Operation :=
  [.observe [(.quiet, .promptStarted (tokenOf 1))] .quiet, .submit .quiet ['a'] none,
    .observe [(.quiet, .commandStarted (tokenOf 1) 0)] .quiet, .offer .quiet 1, .consent env 1 1 0 true]

theorem hold_coherent_armed : (Entry.starting (some (tokenOf 1)) .zshHook).draws (offerThenAccept .quiet) = true ∧
    ∃ entry, (Entry.starting (some (tokenOf 1)) .zshHook).play (offerThenAccept .quiet) = some entry ∧
      entry.directInputHeld = entry.session.holdsDirectInput := by
  have draws : (Entry.starting (some (tokenOf 1)) .zshHook).draws (offerThenAccept .quiet) = true := by decide +kernel
  obtain ⟨entry, played, flag, _⟩ := hold_coherent (some (tokenOf 1)) .zshHook (offerThenAccept .quiet) draws
  exact ⟨draws, entry, played, flag⟩

/-- What a hold rests on, after the operations. -/
def holdAfter (operations : List Operation) : Option (SessionOverlay × Bool × Bool × Option Nat) :=
  ((Entry.starting (some (tokenOf 1)) .zshHook).play operations).map fun entry =>
    (entry.session, entry.directInputHeld, entry.sessionRuntime.secret.isSome, entry.sessionRuntime.deadline)

/-- The challenge cannot be drawn: the session stays armed without a secret or a deadline, at first
without the hold, and the next operation that looks at the overlay holds the input for good. -/
theorem hold_without_deadline :
    holdAfter (offerThenAccept { Env.quiet with challenge := .error .io }) = some (.armed 1 1, false, false, none) ∧
    holdAfter (offerThenAccept { Env.quiet with challenge := .error .io } ++ [.candidateEdge .quiet]) =
      some (.armed 1 1, true, false, none) ∧
    holdAfter (offerThenAccept { Env.quiet with challenge := .error .io } ++
      [.candidateEdge .quiet, .deadlines { Env.quiet with now := 2 ^ 64 }]) = some (.armed 1 1, true, false, none) := by
  decide +kernel

end Seyal.Runtime.Session
