import Seyal.Runtime.Session.Overlay
import Seyal.Runtime.SshSpawn
import Seyal.Runtime.TimelineRuns

namespace Seyal.Runtime.Session

open Program Protocol Terminal
open SshSpawn (ShellIntegrationToken parseInteractiveSsh spawnSshLine payloadLen)

/-! What the handlers of the runtime do to the entry of one execution. The frames that they
publish are not part of the entry. -/

inductive RuntimeError where
  | capacityExceeded
  | io
  | ingress
  | shellIntegration (reason : String)
  deriving Repr, DecidableEq

/-- What a handler finds around the entry: the terminal and the queue of its input, whether
that queue takes more, the secrets that are drawn, and the time. -/
structure Env where
  alternateScreen : Bool
  bracketedPaste : Bool
  inputPending : Bool
  inputReserved : Bool
  ioActive : Bool
  cursorLine : UInt64
  clampBlockSpan : UInt64 → UInt64 → UInt64 × UInt64
  submitted : Except RuntimeError Unit
  challenge : Except RuntimeError ShellIntegrationToken
  secret : Except RuntimeError ShellIntegrationToken
  stager : Except RuntimeError Unit
  now : Nat

structure PendingComposerCommand where
  command : List Char
  blockId : UInt64
  deriving Repr, DecidableEq

structure SessionRuntime where
  secret : Option ShellIntegrationToken := none
  challenge : Option ShellIntegrationToken := none
  integration : IntegrationState := .unproven
  pending : Option PendingComposerCommand := none
  deadline : Option Nat := none
  delivered : Option Nat := none
  deriving DecidableEq

inductive ShellIntegrationMode where
  | zshHook
  | unsupported
  deriving Repr, DecidableEq

structure Entry where
  shellNonce : Option ShellIntegrationToken
  mode : ShellIntegrationMode
  integration : IntegrationState := .unproven
  pendingComposer : Option PendingComposerCommand := none
  timeline : CommandBlockTimeline := .empty
  session : SessionOverlay := .none
  sessionRuntime : SessionRuntime := {}
  directInputHeld : Bool := false
  inputTarget : InputTargetFact := .none
  targetGeneration : Nat := 1
  nextOfferGeneration : UInt64 := 1
  offerPresentationEpoch : UInt64 := 0

abbrev Handler := Run Entry RuntimeError

def armedDeadline : Nat := 5000

def deliverDeadline : Nat := 5000

/-- A machine with its pending command, and the timeline that it starts and completes blocks in. -/
structure Lane where
  integration : IntegrationState
  pending : Option PendingComposerCommand
  timeline : CommandBlockTimeline

def completeTimelineBlock (env : Env) (block : UInt64) (exit : BlockExit) (line : Option UInt64)
    (timeline : CommandBlockTimeline) : Bool × CommandBlockTimeline :=
  let endLine := line.getD env.cursorLine
  let exitStatus :=
    match exit with
    | .code status => some status
    | .unknown => none
  let (spanStart, endLine) :=
    match timeline.records.find? (fun record => record.id = block) with
    | none => (none, endLine)
    | some record =>
        let (clampedStart, clampedEnd) := env.clampBlockSpan record.startLine endLine
        (if clampedStart ≠ record.startLine then some clampedStart else none, clampedEnd)
  match timeline.completeSpan block spanStart endLine exitStatus with
  | (.ok (), after) => (true, after)
  | (.error _, after) => (false, after)

/-- How a pending command becomes a running block. -/
abbrev Start := UInt64 → List Char → UInt64 → CommandBlockTimeline →
  Except CommandBlockTimelineError Unit × CommandBlockTimeline

def Lane.effect (start : Start) (env : Env) (lane : Lane) : Effect → Bool × Lane
  | .startPendingBlock line =>
      match lane.pending with
      | none => (false, lane)
      | some pending =>
          match start pending.blockId pending.command line lane.timeline with
          | (.ok (), timeline) => (true, ⟨lane.integration.blockStarted pending.blockId, none, timeline⟩)
          | (.error _, timeline) => (false, ⟨lane.integration, none, timeline⟩)
  | .dropPending => (false, { lane with pending := none })
  | .complete block exit line =>
      let (changed, timeline) := completeTimelineBlock env block exit line lane.timeline
      (changed, { lane with timeline := timeline })

def Lane.effects (start : Start) (env : Env) : Lane → List Effect → Bool × Lane
  | lane, [] => (false, lane)
  | lane, effect :: rest =>
      let (changed, lane) := lane.effect start env effect
      let (others, lane) := lane.effects start env rest
      (changed || others, lane)

def Lane.apply (start : Start) (env : Env) (event : IntegrationEvent) (lane : Lane) : Bool × Lane :=
  let transition := lane.integration.on event
  Lane.effects start env { lane with integration := transition.next } transition.effects

namespace Entry

def localLane (entry : Entry) : Lane := ⟨entry.integration, entry.pendingComposer, entry.timeline⟩

def withLocal (entry : Entry) (lane : Lane) : Entry :=
  { entry with integration := lane.integration, pendingComposer := lane.pending, timeline := lane.timeline }

def sessionLane (entry : Entry) : Lane :=
  ⟨entry.sessionRuntime.integration, entry.sessionRuntime.pending, entry.timeline⟩

def withSession (entry : Entry) (lane : Lane) : Entry :=
  { entry with
    sessionRuntime := { entry.sessionRuntime with integration := lane.integration, pending := lane.pending }
    timeline := lane.timeline }

def startSession (entry : Entry) : Start := fun id command line =>
  CommandBlockTimeline.startSession id command line (entry.session.hostBlock.getD 0)

end Entry

def applyLocalIntegrationEvent (env : Env) (event : IntegrationEvent) : Handler Bool := fun entry =>
  let (changed, lane) := entry.localLane.apply CommandBlockTimeline.start env event
  some (.ok changed, entry.withLocal lane)

def applySessionEffects (env : Env) (event : IntegrationEvent) : Handler Bool := fun entry =>
  let (changed, lane) := entry.sessionLane.apply entry.startSession env event
  some (.ok changed, entry.withSession lane)

def nextGeneration (value : Nat) : Nat := max (min (value + 1) (2 ^ 64 - 1)) 1

def noteInputTarget : Handler Unit :=
  modify fun entry =>
    let integration := if entry.session.isTrusted then entry.sessionRuntime.integration else entry.integration
    let target := inputTarget integration
    { entry with
      inputTarget := target
      targetGeneration :=
        if entry.inputTarget ≠ target then nextGeneration entry.targetGeneration else entry.targetGeneration
      directInputHeld := entry.session.holdsDirectInput }

/-- Publishing begins with the input target. -/
def publishComposerStatusIfChanged : Handler Unit := noteInputTarget

def composerFacts (env : Env) (entry : Entry) (controller : Bool) : ComposerFacts where
  integration := entry.integration
  primaryScreen := !env.alternateScreen
  flow := true
  controller := controller
  overlay := entry.session
  sessionIntegration := entry.sessionRuntime.integration

def considerSessionCandidate (env : Env) : Handler Unit := do
  let entry ← get
  match entry.integration with
  | .running (some block) =>
      if entry.session ≠ .none then return ()
      else if env.alternateScreen ∨ env.inputPending ∨ entry.pendingComposer.isSome then return ()
      else
        match entry.session.on (.markCandidate block) with
        | some next => do
            modify fun entry => { entry with session := next }
            noteInputTarget
        | none => return ()
  | _ => return ()

inductive SessionClose where
  | fail
  | endSession
  deriving Repr, DecidableEq

inductive CloseStep where
  | fail (pad : Bool)
  | endSession
  | clear
  deriving Repr, DecidableEq

def CloseStep.event : CloseStep → SessionEvent
  | .fail _ => .fail
  | .endSession => .endSession
  | .clear => .clear

/-- What closing does; none where there is nothing to close. -/
def closeStep (overlay : SessionOverlay) (kind : SessionClose) (delivered : Option Nat) : Option CloseStep :=
  match overlay, kind with
  | .delivering _ _, _ => some (.fail (delivered ≠ some payloadLen))
  | .armed _ _, _ => some (.fail false)
  | .spawnArmed _, .fail => some (.fail false)
  | .trusted _, .endSession => some .endSession
  | .candidate _, .endSession => some .clear
  | .offered _ _, .endSession => some .clear
  | .spawnArmed _, .endSession => some .clear
  | _, _ => none

/-- A session that was not begun leaves its machine alone. -/
def closeEffects (env : Env) (step : CloseStep) : Handler Bool :=
  if step = .clear then pure false else applySessionEffects env .executionEnded

/-- The padding that ends a delivery is queued if there is room, and nothing looks at whether it was. -/
def closeSession (env : Env) (kind : SessionClose) : Handler Unit := do
  let entry ← get
  match closeStep entry.session kind entry.sessionRuntime.delivered with
  | none => return ()
  | some step => do
      let _ ← closeEffects env step
      modify fun entry => { entry with
        session := (entry.session.on step.event).getD entry.session
        sessionRuntime := { entry.sessionRuntime with
          secret := none, challenge := none, pending := none, deadline := none, delivered := none } }
      noteInputTarget
      publishComposerStatusIfChanged

def expireSessionBootstraps (env : Env) : Handler Unit := do
  let entry ← get
  match entry.sessionRuntime.deadline with
  | some deadline => if deadline ≤ env.now then closeSession env .fail else return ()
  | none => return ()

def abortBootstrapOnDetach (env : Env) : Handler Unit := do
  let entry ← get
  if entry.session.holdsDirectInput then closeSession env .fail else return ()

structure SpawnArm where
  line : List Char
  secret : ShellIntegrationToken
  challenge : ShellIntegrationToken

def prepareSpawnArm (env : Env) (command : List Char) : Handler (Option SpawnArm) := do
  let entry ← get
  match (parseInteractiveSsh command).filter fun _ => entry.session.canSpawnArm with
  | none => return none
  | some args => do
      let challenge ← Run.check env.challenge
      let secret ← Run.check env.secret
      let line ← Run.check ((spawnSshLine args challenge).mapError fun
        | .shellIntegration reason => .shellIntegration reason)
      return some ⟨line, secret, challenge⟩

def commitSpawnArm (arm : SpawnArm) (hostBlock : UInt64) : Handler Unit := do
  let entry ← get
  match entry.session.on (.spawnArm hostBlock) with
  | none => return ()
  | some next => do
      modify fun entry => { entry with
        session := next
        sessionRuntime := { secret := some arm.secret, challenge := some arm.challenge } }
      noteInputTarget

def endOrphanedSpawn (env : Env) : Handler Unit := do
  let entry ← get
  match entry.session with
  | .spawnArmed hostBlock =>
      match entry.integration with
      | .pending => return ()
      | .running (some block) => if block ≠ hostBlock then closeSession env .endSession else return ()
      | _ => closeSession env .endSession
  | _ => return ()

/-- The overlay is armed already. The stager refuses to carry the secret. -/
def beginArmedBootstrap (env : Env) : Handler Unit := do
  let entry ← get
  match entry.session with
  | .armed _ _ => do
      let challenge ← Run.check env.challenge
      let secret ← Run.check env.secret
      Run.check env.stager
      modify fun entry => { entry with
        sessionRuntime :=
          { secret := some secret, challenge := some challenge, deadline := some (env.now + armedDeadline) } }
      noteInputTarget
      match env.submitted with
      | .error _ => closeSession env .fail
      | .ok () => publishComposerStatusIfChanged
  | _ => throw (.shellIntegration "session bootstrap requires Armed")

def SessionOverlay.candidateFor (hostBlock : UInt64) (overlay : SessionOverlay) : Option SessionOverlay :=
  if overlay = .candidate hostBlock then some overlay else overlay.on (.markCandidate hostBlock)

def offerSession (env : Env) (hostBlock : UInt64) : Handler Unit := do
  let entry ← get
  if entry.integration ≠ .running (some hostBlock) ∨ env.alternateScreen then
    throw (.shellIntegration "session offer requires a running host block on the primary screen")
  else if entry.session.offeredFor hostBlock then publishComposerStatusIfChanged
  else
    match entry.session.candidateFor hostBlock with
    | none => throw (.shellIntegration "session overlay refuses a new candidate")
    | some candidate => do
        let generation := entry.nextOfferGeneration
        modify fun entry => { entry with
          nextOfferGeneration := UInt64.ofNat (nextGeneration generation.toNat) }
        match candidate.on (.offer generation) with
        | none => throw (.shellIntegration "session overlay refuses the offer")
        | some offered => do
            modify fun entry => { entry with session := offered }
            noteInputTarget
            publishComposerStatusIfChanged

def answerOffer (env : Env) : Bool → Handler Unit
  | true => beginArmedBootstrap env
  | false => do
      noteInputTarget
      publishComposerStatusIfChanged

def applySessionConsent (env : Env) (hostBlock offerGeneration presentationEpoch : UInt64) (accept : Bool) :
    Handler Unit := do
  let entry ← get
  if entry.session.hostBlock ≠ some hostBlock ∨ entry.session.offerGeneration ≠ some offerGeneration ∨
      presentationEpoch ≠ entry.offerPresentationEpoch then
    throw (.shellIntegration "session consent fence rejected")
  else
    match entry.session.on (if accept then .accept else .decline) with
    | none => throw (.shellIntegration "session consent rejected")
    | some next => do
        modify fun entry => { entry with session := next }
        answerOffer env accept
        considerSessionCandidate env

inductive SessionShellKind where
  | zsh
  | bash
  deriving Repr, DecidableEq

inductive ShellIntegrationEvent where
  | promptStarted (token : ShellIntegrationToken)
  | commandStarted (token : ShellIntegrationToken) (line : UInt64)
  | commandFinished (token : ShellIntegrationToken) (exitStatus : BitVec 32) (line : UInt64)
  | readiness (token : ShellIntegrationToken) (shell : SessionShellKind)

inductive MarkerAudience where
  | local
  | session
  | untrusted
  deriving Repr, DecidableEq

def markerAudience (nonce secret : Option ShellIntegrationToken) (token : ShellIntegrationToken) : MarkerAudience :=
  if nonce = some token then .local else if secret = some token then .session else .untrusted

/-- A block of another host takes the place of a session that is over. -/
def clearOtherHost (block : UInt64) : Handler Unit := do
  let entry ← get
  if entry.session.overFor block then
    match entry.session.on .clear with
    | some next => do
        modify fun entry => { entry with session := next }
        noteInputTarget
    | none => return ()
  else return ()

def noteLocalHostBlockStarted (env : Env) (block : UInt64) : Handler Unit := do
  clearOtherHost block
  considerSessionCandidate env

def SessionOverlay.isSpawnArmed : SessionOverlay → Bool
  | .spawnArmed _ => true
  | _ => false

def SessionOverlay.isArmed : SessionOverlay → Bool
  | .armed _ _ => true
  | _ => false

def acceptReadiness (env : Env) (token : ShellIntegrationToken) (shell : SessionShellKind) : Handler Bool := do
  let entry ← get
  if !(entry.session.isSpawnArmed || entry.session.isArmed) ∨ entry.sessionRuntime.challenge ≠ some token ∨
      entry.sessionRuntime.secret.isNone then
    return false
  else do
    modify fun entry => { entry with sessionRuntime := { entry.sessionRuntime with challenge := none } }
    match (entry.session.on .beginDelivering).filter fun _ => !entry.session.isSpawnArmed || shell = .bash with
    | none => do
        closeSession env .fail
        return false
    | some delivering => do
        modify fun entry => { entry with
          session := delivering
          sessionRuntime := { entry.sessionRuntime with deadline := some (env.now + deliverDeadline) } }
        noteInputTarget
        match env.submitted with
        | .error _ => do
            closeSession env .fail
            return false
        | .ok () => do
            modify fun entry => { entry with
              sessionRuntime := { entry.sessionRuntime with delivered := some payloadLen } }
            publishComposerStatusIfChanged
            return false

/-- The marker moves the session's machine, or is not trusted. -/
def trustSessionMarker (env : Env) (event : IntegrationEvent) : Handler Bool := do
  let entry ← get
  match entry.session with
  | .delivering _ _ =>
      if event ≠ .promptStarted then return false
      else
        match entry.session.on .trust with
        | none => return false
        | some trusted => do
            modify fun entry => { entry with
              session := trusted
              sessionRuntime := { entry.sessionRuntime with deadline := none } }
            applySessionEffects env event
  | .trusted _ => applySessionEffects env event
  | _ => return false

def applySessionMarker (env : Env) (event : IntegrationEvent) : Handler Bool := do
  let _ ← trustSessionMarker env event
  noteInputTarget
  publishComposerStatusIfChanged
  return false

/-- The block that a local marker has started, if it has started one. -/
def startedBlock (before after : IntegrationState) : Option UInt64 :=
  match before, after with
  | .running (some previous), .running (some next) => if previous = next then none else some next
  | _, .running (some next) => some next
  | _, _ => none

/-- The local shell speaks again, so the session inside it is over. -/
def endAtLocalMarker (env : Env) : Handler Unit := do
  let entry ← get
  if entry.session.endsAtLocalMarker then closeSession env .endSession else return ()

def noteStarted (env : Env) : Option UInt64 → Handler Unit
  | some block => noteLocalHostBlockStarted env block
  | none => return ()

def applyLocalMarker (env : Env) (event : IntegrationEvent) : Handler Bool := do
  endAtLocalMarker env
  let before := (← get).integration
  let changed ← applyLocalIntegrationEvent env event
  let after := (← get).integration
  noteStarted env (startedBlock before after)
  endOrphanedSpawn env
  return changed

def dispatchMarker (env : Env) (token : ShellIntegrationToken) (event : IntegrationEvent) : Handler Bool := do
  let entry ← get
  match markerAudience entry.shellNonce entry.sessionRuntime.secret token with
  | .local => applyLocalMarker env event
  | .session => applySessionMarker env event
  | .untrusted => return false

def dispatchShellIntegrationEvent (env : Env) : ShellIntegrationEvent → Handler Bool
  | .readiness token shell => acceptReadiness env token shell
  | .promptStarted token => dispatchMarker env token .promptStarted
  | .commandStarted token line => dispatchMarker env token (.commandStarted line)
  | .commandFinished token exitStatus line => dispatchMarker env token (.commandFinished exitStatus line)

/-- A program took the whole screen while the prompt was open. -/
def noteLocalScreen (env : Env) : Handler Bool := do
  let entry ← get
  if env.alternateScreen ∧ (entry.integration = .atPrompt ∨ entry.integration = .pending) then
    applyLocalIntegrationEvent env .alternateScreenEntered
  else return false

def noteSessionScreen (env : Env) : Handler Bool := do
  let entry ← get
  if entry.session.isTrusted ∧ env.alternateScreen ∧
      (entry.sessionRuntime.integration = .atPrompt ∨ entry.sessionRuntime.integration = .pending) then
    applySessionEffects env .alternateScreenEntered
  else return false

def observeShellIntegrationEvents (events : List (Env × ShellIntegrationEvent)) (env : Env) : Handler Unit := do
  Run.forEach (fun observed => do
    let _ ← dispatchShellIntegrationEvent observed.1 observed.2) events
  let _ ← noteLocalScreen env
  let _ ← noteSessionScreen env
  publishComposerStatusIfChanged

def noteDirectInputAdmitted (env : Env) : Handler Unit := do
  let _ ← applyLocalIntegrationEvent env .directInputAdmitted
  publishComposerStatusIfChanged

def noteExecutionEnded (env : Env) : Handler Unit := do
  closeSession env .endSession
  let _ ← applyLocalIntegrationEvent env .executionEnded
  publishComposerStatusIfChanged

inductive ComposerAdmission where
  | accepted (block : UInt64)
  | busy
  | unsupported
  | invalid
  | staleTarget
  | relayed
  deriving Repr, DecidableEq

def bracketPasteStart : List UInt8 := [0x1b, 0x5b, 0x32, 0x30, 0x30, 0x7e]

def bracketPasteEnd : List UInt8 := [0x1b, 0x5b, 0x32, 0x30, 0x31, 0x7e]

def encodeSubmission (command : List Char) (bracketedPaste : Bool) : Option (List UInt8) :=
  let multiLine := command.any fun char => char = '\n' || char = '\r'
  if !multiLine then some (encodeUtf8 command ++ [0x0d])
  else if !bracketedPaste then none
  else some (bracketPasteStart ++ encodeUtf8 command ++ bracketPasteEnd ++ [0x0d])

def submitSessionCommand (env : Env) (command : List Char) : Handler ComposerAdmission := do
  let entry ← get
  if !entry.session.isTrusted ∨ entry.sessionRuntime.integration ≠ .atPrompt ∨ env.alternateScreen ∨
      entry.sessionRuntime.pending.isSome ∨ env.inputPending ∨ env.inputReserved then return .busy
  else
    match encodeSubmission command env.bracketedPaste with
    | none => return .invalid
    | some _ => do
        Run.check env.submitted
        match entry.timeline.allocateId with
        | (.error _, _) => throw .capacityExceeded
        | (.ok block, timeline) => do
            modify fun entry => { entry with
              timeline := timeline
              sessionRuntime := { entry.sessionRuntime with
                pending := some ⟨command, block⟩, integration := .pending } }
            noteInputTarget
            publishComposerStatusIfChanged
            return .accepted block

inductive FencedAdmission where
  | busy
  | stale
  | relay
  | continue
  deriving Repr, DecidableEq

def fencedAdmission (env : Env) (entry : Entry) (targetGeneration : Option Nat) : FencedAdmission :=
  if entry.session.holdsDirectInput ∨ !env.ioActive then .busy
  else
    match targetGeneration with
    | none => .continue
    | some generation =>
        if generation ≠ entry.targetGeneration then .stale
        else
          match deriveComposer (composerFacts env entry true) with
          | .relay _ => .relay
          | .unavailable _ => .busy
          | .submit => .continue

/-- Only a submission that names its target may arm a session. -/
def spawnFor (env : Env) (command : List Char) : Option Nat → Handler (Option SpawnArm)
  | some _ => prepareSpawnArm env command
  | none => return none

def commitSpawn (block : UInt64) : Option SpawnArm → Handler Unit
  | some arm => commitSpawnArm arm block
  | none => return ()

def submitLocalCommand (env : Env) (command : List Char) (targetGeneration : Option Nat) :
    Handler ComposerAdmission := do
  let entry ← get
  if entry.integration ≠ .atPrompt ∨ env.alternateScreen ∨ entry.pendingComposer.isSome ∨ env.inputPending ∨
      env.inputReserved then return .busy
  else do
    let spawn ← spawnFor env command targetGeneration
    match encodeSubmission ((spawn.map SpawnArm.line).getD command) env.bracketedPaste with
    | none => return .invalid
    | some _ => do
        Run.check env.submitted
        match entry.timeline.allocateId with
        | (.error _, _) => throw .capacityExceeded
        | (.ok block, timeline) => do
            modify fun entry => { entry with
              timeline := timeline
              pendingComposer := some ⟨command, block⟩
              integration := .pending }
            commitSpawn block spawn
            noteInputTarget
            publishComposerStatusIfChanged
            return .accepted block

def submitComposerCommandFenced (env : Env) (command : List Char) (targetGeneration : Option Nat) :
    Handler ComposerAdmission := do
  let commandLen := (encodeUtf8 command).length
  if commandLen = 0 ∨ maxCommandBytes < commandLen then throw .capacityExceeded
  else do
    noteInputTarget
    let entry ← get
    match fencedAdmission env entry targetGeneration with
    | .busy => return .busy
    | .stale => return .staleTarget
    | .relay => do
        Run.check env.submitted
        return .relayed
    | .continue =>
        if entry.session.isTrusted then submitSessionCommand env command
        else if entry.mode = .unsupported then do
          Run.check env.submitted
          return .unsupported
        else submitLocalCommand env command targetGeneration

inductive Operation where
  | observe (events : List (Env × ShellIntegrationEvent)) (env : Env)
  | directInput (env : Env)
  | candidateEdge (env : Env)
  | attach (env : Env)
  | submit (env : Env) (command : List Char) (targetGeneration : Option Nat)
  | offer (env : Env) (hostBlock : UInt64)
  | consent (env : Env) (hostBlock offerGeneration presentationEpoch : UInt64) (accept : Bool)
  | deadlines (env : Env)
  | detach (env : Env)
  | ended (env : Env)

def Operation.run : Operation → Handler Unit
  | .observe events env => observeShellIntegrationEvents events env
  | .directInput env => noteDirectInputAdmitted env
  | .candidateEdge env => do
      considerSessionCandidate env
      publishComposerStatusIfChanged
  | .attach env => considerSessionCandidate env
  | .submit env command targetGeneration => do
      let _ ← submitComposerCommandFenced env command targetGeneration
  | .offer env hostBlock => offerSession env hostBlock
  | .consent env hostBlock offerGeneration presentationEpoch accept =>
      applySessionConsent env hostBlock offerGeneration presentationEpoch accept
  | .deadlines env => expireSessionBootstraps env
  | .detach env => abortBootstrapOnDetach env
  | .ended env => noteExecutionEnded env

def Entry.play : Entry → List Operation → Option Entry
  | entry, [] => some entry
  | entry, operation :: rest => do
      let (_, after) ← operation.run entry
      after.play rest

end Seyal.Runtime.Session
