import Mathlib.Algebra.Order.BigOperators.Group.List
import Mathlib.Algebra.Order.Ring.Nat

namespace Seyal.Runtime.Session

/-! The shell integration of one execution and the overlay of its remote session: two
machines that take already trusted events. -/

inductive IntegrationState where
  | unproven
  | atPrompt
  | pending
  | running (block : Option UInt64)
  | terminated
  deriving Repr, DecidableEq

inductive IntegrationEvent where
  | promptStarted
  | commandStarted (line : UInt64)
  | commandFinished (exitStatus : BitVec 32) (line : UInt64)
  | directInputAdmitted
  | alternateScreenEntered
  | executionEnded
  deriving Repr, DecidableEq

inductive BlockExit where
  | code (status : BitVec 32)
  | unknown
  deriving Repr, DecidableEq

inductive Effect where
  | startPendingBlock (line : UInt64)
  | dropPending
  | complete (block : UInt64) (exit : BlockExit) (line : Option UInt64)
  deriving Repr, DecidableEq

structure Transition where
  next : IntegrationState
  effects : List Effect
  deriving Repr, DecidableEq

namespace IntegrationState

def on : IntegrationState → IntegrationEvent → Transition
  | .terminated, _ => ⟨.terminated, []⟩
  | .running (some block), .executionEnded => ⟨.terminated, [.complete block .unknown none]⟩
  | .pending, .executionEnded => ⟨.terminated, [.dropPending]⟩
  | _, .executionEnded => ⟨.terminated, []⟩
  | .unproven, .promptStarted => ⟨.atPrompt, []⟩
  | .unproven, _ => ⟨.unproven, []⟩
  | .atPrompt, .promptStarted => ⟨.atPrompt, []⟩
  | .atPrompt, .commandFinished _ _ => ⟨.atPrompt, []⟩
  | .atPrompt, .commandStarted _ => ⟨.running none, []⟩
  | .atPrompt, .directInputAdmitted => ⟨.running none, []⟩
  | .atPrompt, .alternateScreenEntered => ⟨.running none, []⟩
  | .pending, .commandStarted line => ⟨.running none, [.startPendingBlock line]⟩
  | .pending, .promptStarted => ⟨.atPrompt, [.dropPending]⟩
  | .pending, .alternateScreenEntered => ⟨.running none, [.dropPending]⟩
  | .pending, .commandFinished _ _ => ⟨.pending, []⟩
  | .pending, .directInputAdmitted => ⟨.pending, []⟩
  | .running (some block), .commandFinished exitStatus line =>
      ⟨.running none, [.complete block (.code exitStatus) (some line)]⟩
  | .running (some block), .promptStarted => ⟨.atPrompt, [.complete block .unknown none]⟩
  | .running (some block), .commandStarted _ => ⟨.running none, [.complete block .unknown none]⟩
  | .running (some block), .directInputAdmitted => ⟨.running (some block), []⟩
  | .running (some block), .alternateScreenEntered => ⟨.running (some block), []⟩
  | .running none, .promptStarted => ⟨.atPrompt, []⟩
  | .running none, _ => ⟨.running none, []⟩

def blockStarted (state : IntegrationState) (block : UInt64) : IntegrationState :=
  match state with
  | .running none => .running (some block)
  | other => other

def block : IntegrationState → Option UInt64
  | .running block => block
  | _ => none

end IntegrationState

inductive SessionOverlay where
  | none
  | candidate (hostBlock : UInt64)
  | offered (hostBlock offerGeneration : UInt64)
  | declined (hostBlock : UInt64)
  | armed (hostBlock offerGeneration : UInt64)
  | delivering (hostBlock offerGeneration : UInt64)
  | spawnArmed (hostBlock : UInt64)
  | trusted (hostBlock : UInt64)
  | failed (hostBlock : UInt64)
  | ended (hostBlock : UInt64)
  deriving Repr, DecidableEq

inductive SessionEvent where
  | markCandidate (hostBlock : UInt64)
  | offer (offerGeneration : UInt64)
  | decline
  | accept
  | spawnArm (hostBlock : UInt64)
  | beginDelivering
  | trust
  | fail
  | endSession
  | clear
  deriving Repr, DecidableEq

namespace SessionOverlay

def holdsDirectInput : SessionOverlay → Bool
  | .armed _ _ | .delivering _ _ => true
  | _ => false

def isTrusted : SessionOverlay → Bool
  | .trusted _ => true
  | _ => false

def canSpawnArm : SessionOverlay → Bool
  | .none | .declined _ | .failed _ | .ended _ => true
  | _ => false

def hostBlock : SessionOverlay → Option UInt64
  | .none => Option.none
  | .candidate host | .offered host _ | .declined host | .armed host _ | .delivering host _ | .spawnArmed host
  | .trusted host | .failed host | .ended host => some host

def offerGeneration : SessionOverlay → Option UInt64
  | .offered _ generation | .armed _ generation | .delivering _ generation => some generation
  | _ => Option.none

def offeredFor (hostBlock : UInt64) : SessionOverlay → Bool
  | .offered host _ => host = hostBlock
  | _ => false

/-- The session of another block is over. -/
def overFor (block : UInt64) : SessionOverlay → Bool
  | .declined host | .failed host | .ended host => host ≠ block
  | _ => false

/-- A marker of the local shell ends what is going on. -/
def endsAtLocalMarker : SessionOverlay → Bool
  | .candidate _ | .offered _ _ | .armed _ _ | .delivering _ _ | .trusted _ => true
  | _ => false

/-- No value where the event is refused. -/
def on : SessionOverlay → SessionEvent → Option SessionOverlay
  | .none, .markCandidate host | .declined _, .markCandidate host | .failed _, .markCandidate host =>
      if host ≠ 0 then some (.candidate host) else Option.none
  | .candidate host, .offer generation => if generation ≠ 0 then some (.offered host generation) else Option.none
  | .offered host _, .decline => some (.declined host)
  | .offered host generation, .accept => some (.armed host generation)
  | .armed host generation, .beginDelivering => some (.delivering host generation)
  | from_, .spawnArm host => if from_.canSpawnArm ∧ host ≠ 0 then some (.spawnArmed host) else Option.none
  | .spawnArmed host, .beginDelivering => some (.delivering host 0)
  | .delivering host _, .trust => some (.trusted host)
  | .candidate host, .fail | .offered host _, .fail | .armed host _, .fail | .delivering host _, .fail
  | .spawnArmed host, .fail => some (.failed host)
  | .trusted host, .endSession => some (.ended host)
  | .candidate _, .clear | .offered _ _, .clear | .declined _, .clear | .spawnArmed _, .clear | .failed _, .clear
  | .ended _, .clear => some .none
  | _, _ => Option.none

end SessionOverlay

inductive InputTargetFact where
  | none
  | trustedShell
  | foreground (block : UInt64)
  deriving Repr, DecidableEq

def inputTarget : IntegrationState → InputTargetFact
  | .atPrompt => .trustedShell
  | .running (some block) => .foreground block
  | _ => .none

structure ComposerFacts where
  integration : IntegrationState
  primaryScreen : Bool
  flow : Bool
  controller : Bool
  overlay : SessionOverlay
  sessionIntegration : IntegrationState

inductive ComposerTargetReason where
  | notAtPrompt
  | alternateScreen
  | notController
  | notFlow
  | bootstrapHold
  | noKnownBlock
  | terminated
  deriving Repr, DecidableEq

inductive DerivedComposer where
  | submit
  | relay (block : UInt64)
  | unavailable (reason : ComposerTargetReason)
  deriving Repr, DecidableEq

def deriveComposer (facts : ComposerFacts) : DerivedComposer :=
  if facts.overlay.holdsDirectInput then .unavailable .bootstrapHold
  else if !facts.controller then .unavailable .notController
  else if !facts.flow then .unavailable .notFlow
  else if !facts.primaryScreen then .unavailable .alternateScreen
  else
    let trusted := facts.overlay.isTrusted
    match if trusted then facts.sessionIntegration else facts.integration with
    | .atPrompt => .submit
    | .running (some block) =>
        let relayHost := facts.overlay.hostBlock == some block
        let refused :=
          match facts.overlay with
          | .declined _ | .failed _ => true
          | _ => false
        if trusted || (relayHost && refused) then .relay block else .unavailable .notAtPrompt
    | .running none => .unavailable .noKnownBlock
    | .unproven | .pending => .unavailable .notAtPrompt
    | .terminated => .unavailable .terminated

end Seyal.Runtime.Session
