import Seyal.Program.Bytes
import Seyal.Program.Check
import Seyal.Program.Path
import Seyal.Program.Table

namespace Seyal.Runtime.Provisioning

open Program

/-! Executions that clients ask for: admission of the requests, the queue of those that wait for a turn of the
reactor, and the results. -/

abbrev Token := Nat

abbrev WorkspaceId := Nat

abbrev ExecutionId := Nat

def maxOutstandingCreatesPerConnection : Nat := 4

def maxOutstandingCreatesRuntime : Nat := 8

def capExecutionProvisioning : BitVec 32 := 1 <<< 10

def capLaunchPolicyDetail : BitVec 32 := 1 <<< 12

def maxDisplayRows : Nat := 256

def maxDisplayColumns : Nat := 512

inductive ConnectionState where
  | awaitHello
  | ready
  | attached
  | closing
  deriving Repr, DecidableEq

inductive ErrorCode where
  | invalidState
  | capacityExceeded
  | backpressure
  | invalidGeometry
  | malformedPayload
  | internalFailure
  | invalidWorkspace
  | unsupportedLaunchProfile
  | launchPolicyRejected
  deriving Repr, DecidableEq

inductive CreateExecutionResultCode where
  | created
  | error (code : ErrorCode)
  deriving Repr, DecidableEq

structure CreateExecutionRequest where
  workspaceId : Nat
  requestId : Nat
  launchProfile : Nat
  rows : Nat
  columns : Nat
  deriving Repr, DecidableEq

namespace CreateExecutionRequest

def wireLen : Nat := 32

def decode (bytes : List UInt8) : Option CreateExecutionRequest :=
  if bytes.length ≠ wireLen then none
  else if natAt bytes 30 2 ≠ 0 then none
  else if natAt bytes 16 8 = 0 then none
  else some ⟨natAt bytes 0 16, natAt bytes 16 8, natAt bytes 24 2, natAt bytes 26 2, natAt bytes 28 2⟩

def encode (request : CreateExecutionRequest) : List UInt8 :=
  toLe 16 request.workspaceId ++ toLe 8 request.requestId ++ toLe 2 request.launchProfile ++ toLe 2 request.rows ++
    toLe 2 request.columns ++ toLe 2 0

end CreateExecutionRequest

structure CreateExecutionResult where
  executionId : ExecutionId
  requestId : Nat
  resultCode : CreateExecutionResultCode
  detailCode : Nat
  deriving Repr, DecidableEq

structure ConnectionMeta where
  lastProvisioningRequestId : Nat := 0
  outstandingCreates : Nat := 0
  clientCapabilities : BitVec 32 := 0
  deriving Repr, DecidableEq

/-- `ticket` numbers the admitted requests. -/
structure PendingCreate where
  connectionToken : Token
  requestId : Nat
  rows : Nat
  columns : Nat
  workspaceId : WorkspaceId
  ticket : Nat
  deriving Repr, DecidableEq

/-- What is seen from outside, in order. -/
inductive Event where
  | turn
  | admitted (ticket : Nat) (token : Token) (requestId : Nat)
  | served (ticket : Nat)
  | spawned (ticket : Nat)
  | answered (ticket : Nat) (token : Token) (result : CreateExecutionResult)
  | refused (token : Token) (result : CreateExecutionResult)
  | closed (token : Token)
  deriving Repr, DecidableEq

/-- `log` and `nextTicket` only record what happens. -/
structure State where
  connections : Mapping Token ConnectionMeta := ∅
  server : Mapping Token ConnectionState := ∅
  pendingCreates : List PendingCreate := []
  outstandingCreates : Nat := 0
  provisioningCreatedThisTurn : Bool := false
  defaultWorkspace : WorkspaceId
  admittedWorkspaces : List WorkspaceId
  shuttingDown : Bool := false
  entries : Nat := 0
  maxExecutions : Nat
  nextTicket : Nat := 0
  log : List Event := []

/-- What becomes of a frame for a client: its queue is full, the reactor fails behind it, or neither. -/
inductive Sending where
  | full
  | broken
  | queued
  deriving Repr, DecidableEq

/-- What becomes of the launch of an execution. -/
inductive Creation where
  | created (executionId : ExecutionId) (warnings : Nat)
  | rejected (detailCode : Nat)
  | capacityExceeded
  | executionNotRunning
  | failed
  deriving Repr, DecidableEq

structure Env where
  creation : Creation
  sending : Sending
  deriving Repr, DecidableEq

def updateMeta (connections : Mapping Token ConnectionMeta) (token : Token) (change : ConnectionMeta → ConnectionMeta) :
    Mapping Token ConnectionMeta :=
  match connections.lookup token with
  | some found => connections.insert token (change found)
  | none => connections

namespace State

def note (state : State) (events : List Event) : State := { state with log := state.log ++ events }

def hasCapability (state : State) (token : Token) (capability : BitVec 32) : Bool :=
  (state.connections.lookup token).any fun found => found.clientCapabilities &&& capability ≠ 0

def localConnectionExists (state : State) (token : Token) : Bool :=
  (state.connections.lookup token).isSome && (state.server.lookup token).isSome

def dropPendingCreatesForConnection (state : State) (token : Token) : State :=
  let dropped := (state.pendingCreates.filter fun pending => pending.connectionToken = token).length
  { state with
    pendingCreates := state.pendingCreates.filter fun pending => pending.connectionToken ≠ token
    outstandingCreates := state.outstandingCreates - dropped
    connections := updateMeta state.connections token fun found =>
      { found with outstandingCreates := found.outstandingCreates - dropped } }

def closeLocalConnection (state : State) (token : Token) : State :=
  let dropped := state.dropPendingCreatesForConnection token
  { dropped with
    server := dropped.server.erase token
    connections := dropped.connections.erase token
    log := if (state.connections.lookup token).isSome then dropped.log ++ [.closed token] else dropped.log }

def sendMandatoryFrame (state : State) (token : Token) (sending : Sending) (events : List Event) : State :=
  if (state.server.lookup token).isSome then
    match sending with
    | .full => state.closeLocalConnection token
    | .broken => (state.note events).closeLocalConnection token
    | .queued => state.note events
  else state.closeLocalConnection token

def sendError (state : State) (token : Token) (sending : Sending) : State := state.sendMandatoryFrame token sending []

def sendCreateError (state : State) (token : Token) (requestId : Nat) (code : ErrorCode) (sending : Sending) : State :=
  state.sendMandatoryFrame token sending [.refused token ⟨0, requestId, .error code, 0⟩]

def releaseOutstandingCreate (state : State) (token : Token) : State :=
  { state with
    outstandingCreates := state.outstandingCreates - 1
    connections := updateMeta state.connections token fun found =>
      { found with outstandingCreates := found.outstandingCreates - 1 } }

def finishCreateResult (state : State) (pending : PendingCreate) (code : CreateExecutionResultCode)
    (executionId : ExecutionId) (detailCode : Nat) (sending : Sending) : State :=
  let released := state.releaseOutstandingCreate pending.connectionToken
  if released.localConnectionExists pending.connectionToken then
    released.sendMandatoryFrame pending.connectionToken sending
      [.answered pending.ticket pending.connectionToken ⟨executionId, pending.requestId, code, detailCode⟩]
  else released

end State

def windowSizeCells (columns rows : Nat) : Bool :=
  !(columns = 0 || rows = 0) && !(512 < columns || 256 < rows)

namespace State

def runPendingCreate (state : State) (pending : PendingCreate) (env : Env) : State :=
  let state : State := { state with provisioningCreatedThisTurn := true, log := state.log ++ [.served pending.ticket] }
  if state.shuttingDown then state.finishCreateResult pending (.error .invalidState) 0 0 env.sending
  else if state.maxExecutions ≤ state.entries then
    state.finishCreateResult pending (.error .capacityExceeded) 0 0 env.sending
  else if !windowSizeCells pending.columns pending.rows then
    state.finishCreateResult pending (.error .invalidGeometry) 0 0 env.sending
  else
    let detailCap := state.hasCapability pending.connectionToken capLaunchPolicyDetail
    let state := state.note [.spawned pending.ticket]
    match env.creation with
    | .created executionId warnings =>
        let state := { state with entries := state.entries + 1 }
        if state.localConnectionExists pending.connectionToken then
          state.finishCreateResult pending .created executionId (if detailCap then warnings else 0) env.sending
        else state.releaseOutstandingCreate pending.connectionToken
    | .rejected detailCode =>
        state.finishCreateResult pending (.error .launchPolicyRejected) 0 detailCode env.sending
    | .capacityExceeded => state.finishCreateResult pending (.error .capacityExceeded) 0 0 env.sending
    | .executionNotRunning => state.finishCreateResult pending (.error .invalidState) 0 0 env.sending
    | .failed => state.finishCreateResult pending (.error .internalFailure) 0 0 env.sending

def drainOnePendingCreate (state : State) (env : Env) : State :=
  if state.provisioningCreatedThisTurn then state
  else
    match state.pendingCreates with
    | [] => state
    | pending :: rest => { state with pendingCreates := rest }.runPendingCreate pending env

def beginTurn (state : State) : State :=
  { state with provisioningCreatedThisTurn := false, log := state.log ++ [.turn] }

/-- The rules behind the one on request ids: budgets, workspace, launch profile and geometry. -/
def admission (state : State) (found : ConnectionMeta) (request : CreateExecutionRequest) :
    Except ErrorCode WorkspaceId := do
  refuse (¬ (found.outstandingCreates < maxOutstandingCreatesPerConnection ∧
    state.outstandingCreates < maxOutstandingCreatesRuntime)) .backpressure
  refuse (request.workspaceId ≠ 0 ∧ request.workspaceId ∉ state.admittedWorkspaces) .invalidWorkspace
  refuse (request.launchProfile ≠ 0) .unsupportedLaunchProfile
  refuse (request.rows = 0 ∨ request.columns = 0 ∨ maxDisplayRows < request.rows ∨
    maxDisplayColumns < request.columns ∨ windowSizeCells request.columns request.rows = false) .invalidGeometry
  return if request.workspaceId = 0 then state.defaultWorkspace else request.workspaceId

def reserve (state : State) (token : Token) (requestId : Nat) : State :=
  { state with
    nextTicket := state.nextTicket + 1
    outstandingCreates := state.outstandingCreates + 1
    connections := updateMeta state.connections token fun found =>
      { found with outstandingCreates := found.outstandingCreates + 1 }
    log := state.log ++ [.admitted state.nextTicket token requestId] }

/-- The request has its slots, and waits if this turn has had its create. -/
def accept (state : State) (token : Token) (request : CreateExecutionRequest) (workspaceId : WorkspaceId) (env : Env) :
    State :=
  let pending : PendingCreate :=
    ⟨token, request.requestId, request.rows, request.columns, workspaceId, state.nextTicket⟩
  let state := state.reserve token request.requestId
  if state.provisioningCreatedThisTurn then { state with pendingCreates := state.pendingCreates ++ [pending] }
  else state.runPendingCreate pending env

def handleCreateExecutionRequest (state : State) (token : Token) (payload : List UInt8) (env : Env) : State :=
  if !state.hasCapability token capExecutionProvisioning then state.sendError token env.sending
  else
    match state.server.lookup token with
    | none => state
    | some current =>
        if current ≠ .ready ∧ current ≠ .attached then state.sendError token env.sending
        else
          match CreateExecutionRequest.decode payload, state.connections.lookup token with
          | none, _ => state.sendError token env.sending
          | some request, none => state.sendCreateError token request.requestId .malformedPayload env.sending
          | some request, some found =>
              if request.requestId ≤ found.lastProvisioningRequestId then
                state.sendCreateError token request.requestId .malformedPayload env.sending
              else
                let accepted := { found with lastProvisioningRequestId := request.requestId }
                let state := { state with connections := state.connections.insert token accepted }
                match state.admission found request with
                | .error code => state.sendCreateError token request.requestId code env.sending
                | .ok workspaceId => state.accept token request workspaceId env

/-- A token that is in use is not given out again. -/
def connect (state : State) (token : Token) : State :=
  if (state.connections.lookup token).isSome || (state.server.lookup token).isSome then state
  else { state with
    connections := state.connections.insert token {}
    server := state.server.insert token .awaitHello }

def setState (state : State) (token : Token) (current : ConnectionState) : State :=
  if (state.server.lookup token).isSome then { state with server := state.server.insert token current } else state

end State

/-- What happens to the runtime, as far as it concerns creates; `turn` is the start of `poll_once`. -/
inductive Operation where
  | turn (env : Env)
  | create (token : Token) (payload : List UInt8) (env : Env)
  | connect (token : Token)
  | close (token : Token)
  | setState (token : Token) (state : ConnectionState)
  | hello (token : Token) (capabilities : BitVec 32)
  | otherRequest (token : Token) (requestId : Nat)
  | mint (workspace : WorkspaceId)
  | entriesBecome (count : Nat)
  | shutDown
  deriving Repr, DecidableEq

def State.apply (state : State) : Operation → State
  | .turn env => state.beginTurn.drainOnePendingCreate env
  | .create token payload env => state.handleCreateExecutionRequest token payload env
  | .connect token => state.connect token
  | .close token => state.closeLocalConnection token
  | .setState token current => state.setState token current
  | .hello token capabilities =>
      { state with connections := updateMeta state.connections token fun found =>
        { found with clientCapabilities := capabilities } }
  | .otherRequest token requestId =>
      { state with connections := updateMeta state.connections token fun found =>
        { found with lastProvisioningRequestId := max found.lastProvisioningRequestId requestId } }
  | .mint workspace => { state with admittedWorkspaces := workspace :: state.admittedWorkspaces }
  | .entriesBecome count => { state with entries := count }
  | .shutDown => { state with shuttingDown := true }

def start (defaultWorkspace maxExecutions : Nat) (admittedWorkspaces : List WorkspaceId) : State :=
  { defaultWorkspace, maxExecutions, admittedWorkspaces }

def State.run (state : State) (operations : List Operation) : State := operations.foldl State.apply state

end Seyal.Runtime.Provisioning
