import Seyal.Program.Run
import Seyal.Program.Weave
import Seyal.Terminal.Types

namespace Seyal.Exec

open Program Terminal

/-! The write side of one execution: the PTY endpoint and the queue of replies
the terminal owes the child. -/

inductive ExecError where
  | io
  deriving Repr, DecidableEq

inductive WriteOutcome where
  | bytes (count : Nat)
  | wouldBlock
  deriving Repr, DecidableEq

/-- What the PTY does with one `write(2)`. -/
inductive PtyAnswer where
  | accepts (count : Nat)
  | wouldBlock
  | fails
  deriving Repr, DecidableEq

/-- `written` is what the child has been sent; `answers` is what the PTY will
do with the next writes, and it would block once they are used up. -/
structure Endpoint where
  written : List UInt8
  answers : List PtyAnswer

def Endpoint.write (bytes : List UInt8) : Run Endpoint ExecError WriteOutcome := fun endpoint =>
  if bytes = [] then some (.ok (.bytes 0), endpoint)
  else
    match endpoint.answers with
    | [] => some (.ok .wouldBlock, endpoint)
    | .wouldBlock :: answers => some (.ok .wouldBlock, { endpoint with answers := answers })
    | .fails :: answers => some (.error .io, { endpoint with answers := answers })
    | .accepts count :: answers =>
        some (.ok (.bytes (min count bytes.length)),
          { written := endpoint.written ++ bytes.take count, answers := answers })

/-- A reply as the terminal builds it. -/
structure TerminalReply where
  bytes : ProtocolReply
  built : replyFromSlice bytes = some bytes

structure PendingProtocolReply where
  reply : TerminalReply
  offset : Nat

def PendingProtocolReply.chunk (pending : PendingProtocolReply) : Chunk UInt8 :=
  ⟨pending.reply.bytes, pending.offset⟩

structure TerminalExecution where
  endpoint : Endpoint
  pendingProtocolReplies : List PendingProtocolReply
  droppedProtocolReplies : Nat

namespace TerminalExecution

def onEndpoint {α : Type} (body : Run Endpoint ExecError α) : Run TerminalExecution ExecError α :=
  Run.zoom endpoint (fun execution endpoint => { execution with endpoint := endpoint }) body

def writeInput (bytes : List UInt8) : Run TerminalExecution ExecError WriteOutcome :=
  onEndpoint (Endpoint.write bytes)

def hasPendingProtocolReplies (execution : TerminalExecution) : Bool :=
  !execution.pendingProtocolReplies.isEmpty

def writeReplies (maxBytes : Nat) : Nat → Nat → Run TerminalExecution ExecError Nat
  | 0, _ => liftM (none : Option Nat)
  | fuel + 1, writtenTotal =>
      if writtenTotal < maxBytes then do
        match (← get).pendingProtocolReplies with
        | [] => pure writtenTotal
        | front :: rest =>
            let remaining := front.reply.bytes.drop front.offset
            if remaining = [] then do
              modify fun execution => { execution with pendingProtocolReplies := rest }
              writeReplies maxBytes fuel writtenTotal
            else do
              match ← onEndpoint (Endpoint.write (remaining.take (maxBytes - writtenTotal))) with
              | .wouldBlock | .bytes 0 => pure writtenTotal
              | .bytes (count + 1) =>
                  let offset := saturatingAdd 8 front.offset ((count + 1) % 256)
                  modify fun execution =>
                    { execution with
                      pendingProtocolReplies :=
                        if offset ≥ front.reply.bytes.length then rest
                        else { front with offset := offset } :: rest }
                  writeReplies maxBytes fuel (writtenTotal + (count + 1))
      else pure writtenTotal

def writeProtocolReplies (maxBytes : Nat) : Run TerminalExecution ExecError Nat := do
  writeReplies maxBytes (maxBytes + (← get).pendingProtocolReplies.length + 1) 0

def clearPendingProtocolReplies (execution : TerminalExecution) : TerminalExecution :=
  { execution with pendingProtocolReplies := [] }

def captureProtocolReplies (execution : TerminalExecution) : List TerminalReply → TerminalExecution
  | [] => execution
  | reply :: rest =>
      if execution.pendingProtocolReplies.length ≥ maxProtocolReplies then
        captureProtocolReplies
          { execution with
            droppedProtocolReplies := saturatingAdd 64 execution.droppedProtocolReplies 1 } rest
      else
        captureProtocolReplies
          { execution with
            pendingProtocolReplies := execution.pendingProtocolReplies ++ [⟨reply, 0⟩] } rest

def captured (execution : TerminalExecution) (replies : List TerminalReply) : List TerminalReply :=
  replies.take (maxProtocolReplies - execution.pendingProtocolReplies.length)

end TerminalExecution

theorem TerminalReply.ne_nil (reply : TerminalReply) : reply.bytes ≠ [] := by
  have built := reply.built
  intro empty
  simp [replyFromSlice, empty] at built

theorem TerminalReply.length_le (reply : TerminalReply) : reply.bytes.length ≤ 64 := by
  have built := reply.built
  unfold replyFromSlice maxProtocolReplyBytes at built
  split at built
  next => cases built
  next fits => omega

open Run

theorem Endpoint.write_spec (bytes : List UInt8) (endpoint : Endpoint) :
    wp (Endpoint.write bytes)
      (fun outcome after =>
        (∃ count, outcome = .bytes count ∧ count ≤ bytes.length ∧
          after.written = endpoint.written ++ bytes.take count) ∨
        outcome = .wouldBlock ∧ after.written = endpoint.written)
      (fun _ after => after.written = endpoint.written) endpoint := by
  unfold wp Endpoint.write
  by_cases empty : bytes = []
  · simp [empty]
  · rw [if_neg empty]
    cases answers : endpoint.answers with
    | nil => simp
    | cons answer rest =>
        cases answer with
        | wouldBlock | fails => simp
        | accepts count =>
            refine .inl ⟨min count bytes.length, rfl, Nat.min_le_right .., ?_⟩
            rw [← List.take_eq_take_min]

theorem Endpoint.write_refused (bytes : List UInt8) {endpoint : Endpoint}
    (refuses : ∀ count answers, endpoint.answers ≠ .accepts (count + 1) :: answers) :
    wp (Endpoint.write bytes)
      (fun outcome after => (outcome = .bytes 0 ∨ outcome = .wouldBlock) ∧ after.written = endpoint.written)
      (fun _ after => after.written = endpoint.written) endpoint := by
  unfold wp Endpoint.write
  by_cases empty : bytes = []
  · simp [empty]
  · rw [if_neg empty]
    cases answers : endpoint.answers with
    | nil => simp
    | cons answer rest =>
        cases answer with
        | wouldBlock | fails => simp
        | accepts count =>
            cases count with
            | zero => simp
            | succ count => exact absurd answers (refuses count rest)

theorem TerminalExecution.captureProtocolReplies_eq (execution : TerminalExecution)
    (replies : List TerminalReply) :
    (execution.captureProtocolReplies replies).endpoint = execution.endpoint ∧
    (execution.captureProtocolReplies replies).pendingProtocolReplies =
      execution.pendingProtocolReplies ++ (execution.captured replies).map (⟨·, 0⟩) := by
  induction replies generalizing execution with
  | nil => simp [captureProtocolReplies, captured]
  | cons reply rest ih =>
      unfold captureProtocolReplies
      by_cases full : execution.pendingProtocolReplies.length ≥ maxProtocolReplies
      · rw [if_pos full]
        obtain ⟨endpoint, pending⟩ := ih { execution with
          droppedProtocolReplies := saturatingAdd 64 execution.droppedProtocolReplies 1 }
        refine ⟨endpoint, pending.trans ?_⟩
        have none : maxProtocolReplies - execution.pendingProtocolReplies.length = 0 := by omega
        simp [captured, none]
      · rw [if_neg full]
        obtain ⟨endpoint, pending⟩ := ih { execution with
          pendingProtocolReplies := execution.pendingProtocolReplies ++ [⟨reply, 0⟩] }
        refine ⟨endpoint, pending.trans ?_⟩
        have room : maxProtocolReplies - execution.pendingProtocolReplies.length =
            maxProtocolReplies - (execution.pendingProtocolReplies.length + 1) + 1 := by omega
        simp [captured, room]

end Seyal.Exec
