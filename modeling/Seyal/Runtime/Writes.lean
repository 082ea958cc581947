import Seyal.Exec.Execution

namespace Seyal.Runtime

open Program Terminal Exec TerminalExecution

/-! How the runtime writes to the child of one execution. Accepted input waits
in the runtime's queue, the terminal's replies in the execution's, and
`service_writes` drains both into the PTY. -/

inductive InputKind where
  | direct
  | composer
  | bootstrap
  deriving Repr, DecidableEq

structure AcceptedInput where
  bytes : List UInt8
  offset : Nat
  kind : InputKind

open AcceptedInput

def AcceptedInput.remaining (input : AcceptedInput) : List UInt8 := input.bytes.drop input.offset

def AcceptedInput.chunk (input : AcceptedInput) : Chunk UInt8 := ⟨input.bytes, input.offset⟩

/-- `active` is `terminal_io_active`. -/
structure PtyIo where
  execution : TerminalExecution
  pendingInput : List AcceptedInput
  active : Bool

open PtyIo

namespace PtyIo

def new : PtyIo := ⟨⟨⟨[], []⟩, [], 0⟩, [], true⟩

def onExecution {α : Type} (body : Run TerminalExecution ExecError α) : Run PtyIo ExecError α :=
  Run.zoom execution (fun io execution => { io with execution := execution }) body

def serviceLoop (writeDispatchBytes : Nat) : Nat → Nat → Run PtyIo ExecError Unit
  | 0, _ => liftM (none : Option Unit)
  | fuel + 1, writtenTotal =>
      if writtenTotal < writeDispatchBytes then do
        let io ← get
        if io.execution.hasPendingProtocolReplies then do
          let wrote ← onExecution
            (writeProtocolReplies (writeDispatchBytes - writtenTotal))
          if wrote = 0 then pure () else serviceLoop writeDispatchBytes fuel (writtenTotal + wrote)
        else
          match io.pendingInput with
          | [] => pure ()
          | front :: rest => do
              match ← onExecution (writeInput
                  (front.remaining.take (writeDispatchBytes - writtenTotal))) with
              | .wouldBlock | .bytes 0 => pure ()
              | .bytes (count + 1) =>
                  modify fun io =>
                    { io with
                      pendingInput :=
                        if front.offset + (count + 1) = front.bytes.length then rest
                        else { front with offset := front.offset + (count + 1) } :: rest }
                  serviceLoop writeDispatchBytes fuel (writtenTotal + (count + 1))
      else pure ()

def clear (io : PtyIo) : PtyIo :=
  { io with pendingInput := [], execution := io.execution.clearPendingProtocolReplies }

def serviceWrites (writeDispatchBytes : Nat) : Run PtyIo ExecError Unit := do
  if (← get).active then serviceLoop writeDispatchBytes (writeDispatchBytes + 1) 0
  else modify clear

def drainInput (writeDispatchBytes : Nat) (bytes : List UInt8) (kind : InputKind) :
    Run PtyIo ExecError Unit := do
  if (← get).active then do
    modify fun io => { io with pendingInput := io.pendingInput ++ [⟨bytes, 0, kind⟩] }
    serviceWrites writeDispatchBytes
  else pure ()

def markTerminalIoClosed (io : PtyIo) : PtyIo := { io.clear with active := false }

end PtyIo

/-- What happens to the write side: an accepted input reaches the runtime, the
terminal answers a query in what was read, the PTY is writable, the execution
stops accepting input, the PTY is gone. -/
inductive WriteEvent where
  | input (bytes : List UInt8) (kind : InputKind) (answers : List PtyAnswer)
  | read (replies : List TerminalReply)
  | writable (answers : List PtyAnswer)
  | stopped
  | closed

open WriteEvent

namespace PtyIo

def withAnswers (io : PtyIo) (answers : List PtyAnswer) : PtyIo :=
  { io with execution := { io.execution with endpoint := { io.execution.endpoint with answers := answers } } }

def handle (writeDispatchBytes : Nat) : WriteEvent → Run PtyIo ExecError Unit
  | .input bytes kind answers => do
      modify fun io => io.withAnswers answers
      drainInput writeDispatchBytes bytes kind
  | .read replies =>
      modify fun io => { io with execution := io.execution.captureProtocolReplies replies }
  | .writable answers => do
      modify fun io => io.withAnswers answers
      serviceWrites writeDispatchBytes
  | .stopped => modify fun io => { io with active := false }
  | .closed => modify markTerminalIoClosed

end PtyIo

namespace WriteEvent

def acceptedBy (event : WriteEvent) (io : PtyIo) : List (List UInt8) :=
  match event with
  | .input bytes _ _ => if io.active then [bytes] else []
  | _ => []

def capturedBy (event : WriteEvent) (io : PtyIo) : List (List UInt8) :=
  match event with
  | .read replies => (io.execution.captured replies).map TerminalReply.bytes
  | _ => []

def answers : WriteEvent → List PtyAnswer
  | .input _ _ answers | .writable answers => answers
  | _ => []

end WriteEvent

/-- A run of the write side, with the inputs accepted and the replies captured
so far, each in its order. -/
inductive WriteRun (writeDispatchBytes : Nat) (guard : PtyIo → WriteEvent → Prop) :
    List (List UInt8) → List (List UInt8) → PtyIo → Prop where
  | start : WriteRun writeDispatchBytes guard [] [] new
  | step {accepted captured : List (List UInt8)} {io after : PtyIo} {outcome : Except ExecError Unit}
      (event : WriteEvent) (earlier : WriteRun writeDispatchBytes guard accepted captured io)
      (allowed : guard io event)
      (handled : handle writeDispatchBytes event io = some (outcome, after)) :
      WriteRun writeDispatchBytes guard (accepted ++ event.acceptedBy io)
        (captured ++ event.capturedBy io) after

inductive WriteSource where
  | input
  | reply
  deriving Repr, DecidableEq

/-- The bytes are the beginning of an interleaving, item by item, of the inputs
and of the replies, each taken in order. -/
def Interleaved (inputs replies : List (List UInt8)) (written : List UInt8) : Prop :=
  ∃ items : List (WriteSource × List UInt8),
    itemsOf .input items <+: inputs ∧ itemsOf .reply items <+: replies ∧
      written <+: items.flatMap Prod.snd

theorem Interleaved.mono {inputs replies moreInputs moreReplies : List (List UInt8)} {written : List UInt8}
    (interleaved : Interleaved inputs replies written) (inputsGrow : inputs <+: moreInputs)
    (repliesGrow : replies <+: moreReplies) : Interleaved moreInputs moreReplies written := by
  obtain ⟨items, fromInputs, fromReplies, wrote⟩ := interleaved
  exact ⟨items, fromInputs.trans inputsGrow, fromReplies.trans repliesGrow, wrote⟩

namespace PtyIo

open Run

def queues (io : PtyIo) : WriteSource → List (Chunk UInt8)
  | .input => io.pendingInput.map chunk
  | .reply => io.execution.pendingProtocolReplies.map PendingProtocolReply.chunk

def written (io : PtyIo) : List UInt8 := io.execution.endpoint.written

/-- Every accepted input and captured reply is on the stream as a whole, or
still queued behind what has been written of it. -/
structure Flow (sent : WriteSource → List (List UInt8)) (io : PtyIo) : Prop where
  stream : ∃ items, Woven io.queues items io.written ∧
    ∀ source, sent source = itemsOf source items ++ (io.queues source).map Chunk.bytes
  input : ∀ chunk ∈ io.queues .input, chunk.sent ≤ chunk.bytes.length
  reply : ∀ chunk ∈ io.queues .reply, chunk.sent < chunk.bytes.length

namespace Flow

variable {sent : WriteSource → List (List UInt8)} {io after : PtyIo}

theorem written_interleaved (flow : Flow sent io) : Interleaved (sent .input) (sent .reply) io.written := by
  obtain ⟨items, ⟨source, -, -, wrote⟩, kept⟩ := flow.stream
  cases queue : io.queues source with
  | nil =>
      refine ⟨items, ?_, ?_, ?_⟩
      · rw [kept .input]
        exact List.prefix_append ..
      · rw [kept .reply]
        exact List.prefix_append ..
      · rw [wrote, queue]
        simp [begun]
  | cons front rest =>
      -- the front of the queue in hand is the last item of the interleaving
      have taken (other : WriteSource) :
          itemsOf other (items ++ [(source, front.bytes)]) <+: sent other := by
        have tagged := itemsOf_tagged other source [front.bytes]
        rw [itemsOf_append, kept other]
        simp only [List.map_cons, List.map_nil] at tagged
        rw [tagged]
        by_cases same : source = other
        · subst same
          simp [queue, List.prefix_append_right_inj]
        · simp [same]
      refine ⟨items ++ [(source, front.bytes)], taken .input, taken .reply, ?_⟩
      rw [wrote, queue]
      simp only [begun, Chunk.started, List.flatMap_append, List.flatMap_cons, List.flatMap_nil, List.append_nil,
        List.prefix_append_right_inj]
      exact List.take_prefix ..

theorem same (flow : Flow sent io) (queues : after.queues = io.queues) (wrote : after.written = io.written) :
    Flow sent after where
  stream := by
    rw [queues, wrote]
    exact flow.stream
  input := queues ▸ flow.input
  reply := queues ▸ flow.reply

theorem enqueue (flow : Flow sent io) (more : WriteSource → List (Chunk UInt8))
    (fresh : ∀ source, Untouched (more source)) (nonempty : ∀ chunk ∈ more .reply, chunk.bytes ≠ [])
    (queues : ∀ source, after.queues source = io.queues source ++ more source)
    (wrote : after.written = io.written) :
    Flow (fun source => sent source ++ (more source).map Chunk.bytes) after := by
  constructor
  · obtain ⟨items, woven, kept⟩ := flow.stream
    refine ⟨items, ?_, fun source => ?_⟩
    · rw [wrote]
      refine woven.requeue (fun source orderly => ?_) (fun source untouched => ?_)
      · rw [queues source]
        exact ⟨orderly.append (fresh source), begun_append (fresh source)⟩
      · rw [queues source]
        exact untouched.append (fresh source)
    · rw [kept source, queues source, List.map_append, List.append_assoc]
  · intro chunk member
    rw [queues .input, List.mem_append] at member
    rcases member with old | new
    · exact flow.input chunk old
    · rw [fresh .input chunk new]
      exact Nat.zero_le _
  · intro chunk member
    rw [queues .reply, List.mem_append] at member
    rcases member with old | new
    · exact flow.reply chunk old
    · rw [fresh .reply chunk new]
      exact List.length_pos_of_ne_nil (nonempty chunk new)

theorem write (flow : Flow sent io) (source : WriteSource) (front : Chunk UInt8) (rest : List (Chunk UInt8))
    (queued : io.queues source = front :: rest)
    (alone : ∀ other, other ≠ source → Untouched (io.queues other)) (count : Nat)
    (advances : after.queues = Function.update io.queues source (advanced count front rest))
    (wrote : after.written = io.written ++ front.rest.take count) : Flow sent after := by
  have member (other : WriteSource) (chunk : Chunk UInt8) (queuedAfter : chunk ∈ after.queues other) :
      chunk ∈ io.queues other ∨ chunk.sent < chunk.bytes.length := by
    rw [advances] at queuedAfter
    by_cases here : other = source
    · subst here
      rw [Function.update_self, advanced] at queuedAfter
      split at queuedAfter
      next partway =>
          rcases List.mem_cons.mp queuedAfter with rfl | later
          · exact .inr partway
          · exact .inl (by simp [queued, later])
      next => exact .inl (by simp [queued, queuedAfter])
    · rw [Function.update_of_ne here] at queuedAfter
      exact .inl queuedAfter
  constructor
  · obtain ⟨items, woven, kept⟩ := flow.stream
    refine ⟨_, advances ▸ wrote ▸ woven.write queued alone count, fun other => ?_⟩
    rw [kept other, itemsOf_append, itemsOf_tagged, advances, List.append_assoc]
    by_cases here : source = other
    · subst here
      simp [queued, bytes_advanced]
    · simp [here, Function.update_of_ne (Ne.symm here)]
  · intro chunk queuedAfter
    rcases member .input chunk queuedAfter with old | partway
    · exact flow.input chunk old
    · exact Nat.le_of_lt partway
  · intro chunk queuedAfter
    rcases member .reply chunk queuedAfter with old | partway
    · exact flow.reply chunk old
    · exact partway

end Flow

variable {io : PtyIo} {execution : TerminalExecution} {sent : WriteSource → List (List UInt8)}
  {inputs replies : List (List UInt8)}

theorem queues_reply_advanced {endpoint : Endpoint} {front : PendingProtocolReply} {rest : List PendingProtocolReply}
    (count : Nat) :
    queues { io with
      execution :=
        { execution with
          endpoint := endpoint
          pendingProtocolReplies :=
            if front.offset + count ≥ front.reply.bytes.length then rest
            else { front with offset := front.offset + count } :: rest } } =
      Function.update (queues { io with execution := execution }) .reply
        (advanced count front.chunk (rest.map PendingProtocolReply.chunk)) := by
  funext source
  cases source with
  | input => rfl
  | reply =>
      rw [Function.update_self, queues]
      by_cases partway : front.offset + count < front.reply.bytes.length
      · rw [advanced_of_lt partway, if_neg (Nat.not_le.mpr partway)]
        rfl
      · rw [advanced_of_le (Nat.le_of_not_lt partway), if_pos (Nat.le_of_not_lt partway)]

theorem writeReplies_spec (maxBytes : Nat) (idle : Untouched (io.queues .input)) (fuel total : Nat)
    (flow : Flow sent { io with execution := execution })
    (enough : maxBytes + execution.pendingProtocolReplies.length < total + fuel)
    (within : total ≤ maxBytes) :
    wp (writeReplies maxBytes fuel total)
      (fun wrote after => total ≤ wrote ∧ wrote ≤ maxBytes ∧ Flow sent { io with execution := after })
      (fun _ after => Flow sent { io with execution := after }) execution := by
  induction fuel generalizing total execution with
  | zero => omega
  | succ fuel ih =>
      unfold writeReplies
      by_cases more : total < maxBytes
      · rw [if_pos more]
        cases pending : execution.pendingProtocolReplies with
        | nil =>
            simp only [wp_bind, wp_get, pending, wp_pure]
            exact ⟨Nat.le_refl _, within, flow⟩
        | cons front rest =>
            have unfinished : front.offset < front.reply.bytes.length :=
              flow.reply front.chunk (by simp [queues, pending])
            have nonempty : front.reply.bytes.drop front.offset ≠ [] := by
              simpa [List.drop_eq_nil_iff] using unfinished
            simp only [wp_bind, wp_get, pending, nonempty, if_false]
            unfold onEndpoint
            rw [wp_zoom]
            refine wp_mono (Endpoint.write_spec _ execution.endpoint) ?_ ?_
            · rintro outcome endpoint (⟨count, rfl, size, wrote⟩ | ⟨rfl, wrote⟩)
              · cases count with
                | zero => exact ⟨Nat.le_refl _, within, flow.same rfl (by simpa [written] using wrote)⟩
                | succ count =>
                    rw [List.length_take, List.length_drop] at size
                    have small := front.reply.length_le
                    have offset : saturatingAdd 8 front.offset ((count + 1) % 256) = front.offset + (count + 1) := by
                      unfold saturatingAdd
                      omega
                    simp only [wp_bind, wp_modify, offset]
                    have next := flow.write .reply front.chunk (rest.map PendingProtocolReply.chunk)
                      (by simp [queues, pending])
                      (fun other different => match other with | .input => idle | .reply => absurd rfl different)
                      (count + 1) (queues_reply_advanced (count + 1))
                      (by rw [List.take_take, Nat.min_eq_left (by omega)] at wrote; exact wrote)
                    refine wp_mono (ih (total + (count + 1)) next ?_ (by omega)) ?_ (fun _ _ => id)
                    · have shorter : (if front.offset + (count + 1) ≥ front.reply.bytes.length then rest
                          else { front with offset := front.offset + (count + 1) } :: rest).length ≤
                            rest.length + 1 := by
                        split <;> simp
                      simp only [pending, List.length_cons] at enough
                      dsimp only
                      omega
                    · rintro wrote after ⟨lower, upper, flow⟩
                      exact ⟨by omega, upper, flow⟩
              · exact ⟨Nat.le_refl _, within, flow.same rfl (by simpa [written] using wrote)⟩
            · intro _ endpoint wrote
              exact flow.same rfl (by simpa [written] using wrote)
      · rw [if_neg more]
        exact ⟨Nat.le_refl _, within, flow⟩

theorem queues_input_advanced (same : execution.pendingProtocolReplies = io.execution.pendingProtocolReplies)
    {front : AcceptedInput} {rest : List AcceptedInput} (count : Nat)
    (within : front.offset + count ≤ front.bytes.length) :
    queues { io with
      execution := execution
      pendingInput :=
        if front.offset + count = front.bytes.length then rest
        else { front with offset := front.offset + count } :: rest } =
      Function.update io.queues .input (advanced count front.chunk (rest.map chunk)) := by
  funext source
  cases source with
  | input =>
      rw [Function.update_self, queues]
      by_cases whole : front.offset + count = front.bytes.length
      · rw [advanced_of_le (Nat.le_of_eq whole.symm), if_pos whole]
      · rw [advanced_of_lt (show front.chunk.sent + count < front.chunk.bytes.length by
          exact Nat.lt_of_le_of_ne within whole), if_neg whole]
        rfl
  | reply => simp [queues, same]

/-- What a service of the write side keeps. -/
structure Served (sent : WriteSource → List (List UInt8)) (io after : PtyIo) : Prop where
  flow : Flow sent after
  active : after.active = io.active

theorem serviceLoop_spec (writeDispatchBytes fuel total : Nat) (flow : Flow sent io)
    (ordered : io.execution.pendingProtocolReplies = [] ∨ Untouched (io.queues .input))
    (enough : writeDispatchBytes < total + fuel) (within : total ≤ writeDispatchBytes) :
    wp (serviceLoop writeDispatchBytes fuel total)
      (fun _ => Served sent io) (fun _ => Served sent io) io := by
  induction fuel generalizing total io with
  | zero => omega
  | succ fuel ih =>
      unfold serviceLoop
      by_cases more : total < writeDispatchBytes
      · rw [if_pos more]
        simp only [wp_bind, wp_get]
        by_cases waiting : io.execution.hasPendingProtocolReplies = true
        · rw [if_pos waiting]
          have idle : Untouched (io.queues .input) := by
            rcases ordered with none | idle
            · simp [hasPendingProtocolReplies, none] at waiting
            · exact idle
          unfold onExecution writeProtocolReplies
          simp only [wp_bind, wp_zoom, wp_get]
          refine wp_mono (writeReplies_spec (writeDispatchBytes - total) idle _ 0 flow (by omega) (by omega)) ?_ ?_
          · rintro wrote execution ⟨-, upper, flow⟩
            by_cases none : wrote = 0
            · rw [if_pos none]
              exact ⟨flow, rfl⟩
            · rw [if_neg none]
              exact wp_mono (ih (total + wrote) flow (.inr idle) (by omega) (by omega))
                (fun _ _ served => ⟨served.flow, served.active⟩) (fun _ _ served => ⟨served.flow, served.active⟩)
          · intro _ execution flow
            exact ⟨flow, rfl⟩
        · rw [if_neg waiting]
          have none : io.execution.pendingProtocolReplies = [] := by
            simpa [hasPendingProtocolReplies] using waiting
          cases pending : io.pendingInput with
          | nil => exact ⟨flow, rfl⟩
          | cons front rest =>
              simp only [wp_bind]
              unfold onExecution writeInput onEndpoint
              rw [wp_zoom, wp_zoom]
              refine wp_mono (Endpoint.write_spec _ io.execution.endpoint) ?_ ?_
              · rintro outcome endpoint (⟨count, rfl, size, wrote⟩ | ⟨rfl, wrote⟩)
                · cases count with
                  | zero => exact ⟨flow.same rfl (by simpa [written] using wrote), rfl⟩
                  | succ count =>
                      rw [List.length_take, remaining, List.length_drop] at size
                      simp only [wp_bind, wp_modify]
                      have next := flow.write .input front.chunk (rest.map chunk)
                        (by simp [queues, pending])
                        (fun other different => match other with
                          | .reply => by simp [queues, none, untouched_nil]
                          | .input => absurd rfl different)
                        (count + 1)
                        (queues_input_advanced
                          (show ({ io.execution with endpoint := endpoint }).pendingProtocolReplies = _ from rfl)
                          (count + 1) (by omega))
                        (by rw [List.take_take, Nat.min_eq_left (by omega)] at wrote; exact wrote)
                      exact wp_mono (ih (total + (count + 1)) next (.inl none) (by omega) (by omega))
                        (fun _ _ served => ⟨served.flow, served.active⟩) (fun _ _ served => ⟨served.flow, served.active⟩)
                · exact ⟨flow.same rfl (by simpa [written] using wrote), rfl⟩
              · intro _ endpoint wrote
                exact ⟨flow.same rfl (by simpa [written] using wrote), rfl⟩
      · rw [if_neg more]
        exact ⟨flow, rfl⟩

/-- With a reply waiting, a PTY that takes nothing ends the service at once. -/
theorem serviceLoop_refused (writeDispatchBytes : Nat) (flow : Flow sent io)
    (waiting : io.execution.pendingProtocolReplies ≠ [])
    (refuses : ∀ count answers, io.execution.endpoint.answers ≠ .accepts (count + 1) :: answers) :
    wp (serviceLoop writeDispatchBytes (writeDispatchBytes + 1) 0)
      (fun _ => Served sent io) (fun _ => Served sent io) io := by
  unfold serviceLoop
  by_cases more : 0 < writeDispatchBytes
  · rw [if_pos more]
    have has : io.execution.hasPendingProtocolReplies = true := by
      simpa [hasPendingProtocolReplies] using waiting
    obtain ⟨front, rest, pending⟩ := List.exists_cons_of_ne_nil waiting
    have unfinished : front.offset < front.reply.bytes.length :=
      flow.reply front.chunk (by simp [queues, pending])
    have nonempty : front.reply.bytes.drop front.offset ≠ [] := by
      simpa [List.drop_eq_nil_iff] using unfinished
    unfold onExecution writeProtocolReplies writeReplies
      onEndpoint
    simp only [wp_bind, wp_get, has, if_true, wp_zoom, Nat.sub_zero, more, pending, nonempty, if_false]
    have kept {endpoint : Endpoint} (wrote : endpoint.written = io.execution.endpoint.written) :
        Served sent io { io with
          execution := { io.execution with endpoint := endpoint, pendingProtocolReplies := front :: rest } } := by
      refine ⟨flow.same ?_ (by simpa [written] using wrote), rfl⟩
      funext source
      cases source <;> simp [queues, pending]
    refine wp_mono (Endpoint.write_refused _ refuses) ?_ (fun _ _ => kept)
    rintro outcome endpoint ⟨rfl | rfl, wrote⟩
    · exact kept wrote
    · exact kept wrote
  · rw [if_neg more]
    exact ⟨flow, rfl⟩

/-- A reply is waiting, the input in front is partly written, and the PTY takes
bytes: `service_writes` then puts the reply inside that input. -/
def RepliesInsideInput (writeDispatchBytes : Nat) (io : PtyIo) (event : WriteEvent) : Prop :=
  0 < writeDispatchBytes ∧ io.active = true ∧ io.execution.pendingProtocolReplies ≠ [] ∧
    (∃ front rest, io.pendingInput = front :: rest ∧ 0 < front.offset) ∧
    ∃ count rest, event.answers = .accepts (count + 1) :: rest

theorem serviceWrites_spec (writeDispatchBytes : Nat) (flow : Flow sent io) (active : io.active = true)
    (apart : 0 < writeDispatchBytes → io.execution.pendingProtocolReplies ≠ [] →
      ¬ Untouched (io.queues .input) →
        ∀ count rest, io.execution.endpoint.answers ≠ .accepts (count + 1) :: rest) :
    wp (serviceWrites writeDispatchBytes) (fun _ => Served sent io) (fun _ => Served sent io) io := by
  unfold serviceWrites
  simp only [wp_bind, wp_get, active, if_true]
  by_cases empty : io.execution.pendingProtocolReplies = []
  · exact serviceLoop_spec _ _ 0 flow (.inl empty) (by omega) (by omega)
  by_cases idle : Untouched (io.queues .input)
  · exact serviceLoop_spec _ _ 0 flow (.inr idle) (by omega) (by omega)
  by_cases quantum : 0 < writeDispatchBytes
  · exact serviceLoop_refused writeDispatchBytes flow empty (apart quantum empty idle)
  · unfold serviceLoop
    rw [if_neg quantum]
    exact ⟨flow, rfl⟩

theorem Flow.front_started (flow : Flow sent io) (touched : ¬ Untouched (io.queues .input)) :
    ∃ front rest, io.pendingInput = front :: rest ∧ 0 < front.offset := by
  obtain ⟨items, woven, -⟩ := flow.stream
  have orderly := woven.orderly .input
  cases pending : io.pendingInput with
  | nil => exact absurd (by simp [queues, pending, untouched_nil]) touched
  | cons front rest =>
      refine ⟨front, rest, rfl, Nat.pos_of_ne_zero fun zero => touched ?_⟩
      simp only [queues, pending, List.map_cons, Orderly, List.tail_cons] at orderly ⊢
      intro chunk member
      rcases List.mem_cons.mp member with rfl | later
      · exact zero
      · exact orderly chunk later

def sentBy (inputs replies : List (List UInt8)) : WriteSource → List (List UInt8)
  | .input => inputs
  | .reply => replies

/-- What has been written is a proper interleaving, and it can go on as one
while the execution accepts input. -/
structure Settled (inputs replies : List (List UInt8)) (io : PtyIo) : Prop where
  interleaved : Interleaved inputs replies io.written
  flow : io.active = true → Flow (sentBy inputs replies) io

theorem Settled.of_served {after : PtyIo} (served : Served (sentBy inputs replies) io after) :
    Settled inputs replies after :=
  ⟨served.flow.written_interleaved, fun _ => served.flow⟩

theorem Settled.inactive {moreInputs moreReplies : List (List UInt8)} {after : PtyIo}
    (settled : Settled inputs replies io) (inputsGrow : inputs <+: moreInputs)
    (repliesGrow : replies <+: moreReplies) (inactive : after.active = false)
    (wrote : after.written = io.written) : Settled moreInputs moreReplies after :=
  ⟨wrote ▸ settled.interleaved.mono inputsGrow repliesGrow, fun active => by simp [inactive] at active⟩

theorem Flow.input_queued (flow : Flow (sentBy inputs replies) io) (input : AcceptedInput)
    (fresh : input.offset = 0) :
    Flow (sentBy (inputs ++ [input.bytes]) replies)
      { io with pendingInput := io.pendingInput ++ [input] } := by
  let more : WriteSource → List (Chunk UInt8)
    | .input => [input.chunk]
    | .reply => []
  have queued := flow.enqueue more
    (fun source => match source with
      | .input => by simp [more, Untouched, chunk, fresh]
      | .reply => untouched_nil)
    (by simp [more])
    (fun source => match source with
      | .input => show queues { io with pendingInput := io.pendingInput ++ [input] } .input = _ by
          simp [queues, more]
      | .reply => by simp [queues, more])
    rfl
  have sent : sentBy (inputs ++ [input.bytes]) replies =
      fun source => sentBy inputs replies source ++ (more source).map Chunk.bytes := by
    funext source
    cases source <;> simp [sentBy, more, chunk]
  rw [sent]
  exact queued

theorem Flow.replies_captured (flow : Flow (sentBy inputs replies) io) (answered : List TerminalReply) :
    Flow (sentBy inputs (replies ++ (io.execution.captured answered).map TerminalReply.bytes))
      { io with execution := io.execution.captureProtocolReplies answered } := by
  obtain ⟨endpoint, pending⟩ := io.execution.captureProtocolReplies_eq answered
  let more : WriteSource → List (Chunk UInt8)
    | .input => []
    | .reply => (io.execution.captured answered).map fun reply => ⟨reply.bytes, 0⟩
  have queued := flow.enqueue more
    (fun source => match source with
      | .input => untouched_nil
      | .reply => by
          intro chunk member
          obtain ⟨reply, -, rfl⟩ := List.mem_map.mp member
          rfl)
    (by
      intro chunk member
      obtain ⟨reply, -, rfl⟩ := List.mem_map.mp member
      exact reply.ne_nil)
    (fun source => match source with
      | .input => show queues { io with execution := io.execution.captureProtocolReplies answered } .input = _ by
          simp [queues, more]
      | .reply => by simp [queues, more, pending, PendingProtocolReply.chunk, Function.comp_def])
    (by simp [written, endpoint])
  have sent : sentBy inputs (replies ++ (io.execution.captured answered).map TerminalReply.bytes) =
      fun source => sentBy inputs replies source ++ (more source).map Chunk.bytes := by
    funext source
    cases source <;> simp [sentBy, more, Function.comp_def]
  rw [sent]
  exact queued

theorem handle_spec (writeDispatchBytes : Nat) (settled : Settled inputs replies io) (event : WriteEvent)
    (apart : ¬ RepliesInsideInput writeDispatchBytes io event) :
    wp (handle writeDispatchBytes event)
      (fun _ => Settled (inputs ++ event.acceptedBy io) (replies ++ event.capturedBy io))
      (fun _ => Settled (inputs ++ event.acceptedBy io) (replies ++ event.capturedBy io)) io := by
  have refuses (flow : Flow (sentBy inputs replies) io) (active : io.active = true)
      (quantum : 0 < writeDispatchBytes) (waiting : io.execution.pendingProtocolReplies ≠ [])
      (touched : ¬ Untouched (io.queues .input)) (count : Nat) (rest : List PtyAnswer) :
      event.answers ≠ .accepts (count + 1) :: rest :=
    fun accepts => apart ⟨quantum, active, waiting, flow.front_started touched, count, rest, accepts⟩
  cases event with
  | input bytes kind answers =>
      unfold handle drainInput
      simp only [wp_bind, wp_modify, wp_get, acceptedBy, capturedBy, List.append_nil]
      by_cases active : io.active = true
      · have flow := settled.flow active
        have reset : Flow (sentBy inputs replies) (io.withAnswers answers) := flow.same rfl rfl
        rw [if_pos (show (io.withAnswers answers).active = true from active), if_pos active]
        simp only [wp_bind, wp_modify]
        refine wp_mono (serviceWrites_spec writeDispatchBytes (reset.input_queued ⟨bytes, 0, kind⟩ rfl) active ?_)
          (fun _ _ => .of_served) (fun _ _ => .of_served)
        intro quantum waiting touched
        refine refuses flow active quantum waiting fun untouched => touched ?_
        simp only [queues, List.map_append]
        exact Untouched.append untouched (by simp [Untouched, chunk])
      · rw [if_neg (show ¬ (io.withAnswers answers).active = true from active), if_neg active]
        exact settled.inactive (List.prefix_append ..) (List.prefix_refl _) (by simpa [withAnswers] using active) rfl
  | read answered =>
      unfold handle
      simp only [wp_modify, acceptedBy, capturedBy, List.append_nil]
      obtain ⟨endpoint, -⟩ := io.execution.captureProtocolReplies_eq answered
      have wrote : written { io with execution := io.execution.captureProtocolReplies answered } = io.written := by
        simp [written, endpoint]
      refine ⟨?_, fun active => (settled.flow active).replies_captured answered⟩
      rw [wrote]
      exact settled.interleaved.mono (List.prefix_refl _) (List.prefix_append ..)
  | writable answers =>
      unfold handle
      simp only [wp_bind, wp_modify, acceptedBy, capturedBy, List.append_nil]
      by_cases active : io.active = true
      · have flow := settled.flow active
        have reset : Flow (sentBy inputs replies) (io.withAnswers answers) := flow.same rfl rfl
        exact wp_mono (serviceWrites_spec writeDispatchBytes reset active (refuses flow active))
          (fun _ _ => .of_served) (fun _ _ => .of_served)
      · have inactive : (io.withAnswers answers).active = false := by simpa [withAnswers] using active
        unfold serviceWrites
        simp only [wp_bind, wp_get, inactive, Bool.false_eq_true, if_false, wp_modify]
        exact settled.inactive (List.prefix_refl _) (List.prefix_refl _) inactive rfl
  | stopped | closed =>
      unfold handle
      simp only [wp_modify, acceptedBy, capturedBy, List.append_nil]
      exact settled.inactive (List.prefix_refl _) (List.prefix_refl _) rfl rfl

theorem new_settled : Settled [] [] new := by
  have flow : Flow (sentBy [] []) new := by
    refine ⟨⟨[], ⟨.input, ?_, fun other different => ?_, rfl⟩, fun source => ?_⟩, ?_, ?_⟩
    · exact untouched_nil
    · cases other with
      | input => exact absurd rfl different
      | reply => exact untouched_nil
    · cases source <;> rfl
    · simp [queues, new]
    · simp [queues, new]
  exact ⟨flow.written_interleaved, fun _ => flow⟩

end PtyIo

theorem WriteRun.settled {writeDispatchBytes : Nat} {inputs replies : List (List UInt8)} {io : PtyIo}
    (run : WriteRun writeDispatchBytes (fun io event => ¬ RepliesInsideInput writeDispatchBytes io event)
      inputs replies io) : io.Settled inputs replies := by
  induction run with
  | start => exact new_settled
  | step event earlier allowed handled ih =>
      have kept := handle_spec writeDispatchBytes ih event allowed
      unfold Run.wp at kept
      rw [handled] at kept
      split at kept
      next => contradiction
      next same => cases same; exact kept
      next same => cases same; exact kept

/-- As long as no reply is written into a partly written input, every handling
returns, and the bytes sent to the child are an interleaving, at item
boundaries, of the accepted inputs and of the captured replies. -/
theorem WriteRun.interleaved {writeDispatchBytes : Nat} {inputs replies : List (List UInt8)} {io : PtyIo}
    (run : WriteRun writeDispatchBytes (fun io event => ¬ RepliesInsideInput writeDispatchBytes io event)
      inputs replies io) :
    Interleaved inputs replies io.written ∧
      ∀ event, ¬ RepliesInsideInput writeDispatchBytes io event →
        (io.handle writeDispatchBytes event).isSome = true := by
  refine ⟨run.settled.interleaved, fun event apart => ?_⟩
  exact Run.isSome_of_wp (handle_spec writeDispatchBytes run.settled event apart)

def primaryDaReply : TerminalReply := ⟨[0x1b, 0x5b, 0x3f, 0x31, 0x3b, 0x32, 0x63], by decide⟩

/-- An input written in two pieces with a reply captured after it. -/
theorem WriteRun.interleaved_reply_after_input :
    ∃ io : PtyIo, Interleaved [[0x61, 0x62]] [primaryDaReply.bytes] io.written ∧
      io.written = [0x61, 0x62] ++ primaryDaReply.bytes := by
  have first : WriteRun 8 (fun io event => ¬ RepliesInsideInput 8 io event) _ _ _ :=
    .step (.input [0x61, 0x62] .direct [.accepts 1]) .start (fun inside => inside.2.2.1 rfl) rfl
  have second := WriteRun.step (.writable [.accepts 1]) first (fun inside => inside.2.2.1 rfl) rfl
  have third := WriteRun.step (.read [primaryDaReply]) second (fun inside => inside.2.2.1 rfl) rfl
  have fourth := WriteRun.step (.writable [.accepts 7]) third
    (by rintro ⟨-, -, -, ⟨_, _, pending, -⟩, -⟩; cases pending) rfl
  exact ⟨_, (WriteRun.interleaved fourth).1, rfl⟩

theorem not_interleaved_split :
    ¬ Interleaved [[0x61, 0x62]] [primaryDaReply.bytes] (0x61 :: primaryDaReply.bytes ++ [0x62]) := by
  rintro ⟨items, inputs, replies, wrote⟩
  cases items with
  | nil => simp at wrote
  | cons head rest =>
      obtain ⟨source, bytes⟩ := head
      -- whichever item comes first, it is not a beginning of what was written
      cases source with
      | input =>
          have first : bytes = [0x61, 0x62] := (List.cons_prefix_cons.mp inputs).1
          subst first
          simp [primaryDaReply, List.cons_prefix_cons] at wrote
      | reply =>
          have first : bytes = primaryDaReply.bytes := (List.cons_prefix_cons.mp replies).1
          subst first
          simp [primaryDaReply, List.cons_prefix_cons] at wrote

/-- A reply captured while an input is partly written goes into that input. -/
theorem WriteRun.reply_splits_input :
    ∃ io, WriteRun 8 (fun _ _ => True) [[0x61, 0x62]] [primaryDaReply.bytes] io ∧
      ¬ Interleaved [[0x61, 0x62]] [primaryDaReply.bytes] io.written := by
  have first : WriteRun 8 (fun _ _ => True) _ _ _ :=
    .step (.input [0x61, 0x62] .direct [.accepts 1]) .start trivial rfl
  have second := WriteRun.step (.read [primaryDaReply]) first trivial rfl
  have third := WriteRun.step (.writable [.accepts 7, .accepts 1]) second trivial rfl
  exact ⟨_, third, not_interleaved_split⟩

end Seyal.Runtime
