import Mathlib.Algebra.BigOperators.Group.Finset.Piecewise
import Mathlib.Data.Fintype.Basic
import Seyal.Program.Ledger
import Seyal.Runtime.Writes

namespace Seyal.Runtime.Reservations

open Program

/-! Input that any number of threads submit while the runtime consumes it. The two
counters of reserved bytes are atomics; a step is one access to one of them. -/

inductive RuntimeError where
  | executionNotRunning
  | inputHeld
  | inputBackpressure
  | controlQueueFull
  | controlQueueClosed
  deriving Repr, DecidableEq

def usizeSpan : Nat := 2 ^ 64

/-- `fetch_sub` wraps around. -/
def fetchSub (counter amount : Nat) : Nat := (counter + usizeSpan - amount) % usizeSpan

structure Limits where
  aggregateInputBytes : Nat
  perExecutionInputBytes : Nat
  aggregate_lt : aggregateInputBytes < usizeSpan
  perExecution_lt : perExecutionInputBytes < usizeSpan

/-- What one round of the loop of `reserve_counter` comes to. -/
inductive Attempt where
  | backpressure
  | reserved (next : Nat)
  | observed (current : Nat)

/-- `compare_exchange_weak` may fail `spuriously`. -/
def reserveCounter (counter limit amount current : Nat) (spuriously : Bool) : Attempt :=
  if usizeSpan ≤ current + amount then .backpressure
  else if limit < current + amount then .backpressure
  else if counter = current ∧ spuriously = false then .reserved (current + amount)
  else .observed counter

/-- Where a call of `try_submit_kind` stands, and then the input it has sent. Each
stage is named for the access that comes next; `remaining` is the reservation's. -/
inductive Stage where
  | loadActive
  | loadHeld
  | loadGlobal
  | swapGlobal (current : Nat)
  | loadPerExecution
  | swapPerExecution (current : Nat)
  | rollBack
  | loadActiveAgain
  | trySend
  /-- In the control queue, or among the pending input of the execution. -/
  | accepted (offset remaining : Nat)
  | consumeGlobal (offset remaining amount : Nat)
  | consumePerExecution (offset remaining amount : Nat)
  | dropGlobal (remaining : Nat) (result : Except RuntimeError Unit)
  | dropPerExecution (remaining : Nat) (result : Except RuntimeError Unit)
  | finished (result : Except RuntimeError Unit)

variable {Execution : Type}

/-- Ghost: the bytes added to and taken from either counter. -/
structure Submission (Execution : Type) where
  executionId : Execution
  bytes : List UInt8
  kind : InputKind
  stage : Stage := .loadActive
  globalTaken : Nat := 0
  globalReleased : Nat := 0
  perExecutionTaken : Nat := 0
  perExecutionReleased : Nat := 0

open Submission

structure Shared (Execution : Type) where
  global : Nat
  perExecution : Execution → Nat
  active : Execution → Bool
  held : Execution → Bool

/-- What the scheduler, the queue or the runtime does with a submission. -/
inductive Move where
  | access (spuriously : Bool)
  | delivered
  | full
  | disconnected
  | consume (count : Nat)
  | drop

namespace Submission

def enter (submission : Submission Execution) (stage : Stage) : Submission Execution :=
  { submission with stage := stage }

def takeGlobal (submission : Submission Execution) : Submission Execution :=
  { submission with globalTaken := submission.globalTaken + submission.bytes.length }

def takePerExecution (submission : Submission Execution) : Submission Execution :=
  { submission with perExecutionTaken := submission.perExecutionTaken + submission.bytes.length }

def releaseGlobal (submission : Submission Execution) (amount : Nat) : Submission Execution :=
  { submission with globalReleased := submission.globalReleased + amount }

def releasePerExecution (submission : Submission Execution) (amount : Nat) : Submission Execution :=
  { submission with perExecutionReleased := submission.perExecutionReleased + amount }

end Submission

def Shared.subGlobal (shared : Shared Execution) (amount : Nat) : Shared Execution :=
  { shared with global := fetchSub shared.global amount }

variable [DecidableEq Execution]

def Shared.setPerExecution (shared : Shared Execution) (id : Execution) (value : Nat) : Shared Execution :=
  { shared with perExecution := Function.update shared.perExecution id value }

def Shared.subPerExecution (shared : Shared Execution) (id : Execution) (amount : Nat) : Shared Execution :=
  shared.setPerExecution id (fetchSub (shared.perExecution id) amount)

def Submission.step (limits : Limits) (shared : Shared Execution) (submission : Submission Execution) :
    Move → Option (Shared Execution × Submission Execution)
  | .access spuriously =>
      let id := submission.executionId
      let amount := submission.bytes.length
      match submission.stage with
      | .loadActive =>
          some (shared, submission.enter (if shared.active id then .loadHeld
            else .finished (.error .executionNotRunning)))
      | .loadHeld =>
          some (shared, submission.enter (if submission.kind ≠ .bootstrap ∧ shared.held id = true
            then .finished (.error .inputHeld) else .loadGlobal))
      | .loadGlobal => some (shared, submission.enter (.swapGlobal shared.global))
      | .swapGlobal current =>
          match reserveCounter shared.global limits.aggregateInputBytes amount current spuriously with
          | .backpressure => some (shared, submission.enter (.finished (.error .inputBackpressure)))
          | .reserved next => some ({ shared with global := next }, (submission.enter .loadPerExecution).takeGlobal)
          | .observed current => some (shared, submission.enter (.swapGlobal current))
      | .loadPerExecution => some (shared, submission.enter (.swapPerExecution (shared.perExecution id)))
      | .swapPerExecution current =>
          match reserveCounter (shared.perExecution id) limits.perExecutionInputBytes amount current spuriously with
          | .backpressure => some (shared, submission.enter .rollBack)
          | .reserved next =>
              some (shared.setPerExecution id next, (submission.enter .loadActiveAgain).takePerExecution)
          | .observed current => some (shared, submission.enter (.swapPerExecution current))
      | .rollBack =>
          some (shared.subGlobal amount,
            (submission.enter (.finished (.error .inputBackpressure))).releaseGlobal amount)
      | .loadActiveAgain =>
          some (shared, submission.enter (if shared.active id then .trySend
            else .dropGlobal amount (.error .executionNotRunning)))
      | .consumeGlobal offset remaining count =>
          some (shared.subGlobal count,
            (submission.enter (.consumePerExecution offset remaining count)).releaseGlobal count)
      | .consumePerExecution offset remaining count =>
          some (shared.subPerExecution id count,
            (submission.enter (.accepted offset remaining)).releasePerExecution count)
      | .dropGlobal remaining result =>
          if remaining = 0 then some (shared, submission.enter (.finished result))
          else some (shared.subGlobal remaining,
            (submission.enter (.dropPerExecution remaining result)).releaseGlobal remaining)
      | .dropPerExecution remaining result =>
          some (shared.subPerExecution id remaining,
            (submission.enter (.finished result)).releasePerExecution remaining)
      | .trySend | .accepted _ _ | .finished _ => none
  | .delivered =>
      match submission.stage with
      | .trySend => some (shared, submission.enter (.accepted 0 submission.bytes.length))
      | _ => none
  | .full =>
      match submission.stage with
      | .trySend => some (shared, submission.enter (.dropGlobal submission.bytes.length (.error .controlQueueFull)))
      | _ => none
  | .disconnected =>
      match submission.stage with
      | .trySend => some (shared, submission.enter (.dropGlobal submission.bytes.length (.error .controlQueueClosed)))
      | _ => none
  | .consume count =>
      match submission.stage with
      | .accepted offset remaining =>
          -- the runtime has written `count` bytes of a slice of what remains
          if count ≤ (AcceptedInput.remaining ⟨submission.bytes, offset, submission.kind⟩).length then
            some (shared, submission.enter (if count = 0 then .accepted offset remaining
              else .consumeGlobal (offset + count) (remaining - count) count))
          else none
      | _ => none
  | .drop =>
      match submission.stage with
      | .accepted _ remaining => some (shared, submission.enter (.dropGlobal remaining (.ok ())))
      | _ => none

structure World (Execution : Type) where
  shared : Shared Execution
  submissions : List (Submission Execution)

/-- The runtime opens and closes an execution's ingress and sets and clears its hold
at any time. -/
inductive Event (Execution : Type) where
  | submit (id : Execution) (bytes : List UInt8) (kind : InputKind)
  | storeActive (id : Execution) (active : Bool)
  | storeHeld (id : Execution) (held : Bool)
  | move (index : Nat) (move : Move)

namespace World

def start : World Execution := ⟨⟨0, fun _ => 0, fun _ => false, fun _ => false⟩, []⟩

def step (limits : Limits) (world : World Execution) : Event Execution → Option (World Execution)
  | .submit id bytes kind =>
      some { world with
        submissions := world.submissions ++ [{ executionId := id, bytes := bytes, kind := kind }] }
  | .storeActive id active =>
      some { world with shared := { world.shared with active := Function.update world.shared.active id active } }
  | .storeHeld id held =>
      some { world with shared := { world.shared with held := Function.update world.shared.held id held } }
  | .move index move => do
      let submission ← world.submissions[index]?
      let (shared, next) ← submission.step limits world.shared move
      some ⟨shared, world.submissions.set index next⟩

def run (limits : Limits) : World Execution → List (Event Execution) → Option (World Execution)
  | world, [] => some world
  | world, event :: events => do run limits (← world.step limits event) events

end World

namespace Submission

/-- Reserved in the aggregate counter and not yet, or not at all, in the execution's. -/
def reserving (submission : Submission Execution) : Nat :=
  match submission.stage with
  | .loadPerExecution | .swapPerExecution _ | .rollBack => submission.bytes.length
  | _ => 0

def reserved (submission : Submission Execution) : Nat :=
  match submission.stage with
  | .loadActiveAgain | .trySend => submission.bytes.length
  | .accepted _ remaining | .dropGlobal remaining _ | .consumePerExecution _ remaining _ => remaining
  | .consumeGlobal _ remaining amount => remaining + amount
  | _ => 0

/-- Released from the aggregate counter and not yet from the execution's. -/
def releasing (submission : Submission Execution) : Nat :=
  match submission.stage with
  | .consumePerExecution _ _ amount => amount
  | .dropPerExecution remaining _ => remaining
  | _ => 0

def globalShare (submission : Submission Execution) : Nat := submission.reserving + submission.reserved

def perExecutionShare (id : Execution) (submission : Submission Execution) : Nat :=
  if submission.executionId = id then submission.reserved + submission.releasing else 0

def unconsumed (submission : Submission Execution) : Nat :=
  match submission.stage with
  | .accepted offset _ => (AcceptedInput.remaining ⟨submission.bytes, offset, submission.kind⟩).length
  | _ => 0

/-- Neither between its reservation and its acceptance, nor in a release. -/
def Quiet (submission : Submission Execution) : Prop :=
  match submission.stage with
  | .loadActiveAgain | .trySend | .consumeGlobal .. | .consumePerExecution .. | .dropGlobal .. |
    .dropPerExecution .. => False
  | _ => True

/-- What has been taken from either counter at a stage. -/
def Taken (submission : Submission Execution) : Prop :=
  match submission.stage with
  | .loadActive | .loadHeld | .loadGlobal | .swapGlobal _ =>
      submission.globalTaken = 0 ∧ submission.perExecutionTaken = 0
  | .loadPerExecution | .swapPerExecution _ | .rollBack =>
      submission.globalTaken = submission.bytes.length ∧ submission.perExecutionTaken = 0
  | .finished _ =>
      (submission.globalTaken = 0 ∨ submission.globalTaken = submission.bytes.length) ∧
        (submission.perExecutionTaken = 0 ∨ submission.perExecutionTaken = submission.globalTaken)
  | _ => submission.globalTaken = submission.bytes.length ∧
      submission.perExecutionTaken = submission.bytes.length

/-- The reservation of an accepted input is for what it has not consumed. -/
def Aligned (submission : Submission Execution) : Prop :=
  match submission.stage with
  | .accepted offset remaining | .consumeGlobal offset remaining _ | .consumePerExecution offset remaining _ =>
      offset + remaining = submission.bytes.length
  | _ => True

structure Sound (submission : Submission Execution) : Prop where
  taken : submission.Taken
  aligned : submission.Aligned
  global : submission.globalTaken = submission.globalReleased + submission.globalShare
  perExecution : submission.perExecutionTaken =
    submission.perExecutionReleased + (submission.reserved + submission.releasing)

end Submission

omit [DecidableEq Execution] in
theorem Submission.Sound.releases {submission : Submission Execution} (sound : submission.Sound) :
    submission.globalReleased ≤ submission.globalTaken ∧ submission.globalTaken ≤ submission.bytes.length ∧
    submission.perExecutionReleased ≤ submission.perExecutionTaken ∧
    submission.perExecutionTaken ≤ submission.bytes.length ∧
    ∀ result, submission.stage = .finished result →
      submission.globalReleased = submission.globalTaken ∧
      submission.perExecutionReleased = submission.perExecutionTaken := by
  have atMost : submission.globalTaken ≤ submission.bytes.length ∧
      submission.perExecutionTaken ≤ submission.bytes.length := by
    have taken := sound.taken
    unfold Taken at taken
    split at taken <;> omega
  have global := sound.global
  have perExecution := sound.perExecution
  refine ⟨by omega, atMost.1, by omega, atMost.2, fun result finished => ?_⟩
  simp only [globalShare, reserving, reserved, finished] at global
  simp only [reserved, releasing, finished] at perExecution
  omega

omit [DecidableEq Execution] in
theorem Submission.share_of_quiet {submission : Submission Execution} (quiet : submission.Quiet)
    (aligned : submission.Aligned) :
    submission.reserved + submission.releasing = submission.unconsumed := by
  obtain ⟨id, bytes, kind, stage, globalTaken, globalReleased, perExecutionTaken, perExecutionReleased⟩ := submission
  cases stage with
  | accepted offset remaining =>
      have split_ : offset + remaining = bytes.length := aligned
      change remaining + 0 = (bytes.drop offset).length
      rw [List.length_drop]
      omega
  | loadActiveAgain | trySend | consumeGlobal | consumePerExecution | dropGlobal | dropPerExecution => cases quiet
  | _ => rfl

structure Shared.Within (limits : Limits) (shared : Shared Execution) : Prop where
  global : shared.global ≤ limits.aggregateInputBytes
  perExecution : ∀ id, shared.perExecution id ≤ limits.perExecutionInputBytes

theorem fetchSub_eq {counter amount : Nat} (enough : amount ≤ counter) (fits : counter < usizeSpan) :
    fetchSub counter amount = counter - amount := by
  unfold fetchSub
  rw [Nat.add_comm, Nat.add_sub_assoc enough, Nat.add_mod_left, Nat.mod_eq_of_lt (by omega)]

theorem reserveCounter_reserved {counter limit amount current next : Nat} {spuriously : Bool}
    (swapped : reserveCounter counter limit amount current spuriously = .reserved next) :
    next = counter + amount ∧ next ≤ limit := by
  unfold reserveCounter at swapped
  split at swapped
  · cases swapped
  split at swapped
  · cases swapped
  next room =>
    split at swapped
    next same =>
      cases swapped
      exact ⟨by rw [same.1], Nat.le_of_not_lt room⟩
    next => cases swapped

variable {limits : Limits} {shared after : Shared Execution} {submission next : Submission Execution} {move : Move}

/-- What an access does: the counters change as the submission's shares do. -/
structure Moved (limits : Limits) (shared after : Shared Execution) (submission next : Submission Execution) :
    Prop where
  sound : next.Sound
  within : after.Within limits
  global : after.global + submission.globalShare = shared.global + next.globalShare
  perExecution : ∀ id, after.perExecution id + submission.perExecutionShare id =
    shared.perExecution id + next.perExecutionShare id

section Accesses

variable {stage : Stage} {amount : Nat} (sound : submission.Sound) (within : shared.Within limits)
include sound within

theorem Moved.enter (taken : (submission.enter stage).Taken) (aligned : (submission.enter stage).Aligned)
    (reserving : (submission.enter stage).reserving = submission.reserving)
    (reserved : (submission.enter stage).reserved = submission.reserved)
    (releasing : (submission.enter stage).releasing = submission.releasing) :
    Moved limits shared shared submission (submission.enter stage) where
  sound := by
    refine ⟨taken, aligned, ?_, ?_⟩
    · rw [globalShare, reserving, reserved]
      exact sound.global
    · rw [reserved, releasing]
      exact sound.perExecution
  within := within
  global := by rw [globalShare, globalShare, reserving, reserved]
  perExecution id := by
    unfold perExecutionShare
    rw [reserved, releasing]
    rfl

theorem Moved.takeGlobal (bound : shared.global + submission.bytes.length ≤ limits.aggregateInputBytes)
    (taken : (submission.enter stage).takeGlobal.Taken) (aligned : (submission.enter stage).Aligned)
    (more : (submission.enter stage).globalShare = submission.globalShare + submission.bytes.length)
    (kept : (submission.enter stage).reserved + (submission.enter stage).releasing =
      submission.reserved + submission.releasing) :
    Moved limits shared { shared with global := shared.global + submission.bytes.length } submission
      (submission.enter stage).takeGlobal := by
  have balance := sound.global
  refine ⟨⟨taken, aligned, ?_, sound.perExecution.trans (by rw [← kept]; rfl)⟩, ⟨bound, within.perExecution⟩, ?_,
    fun id => ?_⟩
  · change submission.globalTaken + submission.bytes.length =
      submission.globalReleased + (submission.enter stage).globalShare
    omega
  · change shared.global + _ + _ = shared.global + (submission.enter stage).globalShare
    omega
  · simp only [perExecutionShare, ← kept]
    rfl

theorem Moved.releaseGlobal (inGlobal : submission.globalShare ≤ shared.global)
    (taken : ((submission.enter stage).releaseGlobal amount).Taken) (aligned : (submission.enter stage).Aligned)
    (less : submission.globalShare = (submission.enter stage).globalShare + amount)
    (kept : (submission.enter stage).reserved + (submission.enter stage).releasing =
      submission.reserved + submission.releasing) :
    Moved limits shared (shared.subGlobal amount) submission ((submission.enter stage).releaseGlobal amount) := by
  have balance := sound.global
  have bound := within.global
  have exact_ : fetchSub shared.global amount = shared.global - amount :=
    fetchSub_eq (by omega) (bound.trans_lt limits.aggregate_lt)
  refine ⟨⟨taken, aligned, ?_, sound.perExecution.trans (by rw [← kept]; rfl)⟩, ⟨?_, within.perExecution⟩, ?_,
    fun id => ?_⟩
  · change submission.globalTaken = submission.globalReleased + amount + (submission.enter stage).globalShare
    omega
  · simp only [Shared.subGlobal, exact_]
    omega
  · change fetchSub shared.global amount + _ = shared.global + (submission.enter stage).globalShare
    omega
  · simp only [perExecutionShare, ← kept]
    rfl

omit sound in
theorem Moved.setPerExecution {value : Nat} (sound : next.Sound) (bound : value ≤ limits.perExecutionInputBytes)
    (kept : next.globalShare = submission.globalShare) (same : next.executionId = submission.executionId)
    (share : value + (submission.reserved + submission.releasing) =
      shared.perExecution submission.executionId + (next.reserved + next.releasing)) :
    Moved limits shared (shared.setPerExecution submission.executionId value) submission next := by
  refine ⟨sound, ⟨within.global, fun id => ?_⟩, by rw [kept]; rfl, fun id => ?_⟩
  · by_cases own : id = submission.executionId
    · simpa [Shared.setPerExecution, own] using bound
    · simpa [Shared.setPerExecution, own] using within.perExecution id
  · by_cases own : id = submission.executionId
    · subst own
      simpa [Shared.setPerExecution, perExecutionShare, same] using share
    · have different : submission.executionId ≠ id := Ne.symm own
      simp [Shared.setPerExecution, perExecutionShare, same, own, different]

theorem Moved.takePerExecution
    (bound : shared.perExecution submission.executionId + submission.bytes.length ≤ limits.perExecutionInputBytes)
    (taken : (submission.enter stage).takePerExecution.Taken) (aligned : (submission.enter stage).Aligned)
    (kept : (submission.enter stage).globalShare = submission.globalShare)
    (more : (submission.enter stage).reserved + (submission.enter stage).releasing =
      submission.reserved + submission.releasing + submission.bytes.length) :
    Moved limits shared (shared.setPerExecution submission.executionId
        (shared.perExecution submission.executionId + submission.bytes.length)) submission
      (submission.enter stage).takePerExecution := by
  have balance := sound.perExecution
  refine Moved.setPerExecution within ⟨taken, aligned, sound.global.trans (by rw [← kept]; rfl), ?_⟩ bound kept rfl ?_
  · change submission.perExecutionTaken + submission.bytes.length = submission.perExecutionReleased +
      ((submission.enter stage).reserved + (submission.enter stage).releasing)
    omega
  · change _ = _ + ((submission.enter stage).reserved + (submission.enter stage).releasing)
    omega

theorem Moved.releasePerExecution
    (inPerExecution : submission.reserved + submission.releasing ≤ shared.perExecution submission.executionId)
    (taken : ((submission.enter stage).releasePerExecution amount).Taken) (aligned : (submission.enter stage).Aligned)
    (kept : (submission.enter stage).globalShare = submission.globalShare)
    (less : submission.reserved + submission.releasing =
      (submission.enter stage).reserved + (submission.enter stage).releasing + amount) :
    Moved limits shared (shared.subPerExecution submission.executionId amount) submission
      ((submission.enter stage).releasePerExecution amount) := by
  have balance := sound.perExecution
  have bound := within.perExecution submission.executionId
  have exact_ : fetchSub (shared.perExecution submission.executionId) amount =
      shared.perExecution submission.executionId - amount :=
    fetchSub_eq (by omega) (bound.trans_lt limits.perExecution_lt)
  refine Moved.setPerExecution within ⟨taken, aligned, sound.global.trans (by rw [← kept]; rfl), ?_⟩ ?_ kept rfl ?_
  · change submission.perExecutionTaken = submission.perExecutionReleased + amount +
      ((submission.enter stage).reserved + (submission.enter stage).releasing)
    omega
  · omega
  · change _ = _ + ((submission.enter stage).reserved + (submission.enter stage).releasing)
    omega

variable (inGlobal : submission.globalShare ≤ shared.global)
  (inPerExecution : submission.reserved + submission.releasing ≤ shared.perExecution submission.executionId)
include inGlobal inPerExecution

theorem Submission.Sound.access_moved {spuriously : Bool}
    (stepped : submission.step limits shared (.access spuriously) = some (after, next)) :
    Moved limits shared after submission next := by
  obtain ⟨id, bytes, kind, stage, globalTaken, globalReleased, perExecutionTaken, perExecutionReleased⟩ := submission
  have taken := sound.taken
  cases stage with
  | loadActive =>
      cases stepped
      split
      · exact Moved.enter sound within taken trivial rfl rfl rfl
      · exact Moved.enter sound within ⟨.inl taken.1, .inl taken.2⟩ trivial rfl rfl rfl
  | loadHeld =>
      cases stepped
      split
      · exact Moved.enter sound within ⟨.inl taken.1, .inl taken.2⟩ trivial rfl rfl rfl
      · exact Moved.enter sound within taken trivial rfl rfl rfl
  | loadGlobal | loadPerExecution =>
      cases stepped
      exact Moved.enter sound within taken trivial rfl rfl rfl
  | swapGlobal current =>
      simp only [step] at stepped
      split at stepped <;> cases stepped
      · exact Moved.enter sound within ⟨.inl taken.1, .inl taken.2⟩ trivial rfl rfl rfl
      next swapped =>
        obtain ⟨rfl, bound⟩ := reserveCounter_reserved swapped
        have none_ : globalTaken = 0 := taken.1
        exact Moved.takeGlobal sound within bound ⟨by simp [takeGlobal, enter, none_], taken.2⟩ trivial
          (Nat.add_comm ..) rfl
      · exact Moved.enter sound within taken trivial rfl rfl rfl
  | swapPerExecution current =>
      simp only [step] at stepped
      split at stepped <;> cases stepped
      · exact Moved.enter sound within taken trivial rfl rfl rfl
      next swapped =>
        obtain ⟨rfl, bound⟩ := reserveCounter_reserved swapped
        have none_ : perExecutionTaken = 0 := taken.2
        exact Moved.takePerExecution sound within bound ⟨taken.1, by simp [takePerExecution, enter, none_]⟩ trivial
          (Nat.add_comm ..) (Nat.add_comm ..)
      · exact Moved.enter sound within taken trivial rfl rfl rfl
  | rollBack =>
      cases stepped
      exact Moved.releaseGlobal sound within inGlobal ⟨.inr taken.1, .inl taken.2⟩ trivial (Nat.add_comm ..) rfl
  | loadActiveAgain =>
      cases stepped
      split <;> exact Moved.enter sound within taken trivial rfl rfl rfl
  | consumeGlobal offset remaining count =>
      cases stepped
      exact Moved.releaseGlobal sound within inGlobal taken sound.aligned (Nat.add_assoc ..).symm rfl
  | consumePerExecution offset remaining count =>
      cases stepped
      exact Moved.releasePerExecution sound within inPerExecution taken sound.aligned rfl rfl
  | dropGlobal remaining result =>
      simp only [step] at stepped
      split at stepped <;> cases stepped
      next none_ =>
        exact Moved.enter sound within ⟨.inr taken.1, .inr (taken.2.trans taken.1.symm)⟩ trivial rfl none_.symm rfl
      next => exact Moved.releaseGlobal sound within inGlobal taken trivial rfl (Nat.add_comm ..)
  | dropPerExecution remaining result =>
      cases stepped
      exact Moved.releasePerExecution sound within inPerExecution
        ⟨.inr taken.1, .inr (taken.2.trans taken.1.symm)⟩ trivial rfl rfl
  | trySend | accepted | finished => cases stepped

theorem Submission.Sound.step_moved (stepped : submission.step limits shared move = some (after, next)) :
    Moved limits shared after submission next := by
  obtain ⟨id, bytes, kind, stage, globalTaken, globalReleased, perExecutionTaken, perExecutionReleased⟩ := submission
  have taken := sound.taken
  have aligned := sound.aligned
  cases move with
  | access spuriously => exact sound.access_moved within inGlobal inPerExecution stepped
  | delivered =>
      cases stage with
      | trySend =>
          cases stepped
          exact Moved.enter sound within taken (Nat.zero_add _) rfl rfl rfl
      | _ => cases stepped
  | full | disconnected =>
      cases stage with
      | trySend =>
          cases stepped
          exact Moved.enter sound within taken trivial rfl rfl rfl
      | _ => cases stepped
  | consume count =>
      cases stage with
      | accepted offset remaining =>
          simp only [step] at stepped
          split at stepped
          next room =>
            cases stepped
            split
            · exact Moved.enter sound within taken aligned rfl rfl rfl
            · have split_ : offset + remaining = bytes.length := aligned
              change count ≤ (bytes.drop offset).length at room
              rw [List.length_drop] at room
              refine Moved.enter sound within taken ?_ rfl (Nat.sub_add_cancel (by omega)) rfl
              change offset + count + (remaining - count) = bytes.length
              omega
          · cases stepped
      | _ => cases stepped
  | drop =>
      cases stage with
      | accepted offset remaining =>
          cases stepped
          exact Moved.enter sound within taken trivial rfl rfl rfl
      | _ => cases stepped

end Accesses

namespace World

variable {world later : World Execution} {events : List (Event Execution)} {event : Event Execution}

/-- Every counter is the sum of the submissions' shares in it. -/
structure Balanced (limits : Limits) (world : World Execution) : Prop where
  sound : ∀ submission ∈ world.submissions, submission.Sound
  within : world.shared.Within limits
  global : world.shared.global = totalOf globalShare world.submissions
  perExecution : ∀ id, world.shared.perExecution id = totalOf (perExecutionShare id) world.submissions

theorem balanced_start : Balanced limits (start : World Execution) where
  sound := nofun
  within := ⟨Nat.zero_le _, fun _ => Nat.zero_le _⟩
  global := rfl
  perExecution _ := rfl

theorem Balanced.moved {index : Nat} (balanced : world.Balanced limits)
    (found : world.submissions[index]? = some submission)
    (stepped : submission.step limits world.shared move = some (shared, next)) :
    Balanced limits ⟨shared, world.submissions.set index next⟩ := by
  have inGlobal : submission.globalShare ≤ world.shared.global := by
    rw [balanced.global]
    exact share_le_totalOf _ found
  have inPerExecution :
      submission.reserved + submission.releasing ≤ world.shared.perExecution submission.executionId := by
    rw [balanced.perExecution]
    have share := share_le_totalOf (perExecutionShare submission.executionId) found
    simpa only [perExecutionShare, if_pos] using share
  have moved := (balanced.sound _ (List.mem_of_getElem? found)).step_moved balanced.within inGlobal inPerExecution stepped
  refine ⟨fun other member => ?_, moved.within, ?_, fun id => ?_⟩
  · rcases List.mem_or_eq_of_mem_set member with old | rfl
    · exact balanced.sound other old
    · exact moved.sound
  · have sum := totalOf_set globalShare next found
    have change_ := moved.global
    rw [balanced.global] at change_
    change shared.global = totalOf globalShare (world.submissions.set index next)
    omega
  · have sum := totalOf_set (perExecutionShare id) next found
    have change_ := moved.perExecution id
    rw [balanced.perExecution] at change_
    change shared.perExecution id = totalOf (perExecutionShare id) (world.submissions.set index next)
    omega

theorem Balanced.step (balanced : world.Balanced limits) (stepped : world.step limits event = some later) :
    later.Balanced limits := by
  cases event with
  | submit id bytes kind =>
      cases stepped
      refine ⟨fun submission member => ?_, balanced.within, ?_, fun other => ?_⟩
      · rcases List.mem_append.mp member with old | new
        · exact balanced.sound submission old
        · rw [List.mem_singleton.mp new]
          exact ⟨⟨rfl, rfl⟩, trivial, rfl, rfl⟩
      · rw [totalOf_append_single]
        exact balanced.global
      · rw [totalOf_append_single, perExecutionShare]
        simpa [reserved, releasing] using balanced.perExecution other
  | storeActive id active | storeHeld id held =>
      cases stepped
      exact ⟨balanced.sound, ⟨balanced.within.global, balanced.within.perExecution⟩, balanced.global,
        balanced.perExecution⟩
  | move index move =>
      simp only [World.step, Option.bind_eq_bind, Option.bind_eq_some_iff] at stepped
      obtain ⟨submission, found, ⟨shared, next⟩, moved, same⟩ := stepped
      cases same
      exact balanced.moved found moved

theorem Balanced.run (balanced : world.Balanced limits) (ran : world.run limits events = some later) :
    later.Balanced limits := by
  induction events generalizing world with
  | nil =>
      cases ran
      exact balanced
  | cons event events ih =>
      simp only [World.run, Option.bind_eq_bind, Option.bind_eq_some_iff] at ran
      obtain ⟨next, stepped, rest⟩ := ran
      exact ih (balanced.step stepped) rest

/-- No submission to the execution is between its reservation and its acceptance, or in a release. -/
def Quiescent (world : World Execution) (id : Execution) : Prop :=
  ∀ submission ∈ world.submissions, submission.executionId = id → submission.Quiet

def unconsumed (world : World Execution) (id : Execution) : Nat :=
  totalOf Submission.unconsumed (world.submissions.filter fun submission => submission.executionId = id)

theorem Balanced.quiescent (balanced : world.Balanced limits) {id : Execution} (quiescent : world.Quiescent id) :
    world.shared.perExecution id = world.unconsumed id := by
  rw [balanced.perExecution, unconsumed, totalOf_filter]
  apply totalOf_congr
  intro submission member
  by_cases own : submission.executionId = id
  · have share := share_of_quiet (quiescent submission member own)
      (balanced.sound submission member).aligned
    simpa only [perExecutionShare, own, if_true, decide_true] using share
  · simp [perExecutionShare, own]

theorem Balanced.aggregate [Fintype Execution] (balanced : world.Balanced limits) :
    world.shared.global + totalOf releasing world.submissions =
      ∑ id, world.shared.perExecution id + totalOf reserving world.submissions := by
  have owned (submission : Submission Execution) :
      ∑ id, submission.perExecutionShare id = submission.reserved + submission.releasing := by
    simp [perExecutionShare]
  have perExecution : ∑ id, world.shared.perExecution id =
      totalOf reserved world.submissions + totalOf releasing world.submissions := by
    rw [← totalOf_add, Finset.sum_congr rfl fun id _ => balanced.perExecution id, sum_totalOf]
    exact totalOf_congr fun submission _ => owned submission
  have global : world.shared.global =
      totalOf reserving world.submissions + totalOf reserved world.submissions := by
    rw [← totalOf_add, balanced.global]
    rfl
  omega

/-- The counters of reserved input through every interleaving. The aggregate is ahead of the executions by
the reservations in progress and behind them by the releases in progress; both keep within their limits;
when nothing is in progress for an execution, its counter is what its accepted inputs have not consumed; and
what a submission has reserved in either counter has been released once when it is done with. -/
theorem reservations_balance [Fintype Execution] (ran : World.run limits start events = some world) :
    (world.shared.global + totalOf releasing world.submissions =
      ∑ id, world.shared.perExecution id + totalOf reserving world.submissions) ∧
    world.shared.global ≤ limits.aggregateInputBytes ∧
    (∀ id, world.shared.perExecution id ≤ limits.perExecutionInputBytes) ∧
    (∀ id, world.Quiescent id → world.shared.perExecution id = world.unconsumed id) ∧
    ∀ submission ∈ world.submissions,
      submission.globalReleased ≤ submission.globalTaken ∧ submission.globalTaken ≤ submission.bytes.length ∧
      submission.perExecutionReleased ≤ submission.perExecutionTaken ∧
      submission.perExecutionTaken ≤ submission.bytes.length ∧
      ∀ result, submission.stage = .finished result →
        submission.globalReleased = submission.globalTaken ∧
        submission.perExecutionReleased = submission.perExecutionTaken := by
  have initially : Balanced limits (start : World Execution) := balanced_start
  have balanced := initially.run ran
  refine ⟨balanced.aggregate, balanced.within.global, balanced.within.perExecution,
    fun id quiescent => balanced.quiescent quiescent, fun submission member => ?_⟩
  exact (balanced.sound submission member).releases

/-- One thread submits five bytes, and the runtime has written two of them. -/
def twoConsumed : List (Event Unit) :=
  [.storeActive () true, .submit () [1, 2, 3, 4, 5] .direct] ++ List.replicate 7 (.move 0 (.access false)) ++
    [.move 0 .delivered, .move 0 (.consume 2), .move 0 (.access false), .move 0 (.access false)]

def smallLimits : Limits := ⟨32, 16, by decide, by decide⟩

theorem reservations_balance_consumed :
    ∃ world, World.run smallLimits start twoConsumed = some world ∧ world.Quiescent () ∧ world.unconsumed () = 3 ∧
      world.shared.perExecution () = world.unconsumed () := by
  have quiet : ((World.run smallLimits start twoConsumed).get rfl).Quiescent () := by
    intro submission member _
    rw [List.mem_singleton.mp member]
    trivial
  have ran : World.run smallLimits start twoConsumed = some ((World.run smallLimits start twoConsumed).get rfl) := rfl
  exact ⟨_, ran, quiet, rfl, (reservations_balance ran).2.2.2.1 () quiet⟩

/-- Between the two `fetch_sub` of a release the aggregate is behind the executions. -/
theorem aggregate_behind_release :
    ∃ world, World.run smallLimits start twoConsumed.dropLast = some world ∧
      totalOf reserving world.submissions = 0 ∧
      world.shared.global = 3 ∧ ∑ id, world.shared.perExecution id = 5 :=
  ⟨_, rfl, rfl, rfl, rfl⟩

end World

end Seyal.Runtime.Reservations
