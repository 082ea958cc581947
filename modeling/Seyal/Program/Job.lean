import Mathlib.Algebra.Order.BigOperators.Group.List
import Mathlib.Algebra.Order.Ring.Nat

namespace Seyal.Program

/-! Jobs that share a state and take turns on it, one locked section at a time,
and what holds however their sections interleave. -/

/-- A job under way: it is done, or it takes the lock next, changes the state
and goes on with what it saw there. -/
inductive Job (σ α : Type) where
  | done (value : α)
  | lock (update : σ → σ) (next : σ → Job σ α)

namespace Job

variable {σ α β : Type}

def bind (continuation : α → Job σ β) : Job σ α → Job σ β
  | .done value => continuation value
  | .lock update next => .lock update fun state => (next state).bind continuation

instance : Monad (Job σ) where
  pure := Job.done
  bind job continuation := job.bind continuation

def locked (body : σ → α × σ) : Job σ α :=
  .lock (fun state => (body state).2) fun state => .done (body state).1

/-- The job alone, from section to section: what it ends with, and where. -/
def finish : Job σ α → σ → α × σ
  | .done value, state => (value, state)
  | .lock update next, state => (next state).finish (update state)

/-- The sections of a whole run of the job, each from any state to the one it makes
of it, and what the job ends with. -/
inductive Ran : Job σ α → List (σ × σ) → α → Prop where
  | done {value : α} : Ran (.done value) [] value
  | lock {update : σ → σ} {next : σ → Job σ α} {state : σ} {sections : List (σ × σ)} {value : α}
      (rest : Ran (next state) sections value) : Ran (.lock update next) ((state, update state) :: sections) value

theorem Ran.of_bind {job : Job σ α} {continuation : α → Job σ β} {sections : List (σ × σ)} {value : β}
    (ran : Ran (job.bind continuation) sections value) :
    ∃ front back found, sections = front ++ back ∧ Ran job front found ∧ Ran (continuation found) back value := by
  induction job generalizing sections with
  | done found => exact ⟨[], sections, found, rfl, .done, ran⟩
  | lock update next follows =>
      cases ran with
      | lock rest =>
          obtain ⟨front, back, found, rfl, ranFirst, ranNext⟩ := follows _ rest
          exact ⟨_ :: front, back, found, rfl, .lock ranFirst, ranNext⟩

section Obeys

variable (allowed : σ → σ → Prop) (sound : σ → Prop)

/-- Every section of the job makes an allowed step, wherever the allowed steps of
others have taken the state since the section before; `known` is what the job
may count on now, `post` what it ends with and may count on then. -/
def Obeys : Job σ α → (σ → Prop) → (α → (σ → Prop) → Prop) → Prop
  | .done value, known, post => post value known
  | .lock update next, known, post =>
      ∀ state, sound state → known state →
        allowed state (update state) ∧
          (next state).Obeys (Relation.ReflTransGen allowed (update state)) post

variable {allowed sound} {known : σ → Prop}

theorem obeys_bind (job : Job σ α) (continuation : α → Job σ β) {post : β → (σ → Prop) → Prop} :
    (job >>= continuation).Obeys allowed sound known post ↔
      job.Obeys allowed sound known fun value then_ => (continuation value).Obeys allowed sound then_ post := by
  change (job.bind continuation).Obeys allowed sound known post ↔ _
  induction job generalizing known with
  | done value => exact Iff.rfl
  | lock update next follows =>
      constructor
      · intro obeys state stateSound holds
        exact ⟨(obeys state stateSound holds).1, (follows state).mp (obeys state stateSound holds).2⟩
      · intro obeys state stateSound holds
        exact ⟨(obeys state stateSound holds).1, (follows state).mpr (obeys state stateSound holds).2⟩

theorem obeys_locked (body : σ → α × σ) {post : α → (σ → Prop) → Prop} :
    (locked body).Obeys allowed sound known post ↔
      ∀ state, sound state → known state →
        allowed state (body state).2 ∧
          post (body state).1 (Relation.ReflTransGen allowed (body state).2) :=
  Iff.rfl

theorem Obeys.mono {job : Job σ α} {post weaker : α → (σ → Prop) → Prop}
    (obeys : job.Obeys allowed sound known post) (implies : ∀ value then_, post value then_ → weaker value then_) :
    job.Obeys allowed sound known weaker := by
  induction job generalizing known with
  | done value => exact implies value known obeys
  | lock update next follows =>
      intro state stateSound holds
      exact ⟨(obeys state stateSound holds).1, follows state (obeys state stateSound holds).2⟩

theorem Obeys.of_known {job : Job σ α} {stronger : σ → Prop} (obeys : job.Obeys allowed sound known fun _ _ => True)
    (implies : ∀ state, stronger state → known state) : job.Obeys allowed sound stronger fun _ _ => True := by
  cases job with
  | done value => trivial
  | lock update next => exact fun state stateSound holds => obeys state stateSound (implies state holds)

end Obeys

end Job

structure Pool (σ α : Type) where
  shared : σ
  jobs : List (Job σ α)

namespace Pool

variable {σ α : Type}

/-- A job begins, takes its turn or is dropped, done or not; or the state changes
from outside. -/
inductive Step (offered : Job σ α → Prop) (outside : σ → σ → Prop) : Pool σ α → Pool σ α → Prop where
  | start {pool : Pool σ α} {job : Job σ α} (fits : offered job) :
      Step offered outside pool { pool with jobs := job :: pool.jobs }
  | turn {pool : Pool σ α} {index : Nat} {update : σ → σ} {next : σ → Job σ α}
      (here : pool.jobs[index]? = some (.lock update next)) :
      Step offered outside pool ⟨update pool.shared, pool.jobs.set index (next pool.shared)⟩
  | drop {pool : Pool σ α} {kept : List (Job σ α)} (fewer : ∀ job ∈ kept, job ∈ pool.jobs) :
      Step offered outside pool { pool with jobs := kept }
  | elsewhere {pool : Pool σ α} {shared : σ} (changes : outside pool.shared shared) :
      Step offered outside pool { pool with shared }

def turnAt (pool : Pool σ α) (index : Nat) : Option (Pool σ α) :=
  match pool.jobs[index]? with
  | some (.lock update next) => some ⟨update pool.shared, pool.jobs.set index (next pool.shared)⟩
  | _ => none

theorem Step.of_turnAt {offered : Job σ α → Prop} {outside : σ → σ → Prop} {pool after : Pool σ α} {index : Nat}
    (turned : pool.turnAt index = some after) : Step offered outside pool after := by
  unfold turnAt at turned
  split at turned
  next update next here =>
      cases turned
      exact .turn here
  next => cases turned

/-- What a run reaches from a state with no job under way. -/
def Reached (offered : Job σ α → Prop) (outside : σ → σ → Prop) (initial : σ) (pool : Pool σ α) : Prop :=
  Relation.ReflTransGen (Step offered outside) ⟨initial, []⟩ pool

section Solo

variable {offered : Job σ α → Prop} {outside : σ → σ → Prop} {initial state : σ}

theorem Reached.finish_of {job : Job σ α} {rest : List (Job σ α)}
    (reached : Reached offered outside initial ⟨state, job :: rest⟩) :
    ∃ last, Reached offered outside initial ⟨(job.finish state).2, last :: rest⟩ := by
  induction job generalizing state with
  | done value => exact ⟨_, reached⟩
  | lock update next follows =>
      have turn : (⟨state, .lock update next :: rest⟩ : Pool σ α).turnAt 0 = some ⟨update state, next state :: rest⟩ :=
        rfl
      exact follows state (reached.tail (.of_turnAt turn))

theorem Reached.finish {job : Job σ α} (reached : Reached offered outside initial ⟨state, []⟩) (fits : offered job) :
    Reached offered outside initial ⟨(job.finish state).2, []⟩ := by
  obtain ⟨last, ended⟩ := Reached.finish_of (reached.tail (.start fits))
  exact ended.tail (.drop fun other member => absurd member List.not_mem_nil)

end Solo

section Obedient

variable {offered : Job σ α → Prop} {outside allowed : σ → σ → Prop} {sound : σ → Prop}

/-- The state is sound and each job under way can count on what it knows. -/
structure Obedient (allowed : σ → σ → Prop) (sound : σ → Prop) (pool : Pool σ α) : Prop where
  state : sound pool.shared
  jobs : ∀ job ∈ pool.jobs, ∃ known : σ → Prop,
    (∀ state after, allowed state after → known state → known after) ∧ known pool.shared ∧
      job.Obeys allowed sound known fun _ _ => True

variable (obeys : ∀ job, offered job → job.Obeys allowed sound (fun _ => True) fun _ _ => True)
  (permitted : ∀ state after, outside state after → allowed state after)
  (preserved : ∀ state after, allowed state after → sound state → sound after)
include obeys permitted preserved

theorem Obedient.step [Std.Refl allowed] {pool after : Pool σ α} (obedient : Obedient allowed sound pool)
    (step : Step offered outside pool after) :
    allowed pool.shared after.shared ∧ Obedient allowed sound after := by
  cases step with
  | start fits =>
      refine ⟨Std.Refl.refl _, obedient.state, ?_⟩
      intro job member
      rcases List.mem_cons.mp member with same | older
      · exact ⟨fun _ => True, fun _ _ _ _ => trivial, trivial, same ▸ obeys _ fits⟩
      · exact obedient.jobs job older
  | turn here =>
      obtain ⟨known, stable, holds, follows⟩ := obedient.jobs _ (List.mem_of_getElem? here)
      obtain ⟨makes, goesOn⟩ := follows pool.shared obedient.state holds
      refine ⟨makes, preserved _ _ makes obedient.state, ?_⟩
      intro job member
      rcases List.mem_or_eq_of_mem_set member with other | same
      · obtain ⟨known, stable, holds, follows⟩ := obedient.jobs job other
        exact ⟨known, stable, stable _ _ makes holds, follows⟩
      · subst same
        exact ⟨_, fun _ _ moves known => known.tail moves, Relation.ReflTransGen.refl, goesOn⟩
  | drop fewer =>
      exact ⟨Std.Refl.refl _, obedient.state, fun job member => obedient.jobs job (fewer job member)⟩
  | elsewhere changes =>
      have makes := permitted _ _ changes
      refine ⟨makes, preserved _ _ makes obedient.state, ?_⟩
      intro job member
      obtain ⟨known, stable, holds, follows⟩ := obedient.jobs job member
      exact ⟨known, stable, stable _ _ makes holds, follows⟩

theorem Reached.obedient [Std.Refl allowed] {initial : σ} (initialSound : sound initial) {pool : Pool σ α}
    (reached : Reached offered outside initial pool) : Obedient allowed sound pool := by
  induction reached with
  | refl => exact ⟨initialSound, fun job member => absurd member (List.not_mem_nil)⟩
  | tail _ step obedient => exact (obedient.step obeys permitted preserved step).2

end Obedient

end Pool

end Seyal.Program
