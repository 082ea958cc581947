import Mathlib.Algebra.Order.BigOperators.Group.List
import Mathlib.Algebra.Order.Ring.Nat

namespace Seyal.Program

/-! State-passing computations that may panic, and their weakest preconditions. -/

/-- A computation over a state. `none` is a panic; an error keeps the state
that was reached when it was raised. -/
def Run (σ ε α : Type) : Type := σ → Option (Except ε α × σ)

namespace Run

variable {σ τ ε α β : Type}

def pure (value : α) : Run σ ε α := fun state => some (.ok value, state)

def bind (first : Run σ ε α) (next : α → Run σ ε β) : Run σ ε β := fun state =>
  match first state with
  | none => none
  | some (.ok value, after) => next value after
  | some (.error error, after) => some (.error error, after)

instance : Monad (Run σ ε) where
  pure := Run.pure
  bind := Run.bind

instance : MonadStateOf σ (Run σ ε) where
  get := fun state => some (.ok state, state)
  set after := fun _ => some (.ok (), after)
  modifyGet f := fun state => some (.ok (f state).1, (f state).2)

instance : MonadExceptOf ε (Run σ ε) where
  throw error := fun state => some (.error error, state)
  tryCatch body handler := fun state =>
    match body state with
    | some (.error error, after) => handler error after
    | outcome => outcome

/-- An absent value is a panic: an index out of range, a failed `expect`. -/
instance : MonadLift Option (Run σ ε) where
  monadLift value := fun state => value.map fun found => (.ok found, state)

/-- Runs a computation on a part of the state. -/
def zoom (view : σ → τ) (update : σ → τ → σ) (body : Run τ ε α) : Run σ ε α := fun state =>
  match body (view state) with
  | none => none
  | some (outcome, part) => some (outcome, update state part)

/-- `body first, body (first + 1), …`, `count` times. -/
def forRange (body : Nat → Run σ ε Unit) : Nat → Nat → Run σ ε Unit
  | _, 0 => Run.pure ()
  | first, count + 1 => Run.bind (body first) fun _ => forRange body (first + 1) count

def forEach (body : α → Run σ ε Unit) : List α → Run σ ε Unit
  | [] => Run.pure ()
  | head :: rest => Run.bind (body head) fun _ => forEach body rest

/-- The computation does not panic, a normal result meets `post` and an error
meets `fails`. -/
def wp (body : Run σ ε α) (post : α → σ → Prop) (fails : ε → σ → Prop) (state : σ) : Prop :=
  match body state with
  | none => False
  | some (.ok value, after) => post value after
  | some (.error error, after) => fails error after

section Rules

variable {post : α → σ → Prop} {fails : ε → σ → Prop} {state : σ}

@[simp] theorem wp_pure (value : α) :
    wp (Pure.pure value : Run σ ε α) post fails state = post value state := rfl

@[simp] theorem wp_bind (first : Run σ ε β) (next : β → Run σ ε α) :
    wp (first >>= next) post fails state =
      wp first (fun value after => wp (next value) post fails after) fails state := by
  change wp (Run.bind first next) post fails state = _
  unfold wp Run.bind
  rcases first state with _ | ⟨_ | _, _⟩ <;> rfl

@[simp] theorem wp_get {post : σ → σ → Prop} :
    wp (get : Run σ ε σ) post fails state = post state state := rfl

@[simp] theorem wp_set {post : PUnit → σ → Prop} (after : σ) :
    wp (set after : Run σ ε PUnit) post fails state = post () after := rfl

@[simp] theorem wp_modify {post : PUnit → σ → Prop} (update : σ → σ) :
    wp (modify update : Run σ ε PUnit) post fails state = post () (update state) := rfl

@[simp] theorem wp_throw (error : ε) :
    wp (throw error : Run σ ε α) post fails state = fails error state := rfl

@[simp] theorem wp_some (value : α) :
    wp (liftM (some value) : Run σ ε α) post fails state = post value state := rfl

@[simp] theorem wp_none :
    wp (liftM (none : Option α) : Run σ ε α) post fails state = False := rfl

theorem wp_lift {found : α} {value : Option α} (present : value = some found)
    (holds : post found state) : wp (liftM value : Run σ ε α) post fails state := by
  subst present
  exact holds

@[simp] theorem wp_ite {condition : Prop} [Decidable condition] (yes no : Run σ ε α) :
    wp (if condition then yes else no) post fails state =
      if condition then wp yes post fails state else wp no post fails state := by
  split <;> rfl

@[simp] theorem wp_tryCatch (body : Run σ ε α) (handler : ε → Run σ ε α) :
    wp (tryCatch body handler) post fails state =
      wp body post (fun error after => wp (handler error) post fails after) state := by
  change (match (match body state with
    | some (.error error, after) => handler error after
    | outcome => outcome) with
    | none => False
    | some (.ok value, after) => post value after
    | some (.error error, after) => fails error after) = _
  unfold wp
  rcases body state with _ | ⟨_ | _, _⟩ <;> rfl

@[simp] theorem wp_zoom {part : σ → τ} {update : σ → τ → σ} (body : Run τ ε α) :
    wp (zoom part update body) post fails state =
      wp body (fun value after => post value (update state after))
        (fun error after => fails error (update state after)) (part state) := by
  unfold wp zoom
  rcases body (part state) with _ | ⟨_ | _, _⟩ <;> rfl

theorem wp_mono {body : Run σ ε α} {weaker : α → σ → Prop} {weakerFails : ε → σ → Prop}
    (holds : wp body post fails state)
    (normal : ∀ value after, post value after → weaker value after)
    (failing : ∀ error after, fails error after → weakerFails error after) :
    wp body weaker weakerFails state := by
  revert holds
  unfold wp
  rcases body state with _ | ⟨_ | _, _⟩
  · exact id
  · exact failing _ _
  · exact normal _ _

theorem wp_ok {body : Run σ ε α} (holds : wp body post fails state) {value : α} {after : σ}
    (ran : body state = some (.ok value, after)) : post value after := by
  unfold wp at holds
  rwa [ran] at holds

theorem wp_error {body : Run σ ε α} (holds : wp body post fails state) {error : ε} {after : σ}
    (ran : body state = some (.error error, after)) : fails error after := by
  unfold wp at holds
  rwa [ran] at holds

theorem eq_ok_of_wp {body : Run σ ε α} {value : α} {last : σ}
    (holds : wp body (fun found after => found = value ∧ after = last) (fun _ _ => False) state) :
    body state = some (.ok value, last) := by
  unfold wp at holds
  split at holds
  next => exact holds.elim
  next found after ran => rw [ran, holds.1, holds.2]
  next => exact holds.elim

theorem exists_of_wp {body : Run σ ε α} {always : σ → Prop} (holds : wp body (fun _ => always) (fun _ => always) state) :
    ∃ outcome after, body state = some (outcome, after) ∧ always after := by
  unfold wp at holds
  split at holds
  next => exact holds.elim
  next value after ran => exact ⟨_, after, ran, holds⟩
  next error after ran => exact ⟨_, after, ran, holds⟩

theorem isSome_of_wp {body : Run σ ε α} (holds : wp body post fails state) : (body state).isSome = true := by
  unfold wp at holds
  cases ran : body state with
  | none => simp [ran] at holds
  | some => rfl

end Rules

/-- A loop over a range keeps an invariant indexed by the next position. -/
theorem wp_forRange {body : Nat → Run σ ε Unit} {fails : ε → σ → Prop}
    (invariant : Nat → σ → Prop) (first count : Nat) {state : σ}
    (entry : invariant first state)
    (step : ∀ index current, first ≤ index → index < first + count → invariant index current →
      wp (body index) (fun _ => invariant (index + 1)) fails current) :
    wp (forRange body first count) (fun _ => invariant (first + count)) fails state := by
  induction count generalizing first state with
  | zero => exact entry
  | succ count ih =>
      change wp (body first >>= fun _ => forRange body (first + 1) count) _ _ _
      rw [wp_bind]
      refine wp_mono (step first state (Nat.le_refl _) (by omega) entry) ?_ (fun _ _ => id)
      intro _ after holds
      rw [show first + (count + 1) = first + 1 + count by omega]
      exact ih (first + 1) holds fun index current lower upper =>
        step index current (by omega) (by omega)

end Run

end Seyal.Program
