import Seyal.Program.Run

namespace Seyal.Program

/-! Straight-line checks: a sequence of early returns, and what its success says. -/

variable {ε α β : Type}

/-- `if bad { return Err(error) }`. -/
def refuse (bad : Prop) [Decidable bad] (error : ε) : Except ε Unit :=
  if bad then .error error else .ok ()

/-- `value.ok_or(error)?`. -/
def orRefuse (value : Option α) (error : ε) : Except ε α :=
  match value with
  | some found => .ok found
  | none => .error error

@[simp] theorem bind_eq_ok {first : Except ε α} {next : α → Except ε β} {value : β} :
    (first >>= next) = .ok value ↔ ∃ found, first = .ok found ∧ next found = .ok value := by
  cases first with
  | error error | ok found => simp [bind, Except.bind]

variable {found value : α} {error : ε}

@[simp] theorem pure_eq_ok : (pure found : Except ε α) = .ok value ↔ found = value := by
  simp [pure, Except.pure]

@[simp] theorem map_eq_ok {first : Except ε α} {f : α → β} {value : β} :
    f <$> first = .ok value ↔ ∃ found, first = .ok found ∧ f found = value := by
  cases first with
  | error error | ok found => simp [Functor.map, Except.map]

@[simp] theorem refuse_eq_ok {bad : Prop} [Decidable bad] {done : Unit} :
    refuse bad error = .ok done ↔ ¬ bad := by
  by_cases refused : bad <;> simp [refuse, refused]

theorem refuse_bind_eq_ok {bad : Prop} [Decidable bad] {next : Unit → Except ε α} :
    (refuse bad error >>= next) = .ok value ↔ ¬ bad ∧ next () = .ok value := by
  rw [bind_eq_ok]
  constructor
  · rintro ⟨_, good, rest⟩
    exact ⟨refuse_eq_ok.mp good, rest⟩
  · rintro ⟨good, rest⟩
    exact ⟨(), refuse_eq_ok.mpr good, rest⟩

@[simp] theorem orRefuse_eq_ok {value : Option α} :
    orRefuse value error = .ok found ↔ value = some found := by
  cases value with
  | none | some present => simp [orRefuse]

theorem mapError_eq_ok {δ : Type} {outcome : Except ε α} {f : ε → δ} (good : outcome.mapError f = .ok value) :
    outcome = .ok value := by
  cases outcome with
  | error error => cases good
  | ok found => exact congrArg _ (Except.ok.inj good)

theorem eq_of_mapM_map_eq_ok {encode : α → β} {decode : β → Except ε α} {items found : List α}
    (back : ∀ item value, decode (encode item) = .ok value → value = item)
    (decoded : (items.map encode).mapM decode = .ok found) : found = items := by
  induction items generalizing found with
  | nil => exact (pure_eq_ok.mp decoded).symm
  | cons item items ih =>
      simp only [List.map_cons, List.mapM_cons, bind_eq_ok, pure_eq_ok] at decoded
      obtain ⟨first, here, others, rest, rfl⟩ := decoded
      rw [back item first here, ih rest]

theorem mapM_map_eq_ok {encode : α → β} {decode : β → Except ε α} {items : List α}
    (back : ∀ item ∈ items, decode (encode item) = .ok item) : (items.map encode).mapM decode = .ok items := by
  induction items with
  | nil => rfl
  | cons item items ih =>
      rw [List.map_cons, List.mapM_cons, back item List.mem_cons_self,
        ih (List.forall_mem_cons.mp back).2]
      rfl

theorem ok_bind {next : α → Except ε β} : (Except.ok found >>= next) = next found := rfl

namespace Run

variable {σ τ : Type}

/-- `outcome?` inside a computation over a state. -/
def check (outcome : Except ε α) : Run σ ε α := fun state => some (outcome, state)

theorem wp_check {outcome : Except ε α} {post : α → σ → Prop} {fails : ε → σ → Prop} {state : σ}
    (normal : ∀ value, outcome = .ok value → post value state)
    (failing : ∀ error, outcome = .error error → fails error state) :
    wp (check outcome) post fails state := by
  cases outcome with
  | error error => exact failing error rfl
  | ok value => exact normal value rfl

/-- Runs a computation on a value of its own, which is lost when it fails. -/
def within (start : τ) (body : Run τ ε Unit) : Run σ ε τ := fun state =>
  match body start with
  | none => none
  | some (.ok _, after) => some (.ok after, state)
  | some (.error error, _) => some (.error error, state)

@[simp] theorem wp_within {start : τ} {body : Run τ ε Unit} {post : τ → σ → Prop} {fails : ε → σ → Prop}
    {state : σ} :
    wp (within start body : Run σ ε τ) post fails state =
      wp body (fun _ after => post after state) (fun error _ => fails error state) start := by
  unfold wp within
  rcases body start with _ | ⟨_ | _, _⟩ <;> rfl

/-! Invariants that a computation keeps, however it ends. -/

variable {holds : σ → Prop}

def Keeps (holds : σ → Prop) (body : Run σ ε α) : Prop :=
  ∀ state, holds state → wp body (fun _ => holds) (fun _ => holds) state

namespace Keeps

theorem pure (value : α) : Keeps holds (Pure.pure value : Run σ ε α) := fun _ kept => kept

theorem check (outcome : Except ε α) : Keeps holds (check outcome : Run σ ε α) := fun _ kept =>
  wp_check (fun _ _ => kept) fun _ _ => kept

theorem modify {update : σ → σ} (keeps : ∀ state, holds state → holds (update state)) :
    Keeps holds (modify update : Run σ ε PUnit) := keeps

theorem bind {first : Run σ ε β} {next : β → Run σ ε α} (here : Keeps holds first)
    (later : ∀ value, Keeps holds (next value)) : Keeps holds (first >>= next) := by
  intro state kept
  rw [wp_bind]
  exact wp_mono (here state kept) (fun value after still => later value after still) fun _ _ => id

theorem get {next : σ → Run σ ε α}
    (later : ∀ state, holds state → wp (next state) (fun _ => holds) (fun _ => holds) state) :
    Keeps holds ((MonadState.get : Run σ ε σ) >>= next) := later

theorem forEach {body : α → Run σ ε Unit} {items : List α} (each : ∀ item, Keeps holds (body item)) :
    Keeps holds (forEach body items) := by
  induction items with
  | nil => exact .pure ()
  | cons item rest ih => exact (each item).bind fun _ => ih

end Keeps

end Run

end Seyal.Program
