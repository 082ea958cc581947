import Mathlib.Algebra.Order.BigOperators.Group.List
import Mathlib.Algebra.Order.Ring.Nat
import Mathlib.Data.List.Induction

namespace Seyal.Program

/-! Labelled paths of a step relation. -/

variable {σ ε : Type}

inductive Path (step : σ → ε → σ → Prop) : σ → List ε → σ → Prop where
  | nil {state : σ} : Path step state [] state
  | cons {first second last : σ} {event : ε} {events : List ε} (steps : step first event second)
      (rest : Path step second events last) : Path step first (event :: events) last

namespace Path

variable {step : σ → ε → σ → Prop} {first last : σ} {events : List ε}

theorem snoc {next : σ} {event : ε} (path : Path step first events last) (steps : step last event next) :
    Path step first (events ++ [event]) next := by
  induction path with
  | nil => exact .cons steps .nil
  | cons here _ follows => exact .cons here (follows steps)

theorem append {middle : σ} {more : List ε} (path : Path step first events middle) (rest : Path step middle more last) :
    Path step first (events ++ more) last := by
  induction path with
  | nil => exact rest
  | cons steps _ follows => exact .cons steps (follows rest)

theorem mono {weaker : σ → ε → σ → Prop} (path : Path step first events last)
    (implied : ∀ state event after, step state event after → weaker state event after) :
    Path weaker first events last := by
  induction path with
  | nil => exact .nil
  | cons steps _ follows => exact .cons (implied _ _ _ steps) follows

theorem split {before after : List ε} (path : Path step first (before ++ after) last) :
    ∃ middle, Path step first before middle ∧ Path step middle after last := by
  induction before generalizing first with
  | nil => exact ⟨first, .nil, path⟩
  | cons event before follows =>
      cases path with
      | cons steps rest =>
          obtain ⟨middle, front, back⟩ := follows rest
          exact ⟨middle, .cons steps front, back⟩

/-- What the steps of a path preserve holds at its end and in front of each event. -/
theorem invariant {inv : σ → Prop} (path : Path step first events last) (initial : inv first)
    (preserved : ∀ state event after, event ∈ events → step state event after → inv state → inv after) :
    inv last ∧ ∀ event ∈ events, ∃ state after, step state event after ∧ inv state := by
  induction path with
  | nil => exact ⟨initial, fun event member => absurd member List.not_mem_nil⟩
  | cons steps rest follows =>
      have next := preserved _ _ _ List.mem_cons_self steps initial
      obtain ⟨final, each⟩ := follows next fun state event after member =>
        preserved state event after (List.mem_cons_of_mem _ member)
      refine ⟨final, fun event member => ?_⟩
      rcases List.mem_cons.mp member with here | later
      · exact ⟨_, _, here ▸ steps, initial⟩
      · exact each event later

end Path

/-! Histories, with what each event says of the events in front of it. -/

def Justified (allows : List ε → ε → Prop) (history : List ε) : Prop :=
  ∀ before event after, history = before ++ event :: after → allows before event

section Histories

variable {allows : List ε → ε → Prop} {history : List ε} {event : ε}

theorem justified_nil : Justified allows ([] : List ε) := by
  intro before event after same
  simp at same

theorem Justified.snoc (justified : Justified allows history) (allowed : allows history event) :
    Justified allows (history ++ [event]) := by
  intro before found after same
  rcases List.eq_nil_or_concat after with rfl | ⟨front, last, rfl⟩
  · obtain ⟨rfl, equal⟩ := List.append_inj' same rfl
    cases equal
    exact allowed
  · rw [List.concat_eq_append, ← List.cons_append, ← List.append_assoc] at same
    exact justified before found front (List.append_inj' same rfl).1

theorem Justified.of_append {more : List ε} (justified : Justified allows (history ++ more)) :
    Justified allows history := by
  intro before event after same
  exact justified before event (after ++ more) (by rw [same, List.append_assoc, List.cons_append])

/-- An event that rules out its like in front of it happens once. -/
theorem Justified.countP_le_one {like : ε → Bool} (justified : Justified allows history)
    (once : ∀ before event, allows before event → like event = true → ∀ other ∈ before, ¬ like other = true) :
    history.countP like ≤ 1 := by
  induction history using List.reverseRecOn with
  | nil => simp
  | append_singleton history event ih =>
      have earlier := ih justified.of_append
      rw [List.countP_append, List.countP_singleton]
      split
      next here =>
        have none := List.countP_eq_zero.mpr (once history event (justified history event [] rfl) here)
        omega
      next => exact earlier

end Histories

end Seyal.Program
