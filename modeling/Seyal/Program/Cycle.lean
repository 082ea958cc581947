import Mathlib.Algebra.Order.BigOperators.Group.List
import Mathlib.Algebra.Order.Ring.Nat

namespace Seyal.Program

/-! A loop that uses up a count block by block and leaves out whole cycles. A
table keeps, for each position, how much was left when it was met. -/

/-- The loop returns within so many steps. -/
def LoopEnds {σ ρ : Type} (step : σ → Except ρ σ) : Nat → σ → ρ → Prop
  | 0, _, _ => False
  | fuel + 1, state, result =>
      match step state with
      | .error returned => returned = result
      | .ok next => LoopEnds step fuel next result

structure Walk where
  position : Nat
  remaining : Nat
  seen : List (Option Nat)

/-- `advance` moves on by a block, or by the part of one that is left. -/
structure SkipLoop where
  limit : Nat
  block : Nat
  advance : Nat → Nat → Nat
  /-- It returns at once when a skip leaves nothing. -/
  stops : Bool

namespace SkipLoop

variable (loop : SkipLoop)

def fresh : List (Option Nat) := List.replicate (loop.limit + 1) none

def met (walk : Walk) : Option Nat := if walk.position ≤ loop.limit then walk.seen[walk.position]?.join else none

def move (walk : Walk) (seen : List (Option Nat)) : Walk where
  position := loop.advance walk.position (min walk.remaining loop.block)
  remaining := walk.remaining - min walk.remaining loop.block
  seen

def step (walk : Walk) : Except Nat Walk :=
  if walk.remaining = 0 then .error (min walk.position loop.limit)
  else
    match loop.met walk with
    | some left =>
        if left - walk.remaining > 0 then
          if loop.stops ∧ walk.remaining % (left - walk.remaining) = 0 then .error (min walk.position loop.limit)
          else .ok ⟨walk.position, walk.remaining % (left - walk.remaining), loop.fresh⟩
        else .ok (loop.move walk walk.seen)
    | none =>
        .ok (loop.move walk
          (if walk.position ≤ loop.limit then walk.seen.set walk.position (some walk.remaining) else walk.seen))

def run : Nat → Walk → Nat
  | 0, walk => min walk.position loop.limit
  | fuel + 1, walk =>
      match loop.step walk with
      | .error result => result
      | .ok next => run fuel next

def whole (position : Nat) : Nat := loop.advance position loop.block

/-- The position behind a count: whole blocks, then the part that is left. -/
def result (position count : Nat) : Nat :=
  if count % loop.block = 0 then loop.whole^[count / loop.block] position
  else loop.advance (loop.whole^[count / loop.block] position) (count % loop.block)

variable {loop} {walk : Walk} {position count : Nat}

theorem run_of_ends {fuel : Nat} {result : Nat} (ends : LoopEnds loop.step fuel walk result) :
    loop.run fuel walk = result := by
  induction fuel generalizing walk with
  | zero => exact ends.elim
  | succ fuel ih =>
      rw [LoopEnds] at ends
      rw [run]
      split at ends
      next found => rw [found]; exact ends
      next found => rw [found]; exact ih ends

theorem result_zero (position : Nat) : loop.result position 0 = position := by
  rw [result, Nat.zero_mod, if_pos rfl, Nat.zero_div]
  rfl

theorem result_move (positive : 0 < loop.block) (some : 0 < count) (position : Nat) :
    loop.result position count =
      loop.result (loop.advance position (min count loop.block)) (count - min count loop.block) := by
  by_cases enough : loop.block ≤ count
  · obtain ⟨rest, rfl⟩ := Nat.exists_eq_add_of_le' enough
    rw [Nat.min_eq_right enough, Nat.add_sub_cancel, result, Nat.add_mod_right, Nat.add_div_right _ positive,
      Function.iterate_succ_apply]
    rfl
  · have short : count < loop.block := Nat.lt_of_not_le enough
    rw [Nat.min_eq_left (Nat.le_of_lt short), Nat.sub_self, result_zero, result, Nat.mod_eq_of_lt short, if_neg (by omega),
      Nat.div_eq_of_lt short]
    rfl

theorem result_cycle (positive : 0 < loop.block) {blocks : Nat} (cycle : loop.whole^[blocks] position = position)
    (count : Nat) : loop.result position count = loop.result position (count % (blocks * loop.block)) := by
  have split : count = count % (blocks * loop.block) + (count / (blocks * loop.block) * blocks) * loop.block := by
    rw [Nat.mul_assoc, Nat.mul_comm (count / _)]
    exact (Nat.mod_add_div _ _).symm
  have around : loop.whole^[count / (blocks * loop.block) * blocks] position = position := by
    rw [Nat.mul_comm, Function.iterate_mul]
    exact Function.iterate_fixed cycle _
  generalize count % (blocks * loop.block) = rest at split ⊢
  generalize count / (blocks * loop.block) * blocks = times at split around
  rw [split, result, result, Nat.add_mul_mod_self_right, Nat.add_mul_div_right _ _ positive,
    Function.iterate_add_apply, around]

/-- What the table says: from a position that was met, whole blocks lead here. -/
def Recorded (loop : SkipLoop) (walk : Walk) : Prop :=
  ∀ position left : Nat, walk.seen[position]?.join = some left →
    ∃ blocks, left = walk.remaining + blocks * loop.block ∧ loop.whole^[blocks] position = walk.position

def Clear (seen : List (Option Nat)) : Prop := ∀ position : Nat, seen[position]?.join = none

theorem fresh_clear : Clear loop.fresh := by
  intro position
  rw [fresh, List.getElem?_replicate]
  split <;> rfl

theorem Recorded.of_clear (clear : Clear walk.seen) : Recorded loop walk := by
  intro position left found
  rw [clear position] at found
  cases found

theorem Recorded.move (recorded : Recorded loop walk) (whole : loop.block ≤ walk.remaining) :
    Recorded loop (loop.move walk walk.seen) := by
  intro position left found
  obtain ⟨blocks, rfl, reached⟩ := recorded position left found
  refine ⟨blocks + 1, ?_, ?_⟩
  · simp only [SkipLoop.move, Nat.min_eq_right whole, Nat.succ_mul]
    omega
  · rw [Function.iterate_succ_apply', reached]
    simp only [SkipLoop.move, Nat.min_eq_right whole]
    rfl

theorem Recorded.set (recorded : Recorded loop walk) :
    Recorded loop { walk with seen := walk.seen.set walk.position (some walk.remaining) } := by
  intro position left found
  by_cases here : position = walk.position
  · subst here
    by_cases inside : walk.position < walk.seen.length
    · rw [List.getElem?_set_self inside] at found
      exact ⟨0, by rw [Nat.zero_mul]; exact (Option.some.inj found).symm, rfl⟩
    · rw [List.getElem?_eq_none (by simpa using inside)] at found
      cases found
  · rw [List.getElem?_set_ne (Ne.symm here)] at found
    exact recorded position left found

theorem seen_of_met {left : Nat} (found : loop.met walk = some left) : walk.seen[walk.position]?.join = some left := by
  unfold met at found
  split at found
  · exact found
  · cases found

theorem step_done (none : walk.remaining = 0) : loop.step walk = .error (min walk.position loop.limit) := by
  rw [step, if_pos none]

theorem step_new (some : walk.remaining ≠ 0) (inside : walk.position ≤ loop.limit) (unmet : loop.met walk = none) :
    loop.step walk = .ok (loop.move walk (walk.seen.set walk.position (Option.some walk.remaining))) := by
  rw [step, if_neg some, unmet]
  dsimp only
  rw [if_pos inside]

theorem step_met (some : walk.remaining ≠ 0) {left : Nat} (found : loop.met walk = Option.some left)
    (fewer : walk.remaining < left) :
    loop.step walk =
      if loop.stops ∧ walk.remaining % (left - walk.remaining) = 0 then .error (min walk.position loop.limit)
      else .ok ⟨walk.position, walk.remaining % (left - walk.remaining), loop.fresh⟩ := by
  rw [step, if_neg some, found]
  dsimp only
  rw [if_pos (by omega)]

theorem step_same (some : walk.remaining ≠ 0) {left : Nat} (found : loop.met walk = Option.some left)
    (same : left ≤ walk.remaining) : loop.step walk = .ok (loop.move walk walk.seen) := by
  rw [step, if_neg some, found]
  dsimp only
  rw [if_neg (by omega)]

theorem ends_of_step {fuel result : Nat} {next : Walk} (stepped : loop.step walk = .ok next)
    (ends : LoopEnds loop.step fuel next result) : LoopEnds loop.step (fuel + 1) walk result := by
  rw [LoopEnds, stepped]
  exact ends

theorem ends_of_return {fuel result : Nat} (stepped : loop.step walk = .error result) :
    LoopEnds loop.step (fuel + 1) walk result := by
  rw [LoopEnds, stepped]

/-- The loop returns, and returns what the plain walk does. Each step uses up
some of the count or empties a table that was not empty. -/
theorem ends (positive : 0 < loop.block)
    (bound : ∀ position take, position ≤ loop.limit → 0 < take → loop.advance position take ≤ loop.limit)
    (fuel : Nat) (walk : Walk) (inside : walk.position ≤ loop.limit)
    (recorded : 0 < walk.remaining → Recorded loop walk)
    (enough : 2 * walk.remaining + 1 < fuel ∨ Clear walk.seen ∧ 2 * walk.remaining < fuel) :
    LoopEnds loop.step fuel walk (loop.result walk.position walk.remaining) := by
  induction fuel generalizing walk with
  | zero => omega
  | succ fuel ih =>
      by_cases none : walk.remaining = 0
      · rw [none, result_zero, ← Nat.min_eq_left inside]
        exact ends_of_return (step_done none)
      have some := Nat.pos_of_ne_zero none
      -- One block, or the part that is left, whatever the table becomes.
      have moves (seen : List (Option Nat)) (kept : Recorded loop { walk with seen })
          (room : 2 * walk.remaining < fuel + 1) :
          LoopEnds loop.step fuel (loop.move walk seen) (loop.result walk.position walk.remaining) := by
        rw [result_move positive some]
        refine ih (loop.move walk seen) (bound _ _ inside (by omega)) ?_ (.inl ?_)
        · intro still
          have whole : loop.block ≤ walk.remaining := by
            simp only [SkipLoop.move] at still
            omega
          exact kept.move whole
        · simp only [SkipLoop.move]
          omega
      cases found : loop.met walk with
      | none => exact ends_of_step (step_new none inside found) (moves _ (recorded some).set (by omega))
      | some left =>
          have seen := seen_of_met found
          have unclear : ¬ Clear walk.seen := by
            intro clear
            rw [clear] at seen
            cases seen
          obtain ⟨blocks, rfl, cycle⟩ := recorded some walk.position left seen
          have room : 2 * walk.remaining + 1 < fuel + 1 := by
            rcases enough with room | ⟨clear, _⟩
            · exact room
            · exact absurd clear unclear
          by_cases fewer : 0 < blocks * loop.block
          · have stepped := step_met none found (by omega)
            rw [Nat.add_sub_cancel_left] at stepped
            rw [result_cycle positive cycle]
            split at stepped
            next stop =>
                rw [stop.2, result_zero, ← Nat.min_eq_left inside]
                exact ends_of_return stepped
            next =>
                have less : walk.remaining % (blocks * loop.block) ≤ walk.remaining := Nat.mod_le _ _
                exact ends_of_step stepped (ih _ inside (fun _ => .of_clear fresh_clear)
                  (.inr ⟨fresh_clear, by dsimp only; omega⟩))
          · exact ends_of_step (step_same none found (by omega)) (moves _ (recorded some) (by omega))

end SkipLoop

end Seyal.Program
