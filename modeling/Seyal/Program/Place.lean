import Seyal.Program.Check

namespace Seyal.Program

/-! The first item of a list that is asked for, changed where it stands. -/

section Changes

variable {α β ε : Type}

/-- `iter_mut().find(found).ok_or(missing)?`, and a change through the reference. -/
def changeFirst (found : α → Bool) (missing : ε) (change : α → Except ε α) : List α → Except ε (List α)
  | [] => .error missing
  | item :: rest =>
      if found item then (· :: rest) <$> change item else (item :: ·) <$> changeFirst found missing change rest

variable {found : α → Bool} {missing : ε} {change : α → Except ε α} {items after : List α}

theorem changeFirst_find (done : changeFirst found missing change items = .ok after)
    (keeps : ∀ item changed, change item = .ok changed → found changed = found item) :
    ∃ item changed, items.find? found = some item ∧ change item = .ok changed ∧ after.find? found = some changed := by
  induction items generalizing after with
  | nil => cases done
  | cons item rest ih =>
      rw [changeFirst] at done
      split at done
      next here =>
        obtain ⟨changed, changes, rfl⟩ := map_eq_ok.mp done
        have still : found changed = true := (keeps item changed changes).trans here
        exact ⟨item, changed, List.find?_cons_of_pos here, changes, List.find?_cons_of_pos still⟩
      next skipped =>
        obtain ⟨behind, goesOn, rfl⟩ := map_eq_ok.mp done
        rw [List.find?_cons_of_neg skipped, List.find?_cons_of_neg skipped]
        exact ih goesOn

theorem changeFirst_map (view : α → β) (done : changeFirst found missing change items = .ok after)
    (keeps : ∀ item changed, change item = .ok changed → view changed = view item) :
    after.map view = items.map view := by
  induction items generalizing after with
  | nil => cases done
  | cons item rest ih =>
      rw [changeFirst] at done
      split at done
      next =>
        obtain ⟨changed, changes, rfl⟩ := map_eq_ok.mp done
        rw [List.map_cons, List.map_cons, keeps item changed changes]
      next =>
        obtain ⟨behind, goesOn, rfl⟩ := map_eq_ok.mp done
        rw [List.map_cons, List.map_cons, ih goesOn]

end Changes

end Seyal.Program
