import Mathlib.Algebra.Order.BigOperators.Group.List
import Mathlib.Algebra.Order.Ring.Nat
import Mathlib.Data.List.Sort

namespace Seyal.Agent

/-! Scopes, and the vectors that name every applicable scope once; digests, and how the store fails. -/

inductive StoreError where
  | writeFailed
  | corrupt
  deriving Repr, DecidableEq

abbrev Digest := List UInt8

inductive ScopeKind where
  | userLocal
  | project
  | repository
  | workspace
  | worktree
  | workItem
  | attempt
  deriving Repr, DecidableEq

def ScopeKind.code : ScopeKind → Nat
  | .userLocal => 1
  | .project => 2
  | .repository => 3
  | .workspace => 4
  | .worktree => 5
  | .workItem => 6
  | .attempt => 7

/-- The identifier's sixteen bytes, read as a number from the first on. -/
structure ScopeIdentity where
  kind : ScopeKind
  id : Nat
  deriving Repr, DecidableEq

theorem ScopeKind.code_injective : Function.Injective ScopeKind.code := by
  intro first second same
  cases first <;> cases second <;> first | rfl | cases same

def ScopeIdentity.AtMost (first second : ScopeIdentity) : Prop :=
  first.kind.code < second.kind.code ∨ first.kind.code = second.kind.code ∧ first.id ≤ second.id

instance (first second : ScopeIdentity) : Decidable (first.AtMost second) :=
  inferInstanceAs (Decidable (_ ∨ _))

inductive PolicyError where
  | noResolvableScope
  | duplicateScope
  | malformed
  | unknownDomain
  | scopeNotAuthorized
  | modeForbidden
  | stalePolicyGeneration
  deriving Repr, DecidableEq

section Canonical

variable {α : Type} (scope : α → ScopeIdentity)

/-- Some member, and each scope once, in order. -/
structure Canonical (members : List α) : Prop where
  some : members ≠ []
  ordered : members.Pairwise fun first second =>
    (scope first).AtMost (scope second) ∧ scope first ≠ scope second

instance (first second : α) : Decidable ((fun a b => (scope a).AtMost (scope b)) first second) :=
  inferInstanceAs (Decidable ((scope first).AtMost (scope second)))

def sortByScope (members : List α) : List α :=
  members.insertionSort fun first second => (scope first).AtMost (scope second)

def repeatsScope : List α → Bool
  | first :: second :: rest => scope first = scope second || repeatsScope (second :: rest)
  | _ => false

variable {scope}

theorem ScopeIdentity.AtMost.antisymm {first second : ScopeIdentity} (forward : first.AtMost second)
    (backward : second.AtMost first) : first = second := by
  obtain ⟨firstKind, firstId⟩ := first
  obtain ⟨secondKind, secondId⟩ := second
  unfold AtMost at forward backward
  have kinds : firstKind = secondKind := ScopeKind.code_injective (by simp only at *; omega)
  have ids : firstId = secondId := by
    subst kinds
    simp only at *
    omega
  rw [kinds, ids]

theorem ScopeIdentity.AtMost.trans {first second third : ScopeIdentity} (one : first.AtMost second)
    (two : second.AtMost third) : first.AtMost third := by
  unfold AtMost at *
  omega

instance : Std.Total fun first second : α => (scope first).AtMost (scope second) where
  total first second := by
    unfold ScopeIdentity.AtMost
    omega

instance : IsTrans α fun first second : α => (scope first).AtMost (scope second) where
  trans _ _ _ := ScopeIdentity.AtMost.trans

/-- In a sorted list a scope can only come again as the neighbour of itself. -/
theorem distinct_of_sorted {members : List α}
    (sorted : members.Pairwise fun first second => (scope first).AtMost (scope second))
    (once : repeatsScope scope members = false) :
    members.Pairwise fun first second => (scope first).AtMost (scope second) ∧ scope first ≠ scope second := by
  induction members with
  | nil => exact .nil
  | cons first rest follows =>
      obtain ⟨below, sortedRest⟩ := List.pairwise_cons.mp sorted
      cases rest with
      | nil => simp
      | cons second rest =>
          simp only [repeatsScope, Bool.or_eq_false_iff, decide_eq_false_iff_not] at once
          refine List.pairwise_cons.mpr ⟨?_, follows sortedRest once.2⟩
          intro member present
          refine ⟨below member present, ?_⟩
          intro same
          rcases List.mem_cons.mp present with next | later
          · exact once.1 (same.trans (by rw [next]))
          · have after := (List.pairwise_cons.mp sortedRest).1 member later
            have between := below second List.mem_cons_self
            rw [← same] at after
            exact once.1 (between.antisymm after)

theorem canonical_sorted {members : List α} (some : members ≠ [])
    (once : repeatsScope scope (sortByScope scope members) = false) :
    Canonical scope (sortByScope scope members) where
  some := by
    intro none
    have same := (List.perm_insertionSort (fun a b => (scope a).AtMost (scope b)) members).length_eq
    unfold sortByScope at none
    rw [none] at same
    exact some (List.eq_nil_of_length_eq_zero same.symm)
  ordered := distinct_of_sorted (List.pairwise_insertionSort _ members) once

end Canonical

structure RevocationFenceMember where
  scope : ScopeIdentity
  generation : Nat
  deriving Repr, DecidableEq

structure RevocationFence where
  members : List RevocationFenceMember
  canonical : Canonical RevocationFenceMember.scope members
  deriving DecidableEq

def RevocationFence.new (members : List RevocationFenceMember) : Except PolicyError RevocationFence :=
  if some : members = [] then .error .noResolvableScope
  else if once : repeatsScope RevocationFenceMember.scope (sortByScope RevocationFenceMember.scope members) then
    .error .duplicateScope
  else .ok ⟨_, canonical_sorted some (Bool.eq_false_iff.mpr once)⟩

end Seyal.Agent
