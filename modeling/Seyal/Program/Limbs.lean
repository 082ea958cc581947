import Mathlib.Algebra.Order.BigOperators.Group.List
import Mathlib.Algebra.Order.Ring.Nat
import Mathlib.Data.Nat.Digits.Defs

namespace Seyal.Program

/-! Natural numbers of any size as limbs below a base, the lowest first, and the school methods on them. -/

namespace Limbs

variable {base : Nat}

/-- `for index in 0..count`: one sum of limbs after the other, with the carry of the last. -/
def addFrom (base : Nat) : Nat → Nat → List Nat → List Nat → List Nat
  | 0, carry, _, _ => if carry = 0 then [] else [carry]
  | count + 1, carry, left, right =>
      let sum := left.headD 0 + right.headD 0 + carry
      sum % base :: addFrom base count (sum / base) left.tail right.tail

def add (base : Nat) (left right : List Nat) : List Nat := addFrom base (max left.length right.length) 0 left right

/-- A limb that is too small borrows from the next. -/
def subFrom (base : Nat) : Nat → List Nat → List Nat → List Nat
  | _, [], _ => []
  | borrow, limb :: left, right =>
      if limb < right.headD 0 + borrow then
        (limb + base - (right.headD 0 + borrow)) :: subFrom base 1 left right.tail
      else (limb - (right.headD 0 + borrow)) :: subFrom base 0 left right.tail

/-- Limbs from the top: `while len > 1 && last == 0`. -/
def dropTop : List Nat → List Nat
  | limb :: next :: rest => if limb = 0 then dropTop (next :: rest) else limb :: next :: rest
  | limbs => limbs

def normalize (limbs : List Nat) : List Nat := (dropTop limbs.reverse).reverse

def sub (base : Nat) (left right : List Nat) : List Nat := normalize (subFrom base 0 left right)

def mulFrom (base factor : Nat) : Nat → List Nat → List Nat
  | carry, [] => if carry = 0 then [] else [carry]
  | carry, limb :: rest =>
      (limb * factor + carry) % base :: mulFrom base factor ((limb * factor + carry) / base) rest

def mulSmall (base : Nat) (limbs : List Nat) (factor : Nat) : List Nat :=
  if factor = 0 ∨ limbs = [0] then [0] else mulFrom base factor 0 limbs

/-- The limbs from the top, the first difference decides. -/
def compareDown : List Nat → List Nat → Ordering
  | [], [] => .eq
  | [], _ :: _ => .lt
  | _ :: _, [] => .gt
  | limb :: left, other :: right => (compare limb other).then (compareDown left right)

def cmp (left right : List Nat) : Ordering :=
  (compare left.length right.length).then (compareDown left.reverse right.reverse)

/-- Limbs below the base, without a zero at the top of several. -/
structure Canonical (base : Nat) (limbs : List Nat) : Prop where
  small : ∀ limb ∈ limbs, limb < base
  some : limbs ≠ []
  top : limbs.length = 1 ∨ base ^ (limbs.length - 1) ≤ Nat.ofDigits base limbs

theorem ofDigits_head_tail (limbs : List Nat) :
    Nat.ofDigits base limbs = limbs.headD 0 + base * Nat.ofDigits base limbs.tail := by
  cases limbs with
  | nil => simp
  | cons limb rest => simp [Nat.ofDigits_cons]

variable {limbs left right : List Nat}

theorem headD_lt (positive : 0 < base) (small : ∀ limb ∈ limbs, limb < base) :
    limbs.headD 0 < base := by
  cases limbs with
  | nil => exact positive
  | cons limb rest => exact small limb List.mem_cons_self

theorem tail_small (small : ∀ limb ∈ limbs, limb < base) : ∀ limb ∈ limbs.tail, limb < base :=
  fun limb inside => small limb (List.mem_of_mem_tail inside)

theorem ofDigits_addFrom {count : Nat} (carry : Nat) (fits : left.length ≤ count) (also : right.length ≤ count) :
    Nat.ofDigits base (addFrom base count carry left right) =
      Nat.ofDigits base left + Nat.ofDigits base right + carry := by
  induction count generalizing left right carry with
  | zero =>
      have empty : left = [] := List.length_eq_zero_iff.mp (Nat.le_zero.mp fits)
      have nothing : right = [] := List.length_eq_zero_iff.mp (Nat.le_zero.mp also)
      rw [empty, nothing, addFrom]
      split <;> simp_all
  | succ count ih =>
      have sum := Nat.mod_add_div (left.headD 0 + right.headD 0 + carry) base
      rw [addFrom, Nat.ofDigits_cons, ih _ (by simp; omega) (by simp; omega), ofDigits_head_tail left,
        ofDigits_head_tail right, Nat.mul_add, Nat.mul_add]
      omega

theorem ofDigits_add (base : Nat) (left right : List Nat) :
    Nat.ofDigits base (add base left right) = Nat.ofDigits base left + Nat.ofDigits base right :=
  ofDigits_addFrom 0 (Nat.le_max_left _ _) (Nat.le_max_right _ _)

theorem length_addFrom (base count carry : Nat) (left right : List Nat) :
    (addFrom base count carry left right).length = count ∨
      (addFrom base count carry left right).length = count + 1 ∧
        base ^ count ≤ Nat.ofDigits base (addFrom base count carry left right) := by
  induction count generalizing left right carry with
  | zero =>
      rw [addFrom]
      split
      · exact .inl rfl
      · exact .inr ⟨rfl, by simp; omega⟩
  | succ count ih =>
      rw [addFrom]
      rcases ih ((left.headD 0 + right.headD 0 + carry) / base) left.tail right.tail with same | ⟨longer, above⟩
      · exact .inl (by rw [List.length_cons, same])
      · refine .inr ⟨by rw [List.length_cons, longer], ?_⟩
        rw [Nat.ofDigits_cons, Nat.pow_succ, Nat.mul_comm]
        exact Nat.le_add_left_of_le (Nat.mul_le_mul_left base above)

theorem addFrom_small (wide : 1 < base) {count carry : Nat} (low : carry ≤ 1) (small : ∀ limb ∈ left, limb < base)
    (also : ∀ limb ∈ right, limb < base) :
    ∀ limb ∈ addFrom base count carry left right, limb < base := by
  induction count generalizing left right carry with
  | zero =>
      rw [addFrom]
      intro limb inside
      split at inside
      · cases inside
      · rw [List.mem_singleton.mp inside]
        omega
  | succ count ih =>
      rw [addFrom]
      intro limb inside
      have first := headD_lt (by omega) small
      have second := headD_lt (by omega) also
      rcases List.mem_cons.mp inside with rfl | later
      · exact Nat.mod_lt _ (by omega)
      · refine ih ?_ (tail_small small) (tail_small also) limb later
        exact Nat.le_of_lt_succ (Nat.div_lt_of_lt_mul (by omega))

theorem canonical_of_length {other : List Nat} (small : ∀ limb ∈ limbs, limb < base)
    (reference : Canonical base other) (above : Nat.ofDigits base other ≤ Nat.ofDigits base limbs)
    (long : limbs.length = other.length ∨
      limbs.length = other.length + 1 ∧ base ^ other.length ≤ Nat.ofDigits base limbs) : Canonical base limbs where
  small := small
  some := by
    have positive := List.length_pos_of_ne_nil reference.some
    exact List.ne_nil_of_length_pos (by omega)
  top := by
    rcases long with same | ⟨longer, top⟩
    · rw [same]
      exact reference.top.imp_right fun top => top.trans above
    · exact .inr (by rwa [longer])

theorem canonical_add (wide : 1 < base) (first : Canonical base left) (second : Canonical base right) :
    Canonical base (add base left right) := by
  have small : ∀ limb ∈ add base left right, limb < base :=
    addFrom_small wide (Nat.zero_le 1) first.small second.small
  have long := length_addFrom base (max left.length right.length) 0 left right
  have sum := ofDigits_add base left right
  rcases Nat.le_total left.length right.length with shorter | longer
  · rw [Nat.max_eq_right shorter] at long
    exact canonical_of_length small second (by omega) (by rwa [add, Nat.max_eq_right shorter])
  · rw [Nat.max_eq_left longer] at long
    exact canonical_of_length small first (by omega) (by rwa [add, Nat.max_eq_left longer])

/-! Multiplication by a number below the base. -/

theorem ofDigits_mulFrom (factor carry : Nat) (limbs : List Nat) :
    Nat.ofDigits base (mulFrom base factor carry limbs) = Nat.ofDigits base limbs * factor + carry := by
  induction limbs generalizing carry with
  | nil =>
      rw [mulFrom]
      split <;> simp_all
  | cons limb rest ih =>
      have sum := Nat.mod_add_div (limb * factor + carry) base
      rw [mulFrom, Nat.ofDigits_cons, ih, Nat.ofDigits_cons, Nat.mul_add, Nat.add_mul, Nat.mul_assoc]
      omega

theorem length_mulFrom (base factor carry : Nat) (limbs : List Nat) :
    (mulFrom base factor carry limbs).length = limbs.length ∨
      (mulFrom base factor carry limbs).length = limbs.length + 1 ∧
        base ^ limbs.length ≤ Nat.ofDigits base (mulFrom base factor carry limbs) := by
  induction limbs generalizing carry with
  | nil =>
      rw [mulFrom]
      split
      · exact .inl rfl
      · exact .inr ⟨rfl, by simp; omega⟩
  | cons limb rest ih =>
      rw [mulFrom]
      rcases ih ((limb * factor + carry) / base) with same | ⟨longer, above⟩
      · exact .inl (by rw [List.length_cons, same, List.length_cons])
      · refine .inr ⟨by rw [List.length_cons, longer, List.length_cons], ?_⟩
        rw [Nat.ofDigits_cons, List.length_cons, Nat.pow_succ, Nat.mul_comm]
        exact Nat.le_add_left_of_le (Nat.mul_le_mul_left base above)

theorem mulFrom_small {factor carry : Nat} (fits : factor ≤ base) (low : carry < factor)
    (small : ∀ limb ∈ limbs, limb < base) : ∀ limb ∈ mulFrom base factor carry limbs, limb < base := by
  induction limbs generalizing carry with
  | nil =>
      rw [mulFrom]
      intro limb inside
      split at inside
      · cases inside
      · rw [List.mem_singleton.mp inside]
        omega
  | cons first rest ih =>
      rw [mulFrom]
      intro limb inside
      rcases List.mem_cons.mp inside with rfl | later
      · exact Nat.mod_lt _ (by omega)
      · refine ih (Nat.div_lt_of_lt_mul ?_) (List.forall_mem_cons.mp small).2 limb later
        have below : (first + 1) * factor ≤ base * factor := Nat.mul_le_mul_right _ (small first List.mem_cons_self)
        rw [Nat.add_mul] at below
        omega

theorem ofDigits_mulSmall (base : Nat) (limbs : List Nat) (factor : Nat) :
    Nat.ofDigits base (mulSmall base limbs factor) = Nat.ofDigits base limbs * factor := by
  rw [mulSmall]
  split
  next trivially =>
    rcases trivially with rfl | rfl <;> simp
  next => rw [ofDigits_mulFrom, Nat.add_zero]

theorem canonical_zero (wide : 1 < base) : Canonical base [0] :=
  ⟨fun limb inside => by rw [List.mem_singleton.mp inside]; omega, List.cons_ne_nil _ _, .inl rfl⟩

theorem canonical_mulSmall (wide : 1 < base) {factor : Nat} (fits : factor ≤ base) (canonical : Canonical base limbs) :
    Canonical base (mulSmall base limbs factor) := by
  have product := ofDigits_mulSmall base limbs factor
  rw [mulSmall] at product ⊢
  split at product
  next trivially =>
    rw [if_pos trivially]
    exact canonical_zero wide
  next positive =>
    rw [if_neg positive]
    have factors : 0 < factor := Nat.pos_of_ne_zero fun zero => positive (.inl zero)
    refine canonical_of_length (mulFrom_small fits factors canonical.small) canonical ?_
      (length_mulFrom base factor 0 limbs)
    rw [product]
    exact Nat.le_mul_of_pos_right _ factors

/-! Subtraction of a number that is not greater. -/

theorem ofDigits_subFrom {borrow : Nat} (low : borrow ≤ 1) (small : ∀ limb ∈ left, limb < base)
    (also : ∀ limb ∈ right, limb < base)
    (below : Nat.ofDigits base right + borrow ≤ Nat.ofDigits base left) :
    Nat.ofDigits base (subFrom base borrow left right) + (Nat.ofDigits base right + borrow) =
      Nat.ofDigits base left := by
  induction left generalizing borrow right with
  | nil =>
      rw [subFrom]
      simp at below ⊢
      omega
  | cons limb left ih =>
      have fits := small limb List.mem_cons_self
      have other := headD_lt (by omega) also
      have rest : ∀ other ∈ left, other < base := (List.forall_mem_cons.mp small).2
      rw [ofDigits_head_tail right, Nat.ofDigits_cons] at below ⊢
      rw [subFrom]
      split
      next short =>
        have less : Nat.ofDigits base right.tail < Nat.ofDigits base left :=
          Nat.lt_of_mul_lt_mul_left (a := base) (by omega)
        have step : Nat.ofDigits base (subFrom base 1 left right.tail) + (Nat.ofDigits base right.tail + 1) =
            Nat.ofDigits base left := ih (Nat.le_refl 1) rest (tail_small also) less
        rw [← step, Nat.ofDigits_cons, Nat.mul_add, Nat.mul_add]
        omega
      next enough =>
        have less : Nat.ofDigits base right.tail ≤ Nat.ofDigits base left := by
          refine Nat.le_of_lt_succ (Nat.lt_of_mul_lt_mul_left (a := base) ?_)
          rw [Nat.mul_succ]
          omega
        have step : Nat.ofDigits base (subFrom base 0 left right.tail) + (Nat.ofDigits base right.tail + 0) =
            Nat.ofDigits base left := ih (Nat.zero_le 1) rest (tail_small also) less
        rw [← step, Nat.ofDigits_cons, Nat.mul_add, Nat.mul_add]
        omega

theorem subFrom_small {borrow : Nat} (low : borrow ≤ 1) (small : ∀ limb ∈ left, limb < base)
    (also : ∀ limb ∈ right, limb < base) :
    (∀ limb ∈ subFrom base borrow left right, limb < base) ∧
      (subFrom base borrow left right).length = left.length := by
  induction left generalizing borrow right with
  | nil => simp [subFrom]
  | cons first left ih =>
      have fits := small first List.mem_cons_self
      have rest : ∀ other ∈ left, other < base := (List.forall_mem_cons.mp small).2
      rw [subFrom]
      split
      next short =>
        obtain ⟨below, long⟩ := ih (Nat.le_refl 1) rest (tail_small also)
        exact ⟨List.forall_mem_cons.mpr ⟨by omega, below⟩, by rw [List.length_cons, long, List.length_cons]⟩
      next enough =>
        obtain ⟨below, long⟩ := ih (Nat.zero_le 1) rest (tail_small also)
        exact ⟨List.forall_mem_cons.mpr ⟨by omega, below⟩, by rw [List.length_cons, long, List.length_cons]⟩

theorem ofDigits_dropTop (limbs : List Nat) :
    Nat.ofDigits base (dropTop limbs).reverse = Nat.ofDigits base limbs.reverse := by
  induction limbs using dropTop.induct with
  | case1 next rest ih => rw [dropTop, if_pos rfl, ih, Nat.ofDigits_reverse_zero_cons]
  | case2 limb next rest kept => rw [dropTop, if_neg kept]
  | case3 limbs few => rw [dropTop.eq_2 limbs few]

theorem dropTop_subset (limbs : List Nat) : ∀ limb ∈ dropTop limbs, limb ∈ limbs := by
  induction limbs using dropTop.induct with
  | case1 next rest ih =>
      rw [dropTop, if_pos rfl]
      exact fun limb inside => List.mem_cons_of_mem _ (ih limb inside)
  | case2 limb next rest kept =>
      rw [dropTop, if_neg kept]
      exact fun _ inside => inside
  | case3 limbs few =>
      rw [dropTop.eq_2 limbs few]
      exact fun _ inside => inside

theorem dropTop_top (some : limbs ≠ []) :
    ∃ limb rest, dropTop limbs = limb :: rest ∧ (rest = [] ∨ limb ≠ 0) := by
  induction limbs using dropTop.induct with
  | case1 next rest ih =>
      rw [dropTop, if_pos rfl]
      exact ih (List.cons_ne_nil _ _)
  | case2 limb next rest kept =>
      rw [dropTop, if_neg kept]
      exact ⟨limb, next :: rest, rfl, .inr kept⟩
  | case3 limbs few =>
      rw [dropTop.eq_2 limbs few]
      cases limbs with
      | nil => exact absurd rfl some
      | cons limb rest =>
          cases rest with
          | nil => exact ⟨limb, [], rfl, .inl rfl⟩
          | cons next rest => exact absurd rfl (few limb next rest)

theorem canonical_normalize (small : ∀ limb ∈ limbs, limb < base) (some : limbs ≠ []) :
    Canonical base (normalize limbs) := by
  obtain ⟨limb, rest, top, high⟩ := dropTop_top (List.reverse_ne_nil_iff.mpr some)
  refine ⟨fun other inside => small other ?_, by simp [normalize, top], ?_⟩
  · exact List.mem_reverse.mp (dropTop_subset _ other (List.mem_reverse.mp inside))
  · rw [normalize, top]
    rcases high with rfl | nonzero
    · exact .inl rfl
    · refine .inr ?_
      rw [Nat.ofDigits_reverse_cons, List.length_reverse, List.length_cons, Nat.add_sub_cancel]
      exact Nat.le_add_left_of_le (Nat.le_mul_of_pos_right _ (Nat.pos_of_ne_zero nonzero))

theorem canonical_sub (first : Canonical base left) (second : Canonical base right) :
    Canonical base (sub base left right) := by
  obtain ⟨small, long⟩ := subFrom_small (Nat.zero_le 1) first.small second.small
  refine canonical_normalize small (List.ne_nil_of_length_pos ?_)
  rw [long]
  exact List.length_pos_of_ne_nil first.some

theorem ofDigits_sub (first : Canonical base left) (second : Canonical base right)
    (below : Nat.ofDigits base right ≤ Nat.ofDigits base left) :
    Nat.ofDigits base (sub base left right) = Nat.ofDigits base left - Nat.ofDigits base right := by
  have sum := ofDigits_subFrom (Nat.zero_le 1) first.small second.small below
  rw [sub, normalize, ofDigits_dropTop, List.reverse_reverse]
  omega

theorem compareDown_eq (wide : 1 < base) (same : left.length = right.length) (small : ∀ limb ∈ left, limb < base)
    (also : ∀ limb ∈ right, limb < base) :
    compareDown left right = compare (Nat.ofDigits base left.reverse) (Nat.ofDigits base right.reverse) := by
  induction left generalizing right with
  | nil =>
      cases right with
      | nil => simp [compareDown]
      | cons limb rest => cases same
  | cons limb left ih =>
      cases right with
      | nil => cases same
      | cons other right =>
          have long : left.length = right.length := Nat.succ.inj same
          have low := Nat.ofDigits_lt_base_pow_length wide fun digit inside =>
            small digit (List.mem_cons_of_mem _ (List.mem_reverse.mp inside))
          have less := Nat.ofDigits_lt_base_pow_length wide fun digit inside =>
            also digit (List.mem_cons_of_mem _ (List.mem_reverse.mp inside))
          rw [compareDown, ih long (List.forall_mem_cons.mp small).2 (List.forall_mem_cons.mp also).2,
            Nat.ofDigits_reverse_cons, Nat.ofDigits_reverse_cons, ← long]
          rw [List.length_reverse] at low less
          rw [← long] at less
          rcases Nat.lt_trichotomy limb other with lower | rfl | higher
          · have apart := Nat.mul_le_mul_left (base ^ left.length) (Nat.succ_le_of_lt lower)
            have below : Nat.ofDigits base left.reverse + base ^ left.length * limb <
                Nat.ofDigits base right.reverse + base ^ left.length * other := by
              rw [Nat.mul_succ] at apart
              omega
            rw [Nat.compare_eq_lt.mpr lower, Nat.compare_eq_lt.mpr below]
            rfl
          · rw [Nat.compare_eq_eq.mpr rfl, Nat.compare_eq_ite_lt, Nat.compare_eq_ite_lt]
            simp only [Nat.add_lt_add_iff_right, Ordering.then]
          · have apart := Nat.mul_le_mul_left (base ^ left.length) (Nat.succ_le_of_lt higher)
            have above : Nat.ofDigits base right.reverse + base ^ left.length * other <
                Nat.ofDigits base left.reverse + base ^ left.length * limb := by
              rw [Nat.mul_succ] at apart
              omega
            rw [Nat.compare_eq_gt.mpr higher, Nat.compare_eq_gt.mpr above]
            rfl

theorem ofDigits_lt_of_length (wide : 1 < base) (first : Canonical base left) (second : Canonical base right)
    (shorter : left.length < right.length) :
    Nat.ofDigits base left < Nat.ofDigits base right := by
  have positive := List.length_pos_of_ne_nil first.some
  have high : base ^ (right.length - 1) ≤ Nat.ofDigits base right := second.top.resolve_left (by omega)
  calc Nat.ofDigits base left < base ^ left.length := Nat.ofDigits_lt_base_pow_length wide first.small
    _ ≤ base ^ (right.length - 1) := Nat.pow_le_pow_right (by omega) (by omega)
    _ ≤ Nat.ofDigits base right := high

theorem cmp_eq (wide : 1 < base) (first : Canonical base left) (second : Canonical base right) :
    cmp left right = compare (Nat.ofDigits base left) (Nat.ofDigits base right) := by
  rw [cmp]
  rcases Nat.lt_trichotomy left.length right.length with shorter | same | longer
  · rw [Nat.compare_eq_lt.mpr shorter, Nat.compare_eq_lt.mpr (ofDigits_lt_of_length wide first second shorter)]
    rfl
  · have down := compareDown_eq wide (by simpa using same)
      (fun limb inside => first.small limb (List.mem_reverse.mp inside))
      fun limb inside => second.small limb (List.mem_reverse.mp inside)
    rw [Nat.compare_eq_eq.mpr same, down, List.reverse_reverse, List.reverse_reverse]
    rfl
  · rw [Nat.compare_eq_gt.mpr longer, Nat.compare_eq_gt.mpr (ofDigits_lt_of_length wide second first longer)]
    rfl

end Limbs

end Seyal.Program
