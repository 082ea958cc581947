import Mathlib.Tactic.Ring
import Seyal.Agent.Routing.Score

namespace Seyal.Agent.Routing

open Program

/-! The blend of what was observed with what was known before, in fixed point. -/

variable {left right confidence observed prior : Int} {evidence : FactorEvidence}

def Share (value : Int) : Prop := 0 ≤ value ∧ value ≤ scoreOne

instance (value : Int) : Decidable (Share value) := inferInstanceAs (Decidable (_ ∧ _))

theorem scaled_of_share (share : Share left) (other : Share right) : scaled left right = left * right / scoreOne := by
  have nonneg := mul_nonneg share.1 other.1
  have product : left * right ≤ scoreOne * scoreOne := mul_le_mul share.2 other.2 other.1 (by decide)
  have square : scoreOne * scoreOne ≤ 2 ^ 63 - 1 := by decide
  rw [scaled, saturate64_of_abs_le (by omega) (by omega), Int.tdiv_eq_ediv_of_nonneg nonneg]

theorem share_scaled (share : Share left) (other : Share right) : Share (scaled left right) := by
  have product : left * right ≤ left * scoreOne := mul_le_mul_of_nonneg_left other.2 share.1
  rw [scaled_of_share share other]
  constructor
  · exact Int.ediv_nonneg (mul_nonneg share.1 other.1) (by decide)
  · calc left * right / scoreOne ≤ left * scoreOne / scoreOne := Int.ediv_le_ediv (by decide) product
      _ = left := Int.mul_ediv_cancel _ (by decide)
      _ ≤ scoreOne := share.2

namespace FactorEvidence

/-- What the evidence says lies between nothing and all. -/
structure InRange (evidence : FactorEvidence) : Prop where
  observed : Share evidence.observed.orMid
  prior : Share evidence.prior.orMid
  cohortSimilarity : Share evidence.cohortSimilarity
  evidenceFreshness : Share evidence.evidenceFreshness
  provenanceQuality : Share evidence.provenanceQuality

/-- A step of the sample share leaves its word. -/
def Overflows (evidence : FactorEvidence) : Prop :=
  let total := evidence.sampleCount.toNat + max evidence.sampleConfidenceK.toNat 1
  evidence.compatibleWithOfferingGeneration = true ∧
    (wrap64 (wrap64 evidence.sampleCount.toNat * scoreOne) ≠ evidence.sampleCount.toNat * scoreOne ∨
      wrap64 (total % 2 ^ 64 : Nat) ≠ total)

/-- The counts of evidence that is looked at: the scaled one and the sum fit into a signed word. -/
def Countable (evidence : FactorEvidence) : Prop :=
  evidence.compatibleWithOfferingGeneration = true → evidence.sampleCount.toNat * 1000000 < 2 ^ 63 ∧
    evidence.sampleCount.toNat + max evidence.sampleConfidenceK.toNat 1 < 2 ^ 63

/-- The confidence in unbounded numbers. -/
def plainConfidence (evidence : FactorEvidence) : Int :=
  let n : Int := evidence.sampleCount.toNat
  let k := max evidence.sampleConfidenceK.toNat 1
  if evidence.compatibleWithOfferingGeneration then
    n * scoreOne / (n + k) * evidence.cohortSimilarity / scoreOne * evidence.evidenceFreshness / scoreOne *
      evidence.provenanceQuality / scoreOne
  else 0

/-- What the term of the lesser value loses is made up for by what the other value is above it. -/
def Lossless (evidence : FactorEvidence) : Prop :=
  let confidence := evidence.plainConfidence
  let observed := evidence.observed.orMid
  let prior := evidence.prior.orMid
  if observed ≤ prior then confidence * observed % scoreOne ≤ (scoreOne - confidence) * (prior - observed)
  else (scoreOne - confidence) * prior % scoreOne ≤ confidence * (observed - prior)

instance (evidence : FactorEvidence) : Decidable evidence.Countable := inferInstanceAs (Decidable (_ → _))

instance (evidence : FactorEvidence) : Decidable evidence.Lossless := inferInstanceAs (Decidable (ite _ _ _))

theorem wrap64_lt (value : Int) : wrap64 value < 2 ^ 63 := Int.bmod_lt (by decide)

theorem countable_iff : evidence.Countable ↔ ¬ evidence.Overflows := by
  have one : scoreOne = 1000000 := rfl
  simp only [Overflows, Countable, one, not_and, not_or, not_ne_iff]
  generalize max evidence.sampleConfidenceK.toNat 1 = k
  generalize evidence.sampleCount.toNat = n
  refine forall_congr' fun _ => ⟨fun ⟨fits, total⟩ => ?_, fun ⟨fits, total⟩ => ?_⟩
  · have count : wrap64 n = n := wrap64_of_nonneg (by omega) (by omega)
    rw [count, Nat.mod_eq_of_lt (by omega)]
    exact ⟨wrap64_of_nonneg (by omega) (by omega), wrap64_of_nonneg (by omega) (by omega)⟩
  · have product := wrap64_lt (wrap64 n * 1000000)
    have sum := wrap64_lt ((n + k) % 2 ^ 64 : Nat)
    omega

theorem sampleMicros_share (fits : evidence.sampleCount.toNat * 1000000 < 2 ^ 63)
    (total : evidence.sampleCount.toNat + max evidence.sampleConfidenceK.toNat 1 < 2 ^ 63) :
    evidence.sampleMicros = some (evidence.sampleCount.toNat * scoreOne /
        (evidence.sampleCount.toNat + (max evidence.sampleConfidenceK.toNat 1 : Nat) : Int)) ∧
      Share (evidence.sampleCount.toNat * scoreOne /
        (evidence.sampleCount.toNat + (max evidence.sampleConfidenceK.toNat 1 : Nat) : Int)) := by
  have positive : 0 < max evidence.sampleConfidenceK.toNat 1 := by omega
  have one : scoreOne = 1000000 := rfl
  simp only [sampleMicros, one]
  generalize max evidence.sampleConfidenceK.toNat 1 = k at positive total ⊢
  generalize evidence.sampleCount.toNat = n at fits total ⊢
  have count : wrap64 n = n := wrap64_of_nonneg (by omega) (by omega)
  rw [count, Nat.mod_eq_of_lt (by omega), wrap64_of_nonneg (by omega) (by omega),
    wrap64_of_nonneg (by omega) (by omega), divide64_of_pos (by omega) (by omega)]
  refine ⟨by push_cast; rfl, Int.ediv_nonneg (by omega) (by omega), ?_⟩
  apply Int.ediv_le_of_le_mul (by omega)
  rw [one]
  omega

theorem confidenceMicros_share (inRange : evidence.InRange) (countable : evidence.Countable) :
    evidence.confidenceMicros = some evidence.plainConfidence ∧ Share evidence.plainConfidence := by
  rw [confidenceMicros, plainConfidence]
  split
  next compatible =>
    obtain ⟨fits, total⟩ := countable compatible
    obtain ⟨found, share⟩ := sampleMicros_share fits total
    have first := share_scaled share inRange.cohortSimilarity
    have second := share_scaled first inRange.evidenceFreshness
    have third := share_scaled second inRange.provenanceQuality
    rw [found, Option.map_some, scaled_of_share second inRange.provenanceQuality,
      scaled_of_share first inRange.evidenceFreshness, scaled_of_share share inRange.cohortSimilarity]
    rw [scaled_of_share second inRange.provenanceQuality, scaled_of_share first inRange.evidenceFreshness,
      scaled_of_share share inRange.cohortSimilarity] at third
    exact ⟨rfl, third⟩
  next => exact ⟨rfl, by decide, by decide⟩

end FactorEvidence

theorem share_rest (share : Share confidence) : Share (scoreOne - confidence) := by
  obtain ⟨low, high⟩ := share
  exact ⟨by omega, by omega⟩

theorem blend_le (share : Share confidence) (observed prior : Int) :
    confidence * observed + (scoreOne - confidence) * prior ≤ scoreOne * max observed prior := by
  calc confidence * observed + (scoreOne - confidence) * prior
      ≤ confidence * max observed prior + (scoreOne - confidence) * max observed prior :=
        add_le_add (mul_le_mul_of_nonneg_left (le_max_left _ _) share.1)
          (mul_le_mul_of_nonneg_left (le_max_right _ _) (share_rest share).1)
    _ = scoreOne * max observed prior := by rw [← add_mul, add_sub_cancel]

namespace FactorEvidence

theorem adjustedMicros_between (inRange : evidence.InRange) (countable : evidence.Countable) :
    ∃ adjusted, evidence.adjustedMicros = some adjusted ∧
      adjusted ≤ max evidence.observed.orMid evidence.prior.orMid ∧
      (min evidence.observed.orMid evidence.prior.orMid ≤ adjusted ↔ evidence.Lossless) := by
  obtain ⟨found, share⟩ := confidenceMicros_share inRange countable
  have rest := share_rest share
  have upper := blend_le share evidence.observed.orMid evidence.prior.orMid
  have one : scoreOne = 1000000 := rfl
  refine ⟨_, by rw [adjustedMicros, found]; rfl, ?_⟩
  dsimp only
  rw [scaled_of_share share inRange.observed, scaled_of_share rest inRange.prior, Lossless]
  generalize evidence.plainConfidence = confidence at share rest upper ⊢
  generalize evidence.observed.orMid = observed at upper ⊢
  generalize evidence.prior.orMid = prior at upper ⊢
  -- Both terms together are the lesser value and the other one's part of what lies between.
  have split : confidence * observed + (scoreOne - confidence) * prior =
      scoreOne * observed + (scoreOne - confidence) * (prior - observed) := by ring
  have splitToo : confidence * observed + (scoreOne - confidence) * prior =
      scoreOne * prior + confidence * (observed - prior) := by ring
  refine ⟨?_, ?_⟩
  · rw [one] at upper ⊢
    omega
  · split
    next less =>
        have more := mul_nonneg rest.1 (sub_nonneg.mpr less)
        rw [min_eq_left less]
        rw [one] at split more ⊢
        omega
    next less =>
        have more := mul_nonneg share.1 (sub_nonneg.mpr (le_of_not_ge less))
        rw [min_eq_right (le_of_not_ge less)]
        rw [one] at splitToo ⊢
        omega

theorem passesFloor_iff {adjusted floor observed : Int} (reason : String) (allowUnknown : Bool)
    (found : evidence.adjustedMicros = some adjusted) (known : evidence.observed = .known observed)
    (compatible : evidence.compatibleWithOfferingGeneration = true) :
    passesFloor evidence allowUnknown reason (some floor) = some (.ok ()) ↔ floor ≤ adjusted := by
  have value : floorValue evidence allowUnknown = some (some adjusted) := by
    simp [floorValue, compatible, found, known]
  simp only [passesFloor, value, liftM_some, pure_bind, Option.any_some, refuse]
  by_cases meets : floor ≤ adjusted
  · simp only [meets, decide_true]
    exact iff_of_true rfl trivial
  · simp only [meets, decide_false]
    exact iff_of_false nofun id

/-- Evidence that is certain but for its samples, and says the same twice. -/
def certain (value : Int) (sampleCount sampleConfidenceK : UInt64) : FactorEvidence where
  observed := .known value
  prior := .known value
  sampleCount := sampleCount
  sampleConfidenceK := sampleConfidenceK
  cohortSimilarity := scoreOne
  evidenceFreshness := scoreOne
  provenanceQuality := scoreOne
  compatibleWithOfferingGeneration := true

end FactorEvidence

end Seyal.Agent.Routing
