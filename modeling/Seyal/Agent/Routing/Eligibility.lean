import Seyal.Agent.Routing.Score

namespace Seyal.Agent.Routing

open Program

/-! Which candidates a score is given to, and what the score is made of. -/

/-- A computation that returns is one where `holds` does, and one that excludes is one where it does not. -/
structure Decides {α : Type} (scoring : Scoring α) (holds : Prop) : Prop where
  returned : ∀ {value : α}, scoring.run = some (.ok value) → holds
  excluded : ∀ {reason : String}, scoring.run = some (.error reason) → ¬ holds

section Decides

variable {α β : Type} {scoring : Scoring α} {rest : α → Scoring β} {holds further : Prop}

theorem run_bind_eq_ok {value : β} : (scoring >>= rest).run = some (.ok value) ↔
    ∃ first, scoring.run = some (.ok first) ∧ (rest first).run = some (.ok value) := by
  rw [ExceptT.run_bind]
  cases scoring.run with
  | none => simp
  | some result => cases result <;> simp

theorem Decides.bind (first : Decides scoring holds)
    (next : ∀ value, scoring.run = some (.ok value) → Decides (rest value) further) :
    Decides (scoring >>= rest) (holds ∧ further) where
  returned := by
    intro value run
    obtain ⟨middle, ran, ended⟩ := run_bind_eq_ok.mp run
    exact ⟨first.returned ran, (next middle ran).returned ended⟩
  excluded := by
    intro reason run both
    rw [ExceptT.run_bind] at run
    cases ran : scoring.run with
    | none => simp [ran] at run
    | some result =>
        cases result with
        | error early => exact first.excluded ran both.1
        | ok middle => exact (next middle ran).excluded (by simpa [ran] using run) both.2

theorem Decides.of_iff (decides : Decides scoring holds) (same : holds ↔ further) : Decides scoring further :=
  propext same ▸ decides

theorem Decides.after (first : Decides scoring True)
    (next : ∀ value, scoring.run = some (.ok value) → Decides (rest value) further) :
    Decides (scoring >>= rest) further :=
  (first.bind next).of_iff (by simp)

theorem decides_pure (value : α) : Decides (pure value : Scoring α) True where
  returned _ := trivial
  excluded run := by cases run

theorem decides_lift (value : Option α) : Decides (liftM value : Scoring α) True where
  returned _ := trivial
  excluded run := by cases value <;> cases run

theorem decides_refuse (bad : Bool) (reason : String) : Decides (refuse bad reason) (bad = false) where
  returned run := by
    cases bad with
    | false => rfl
    | true => cases run
  excluded run := by
    cases bad with
    | false => cases run
    | true => exact Bool.noConfusion

theorem decides_orRefuse (reason : String) (value : Option Int) :
    Decides (orRefuse reason value) (value.isSome = true) where
  returned run := by
    cases value with
    | none => cases run
    | some _ => rfl
  excluded run := by
    cases value with
    | none => exact Bool.noConfusion
    | some _ => cases run

theorem decides_measured (evidence : FactorEvidence) : Decides (measured evidence) True :=
  (decides_lift _).after fun _ _ => (decides_lift _).after fun _ _ => decides_pure _

end Decides

/-- A floor that is set is met by a value of this generation that is known and not below it. -/
def MeetsFloor (evidence : FactorEvidence) (allowUnknown : Bool) (floor : Option Int) : Prop :=
  ∀ least, floor = some least → ∃ value, floorValue evidence allowUnknown = some (some value) ∧ least ≤ value

theorem decides_passesFloor (evidence : FactorEvidence) (allowUnknown : Bool) (reason : String)
    (floor : Option Int) :
    Decides (passesFloor evidence allowUnknown reason floor) (MeetsFloor evidence allowUnknown floor) := by
  cases floor with
  | none => exact (decides_pure ()).of_iff (by simp [MeetsFloor])
  | some least =>
      apply (decides_lift _).after fun value found => (decides_refuse _ reason).of_iff ?_
      have read : floorValue evidence allowUnknown = some value := by
        cases known : floorValue evidence allowUnknown with
        | none => simp [known] at found
        | some kept => simpa [known] using found
      cases value <;> simp [MeetsFloor, read]

def WithinCap (bands : DesirabilityBands) (value : EvidenceValue) : Prop :=
  ∀ spent, value = .known spent → spent ≤ bands.hardCap

theorem desirability_isSome (bands : DesirabilityBands) (value : EvidenceValue) :
    (bands.desirability value).isSome = true ↔ WithinCap bands value := by
  cases value with
  | unknown => simp [DesirabilityBands.desirability, WithinCap]
  | known spent =>
      by_cases past : bands.hardCap < spent
      · simp [DesirabilityBands.desirability, WithinCap, past]
      · have within : spent ≤ bands.hardCap := Int.not_lt.mp past
        simp only [DesirabilityBands.desirability, past, if_false, WithinCap]
        split
        · simp [within]
        · split <;> simp [within]

/-- The requirements that no pin looks at. -/
structure Admitted (request : RankingRequest) (candidate : RankingCandidate) : Prop where
  evidence : request.missesEvidence = false
  network : candidate.noNetworkRequired = true → candidate.networkEnforcementOk = true
  quality : MeetsFloor candidate.quality request.floors.allowUnknownPriorForFloors request.floors.quality
  reliability : MeetsFloor candidate.reliability request.floors.allowUnknownPriorForFloors request.floors.reliability
  contextFit : MeetsFloor candidate.contextFit request.floors.allowUnknownPriorForFloors request.floors.contextFit
  toolingFit : MeetsFloor candidate.toolingFit request.floors.allowUnknownPriorForFloors request.floors.toolingFit
  cost : WithinCap request.costBands candidate.expectedTotalCost
  latency : WithinCap request.latencyBands candidate.expectedLatency

structure Eligible (request : RankingRequest) (candidate : RankingCandidate) : Prop where
  enabled : candidate.adapterEnabled = true
  satisfied : candidate.hardConstraintSatisfied = true
  admitted : Admitted request candidate

theorem decides_passesFloors (candidate : RankingCandidate) (floors : AdequacyFloors) :
    Decides (passesFloors candidate floors)
      (MeetsFloor candidate.quality floors.allowUnknownPriorForFloors floors.quality ∧
        MeetsFloor candidate.reliability floors.allowUnknownPriorForFloors floors.reliability ∧
        MeetsFloor candidate.contextFit floors.allowUnknownPriorForFloors floors.contextFit ∧
        MeetsFloor candidate.toolingFit floors.allowUnknownPriorForFloors floors.toolingFit) :=
  (decides_passesFloor _ _ _ _).bind fun _ _ => (decides_passesFloor _ _ _ _).bind fun _ _ =>
    (decides_passesFloor _ _ _ _).bind fun _ _ => decides_passesFloor _ _ _ _

variable {request : RankingRequest} {candidate : RankingCandidate}

theorem eligible_iff : ((!candidate.adapterEnabled) = false ∧ (!candidate.hardConstraintSatisfied) = false ∧
      request.missesEvidence = false ∧
      (candidate.noNetworkRequired && !candidate.networkEnforcementOk) = false ∧
      (MeetsFloor candidate.quality request.floors.allowUnknownPriorForFloors request.floors.quality ∧
        MeetsFloor candidate.reliability request.floors.allowUnknownPriorForFloors request.floors.reliability ∧
        MeetsFloor candidate.contextFit request.floors.allowUnknownPriorForFloors request.floors.contextFit ∧
        MeetsFloor candidate.toolingFit request.floors.allowUnknownPriorForFloors request.floors.toolingFit) ∧
      (request.costBands.desirability candidate.expectedTotalCost).isSome = true ∧
      (request.latencyBands.desirability candidate.expectedLatency).isSome = true ∧ True) ↔
    Eligible request candidate := by
  have network : (candidate.noNetworkRequired && !candidate.networkEnforcementOk) = false ↔
      (candidate.noNetworkRequired = true → candidate.networkEnforcementOk = true) := by
    cases candidate.noNetworkRequired <;> simp
  simp only [desirability_isSome, network, Bool.not_eq_false', and_true]
  constructor
  · intro ⟨enabled, satisfied, evidence, enforced, ⟨quality, reliability, contextFit, toolingFit⟩, cost, latency⟩
    exact ⟨enabled, satisfied, evidence, enforced, quality, reliability, contextFit, toolingFit, cost, latency⟩
  · intro eligible
    have admitted := eligible.admitted
    exact ⟨eligible.enabled, eligible.satisfied, admitted.evidence, admitted.network,
      ⟨admitted.quality, admitted.reliability, admitted.contextFit, admitted.toolingFit⟩, admitted.cost,
      admitted.latency⟩

theorem decides_scoreCandidate (candidate : RankingCandidate) (request : RankingRequest)
    (weights : ProfileWeights) : Decides (scoreCandidate candidate request weights) (Eligible request candidate) := by
  apply Decides.of_iff _ eligible_iff
  apply (decides_refuse _ _).bind fun _ _ => (decides_refuse _ _).bind fun _ _ =>
    (decides_refuse _ _).bind fun _ _ => (decides_refuse _ _).bind fun _ _ =>
    (decides_passesFloors _ _).bind fun _ _ => (decides_orRefuse _ _).bind fun cost _ =>
    (decides_orRefuse _ _).bind fun latency _ => ?_
  -- From here on nothing is excluded.
  apply (decides_measured _).after fun _ _ => (decides_measured _).after fun _ _ =>
    (decides_measured _).after fun _ _ => (decides_measured _).after fun _ _ =>
    (decides_measured _).after fun _ _ => decides_pure _

/-- The divisor of the sample share is not zero, and the quotient is not the one that a word does not hold. -/
def FactorEvidence.Divides (evidence : FactorEvidence) : Prop :=
  let total := evidence.sampleCount.toNat + max evidence.sampleConfidenceK.toNat 1
  evidence.compatibleWithOfferingGeneration = true →
    total ≠ 2 ^ 64 ∧ ¬ (evidence.sampleCount.toNat % 2 ^ 58 = 2 ^ 57 ∧ total = 2 ^ 64 - 1)

open FactorEvidence

theorem scaled_mod_eq {n : Nat} : n * 15625 % 2 ^ 58 = 2 ^ 57 ↔ n % 2 ^ 58 = 2 ^ 57 := by
  have reads : ∀ m : Nat, m % 2 ^ 58 = 2 ^ 57 → 2 ^ 57 ∣ m := by
    intro m left
    have part : 2 ^ 57 ∣ 2 ^ 58 := Nat.pow_dvd_pow 2 (by decide)
    rw [← Nat.dvd_mod_iff part, left]
  by_cases even : 2 ^ 57 ∣ n
  · obtain ⟨half, rfl⟩ := even
    have odd : half * 15625 % 2 = half % 2 := by simp [Nat.mul_mod]
    have twice : 2 ^ 58 = 2 ^ 57 * 2 := Nat.pow_succ 2 57
    have some : 2 ^ 57 ≠ 0 := Nat.two_pow_pos _ |>.ne'
    rw [Nat.mul_assoc, twice, Nat.mul_mod_mul_left, Nat.mul_mod_mul_left, Nat.mul_eq_left some, Nat.mul_eq_left some,
      odd]
  · have coprime : Nat.Coprime (2 ^ 57) 15625 := by decide
    exact iff_of_false (fun left => even (coprime.dvd_of_dvd_mul_right (reads _ left))) fun left => even (reads n left)

theorem wrap64_eq_min {value : Nat} : wrap64 value = -2 ^ 63 ↔ value % 2 ^ 64 = 2 ^ 63 := by
  unfold wrap64 Int.bmod
  dsimp only
  split_ifs <;> omega

theorem wrap64_scaled_eq_min {n : Nat} : wrap64 (wrap64 n * 1000000) = -2 ^ 63 ↔ n % 2 ^ 58 = 2 ^ 57 := by
  have bare : wrap64 (wrap64 n * 1000000) = wrap64 ((2 ^ 6 * (n * 15625) : Nat) : Int) := by
    have factors : 2 ^ 6 * (n * 15625) = n * 1000000 := by omega
    rw [factors, Int.natCast_mul]
    exact Int.bmod_mul_bmod
  have whole : 2 ^ 64 = 2 ^ 6 * 2 ^ 58 := Nat.pow_add 2 6 58
  have least : 2 ^ 63 = 2 ^ 6 * 2 ^ 57 := Nat.pow_add 2 6 57
  rw [bare, wrap64_eq_min, ← scaled_mod_eq, whole, least, Nat.mul_mod_mul_left, Nat.mul_right_inj (by decide)]

theorem wrap64_mod {total : Nat} (small : total < 2 ^ 65 - 1) :
    (wrap64 (total % 2 ^ 64 : Nat) = 0 ↔ total = 0 ∨ total = 2 ^ 64) ∧
      (wrap64 (total % 2 ^ 64 : Nat) = -1 ↔ total = 2 ^ 64 - 1) := by
  unfold wrap64 Int.bmod
  dsimp only
  split_ifs <;> omega

theorem confidenceMicros_ne_none {evidence : FactorEvidence} :
    evidence.confidenceMicros ≠ none ↔ evidence.Divides := by
  have one : scoreOne = 1000000 := rfl
  have count := evidence.sampleCount.toNat_lt
  have known := evidence.sampleConfidenceK.toNat_lt
  have positive : 0 < max evidence.sampleConfidenceK.toNat 1 := by omega
  have small : max evidence.sampleConfidenceK.toNat 1 < 2 ^ 64 := by omega
  unfold confidenceMicros sampleMicros Divides divide64
  generalize max evidence.sampleConfidenceK.toNat 1 = k at positive small ⊢
  obtain ⟨zero, last⟩ := @wrap64_mod (evidence.sampleCount.toNat + k) (by omega)
  simp only [one, wrap64_scaled_eq_min, zero, last]
  split
  next compatible =>
    rw [ne_eq, Option.map_eq_none_iff, ite_eq_left_iff, compatible]
    simp only [reduceCtorEq, imp_false, not_not, true_implies]
    omega
  next other => simp [other]

theorem adjustedMicros_ne_none {evidence : FactorEvidence} : evidence.adjustedMicros ≠ none ↔ evidence.Divides := by
  rw [← confidenceMicros_ne_none, adjustedMicros, ne_eq, Option.map_eq_none_iff]

section Returns

variable {α β : Type} {scoring : Scoring α} {rest : α → Scoring β} {holds further : Prop}

theorem returns_bind {ends : Prop} (first : scoring.run ≠ none ↔ ends) (decides : Decides scoring holds)
    (next : ∀ value, (rest value).run ≠ none ↔ further) :
    (scoring >>= rest).run ≠ none ↔ ends ∧ (holds → further) := by
  rw [← first, ExceptT.run_bind]
  cases ran : scoring.run with
  | none => simp
  | some result =>
      cases result with
      | error reason => simpa using fun met => absurd met (decides.excluded ran)
      | ok value => simpa [decides.returned ran] using next value

theorem returns_pure (value : α) : (pure value : Scoring α).run ≠ none ↔ True := by
  simp

theorem returns_refuse (bad : Bool) (reason : String) : (refuse bad reason).run ≠ none ↔ True := by
  cases bad <;> simp [refuse]

theorem returns_orRefuse (reason : String) (value : Option Int) : (orRefuse reason value).run ≠ none ↔ True := by
  cases value <;> simp [orRefuse]

theorem returns_lift (value : Option α) : (liftM value : Scoring α).run ≠ none ↔ value ≠ none := by
  cases value <;> simp

theorem returns_measured (evidence : FactorEvidence) : (measured evidence).run ≠ none ↔ evidence.Divides := by
  refine (returns_bind (returns_lift _) (decides_lift _) fun _ =>
    returns_bind (returns_lift _) (decides_lift _) fun _ => returns_pure _).trans ?_
  rw [adjustedMicros_ne_none, confidenceMicros_ne_none]
  simp

theorem returns_passesFloor (evidence : FactorEvidence) (allowUnknown : Bool) (reason : String) (floor : Option Int) :
    (passesFloor evidence allowUnknown reason floor).run ≠ none ↔ (floor ≠ none → evidence.Divides) := by
  cases floor with
  | none => simp [passesFloor]
  | some least =>
      refine (returns_bind (returns_lift _) (decides_lift _) fun _ => returns_refuse _ _).trans ?_
      have read : floorValue evidence allowUnknown ≠ none ↔ evidence.Divides := by
        unfold floorValue
        split
        next => rw [ne_eq, Option.map_eq_none_iff, ← ne_eq, adjustedMicros_ne_none]
        next other => simp [Divides, other]
      simp [read]

end Returns

/-- A floor that is set reads its evidence, and what comes behind it is read where it is met. -/
def BehindFloor (evidence : FactorEvidence) (allowUnknown : Bool) (floor : Option Int) (further : Prop) : Prop :=
  (floor ≠ none → evidence.Divides) ∧ (MeetsFloor evidence allowUnknown floor → further)

/-- All the evidence of a candidate that is read, until the candidate is excluded, can be divided. -/
def Computed (request : RankingRequest) (candidate : RankingCandidate) : Prop :=
  let floors := request.floors
  let allow := floors.allowUnknownPriorForFloors
  candidate.adapterEnabled = true → candidate.hardConstraintSatisfied = true → request.missesEvidence = false →
    (candidate.noNetworkRequired && !candidate.networkEnforcementOk) = false →
    BehindFloor candidate.quality allow floors.quality (BehindFloor candidate.reliability allow floors.reliability
      (BehindFloor candidate.contextFit allow floors.contextFit (BehindFloor candidate.toolingFit allow floors.toolingFit
        (WithinCap request.costBands candidate.expectedTotalCost →
          WithinCap request.latencyBands candidate.expectedLatency →
            candidate.quality.Divides ∧ candidate.contextFit.Divides ∧ candidate.toolingFit.Divides ∧
              candidate.reliability.Divides ∧ candidate.locality.Divides))))

theorem returns_scoreCandidate {weights : ProfileWeights} :
    (scoreCandidate candidate request weights).run ≠ none ↔ Computed request candidate := by
  have floor := returns_passesFloor
  have floors := decides_passesFloor
  have read := returns_measured
  unfold scoreCandidate passesFloors
  simp only [bind_assoc]
  refine (returns_bind (returns_refuse _ _) (decides_refuse _ _) fun _ =>
    returns_bind (returns_refuse _ _) (decides_refuse _ _) fun _ =>
    returns_bind (returns_refuse _ _) (decides_refuse _ _) fun _ =>
    returns_bind (returns_refuse _ _) (decides_refuse _ _) fun _ =>
    returns_bind (floor _ _ _ _) (floors _ _ _ _) fun _ => returns_bind (floor _ _ _ _) (floors _ _ _ _) fun _ =>
    returns_bind (floor _ _ _ _) (floors _ _ _ _) fun _ => returns_bind (floor _ _ _ _) (floors _ _ _ _) fun _ =>
    returns_bind (returns_orRefuse _ _) (decides_orRefuse _ _) fun _ =>
    returns_bind (returns_orRefuse _ _) (decides_orRefuse _ _) fun _ =>
    returns_bind (read _) (decides_measured _) fun _ => returns_bind (read _) (decides_measured _) fun _ =>
    returns_bind (read _) (decides_measured _) fun _ => returns_bind (read _) (decides_measured _) fun _ =>
    returns_bind (read _) (decides_measured _) fun _ => returns_pure _).trans ?_
  simp only [Computed, BehindFloor, desirability_isSome, true_and, true_implies, and_true, Bool.not_eq_false']

theorem scaled_bounds (left right : Int) : -9223372036855 ≤ scaled left right ∧ scaled left right ≤ 9223372036855 := by
  obtain ⟨low, high⟩ := saturate64_bounds (left * right)
  rw [scaled, scoreOne]
  generalize saturate64 (left * right) = product at low high
  by_cases nonneg : 0 ≤ product
  · rw [Int.tdiv_eq_ediv_of_nonneg nonneg]
    omega
  · have flipped : product.tdiv 1000000 = -((-product) / 1000000) := by
      rw [← Int.tdiv_eq_ediv_of_nonneg (by omega), Int.neg_tdiv, Int.neg_neg]
    rw [flipped]
    omega

theorem addUp_eq_sum (factors : List FactorBreakdown) (score : Int)
    (bounded : ∀ factor ∈ factors, -9223372036855 ≤ factor.contribution ∧ factor.contribution ≤ 9223372036855)
    (low : -2 ^ 63 + 9223372036855 * factors.length ≤ score)
    (high : score + 9223372036855 * factors.length ≤ 2 ^ 63 - 1) :
    addUp score factors = score + (factors.map FactorBreakdown.contribution).sum := by
  induction factors generalizing score with
  | nil => simp [addUp]
  | cons factor rest ih =>
      obtain ⟨least, most⟩ := bounded factor List.mem_cons_self
      simp only [List.length_cons, Nat.cast_add, Nat.cast_one] at low high
      have kept : saturate64 (score + factor.contribution) = score + factor.contribution :=
        saturate64_of_abs_le (by omega) (by omega)
      rw [addUp, kept, ih _ (List.forall_mem_cons.mp bounded).2 (by omega) (by omega)]
      simp [Int.add_assoc]

theorem addUp_breakdowns (weights : ProfileWeights) (entries : List (SoftFactor × Int × Int))
    (few : entries.length = 7) :
    addUp 0 (entries.map (factorBreakdown weights)) =
      ((entries.map (factorBreakdown weights)).map FactorBreakdown.contribution).sum := by
  rw [addUp_eq_sum _ _ _ (by simp [few]) (by simp [few]), Int.zero_add]
  intro factor inside
  obtain ⟨entry, -, rfl⟩ := List.mem_map.mp inside
  exact scaled_bounds _ _

theorem contributions_sum {weights : ProfileWeights} {scored : Scored}
    (run : (scoreCandidate candidate request weights).run = some (.ok scored)) :
    (scored.factors.map FactorBreakdown.contribution).sum = scored.score := by
  simp only [scoreCandidate, run_bind_eq_ok] at run
  obtain ⟨-, -, -, -, -, -, -, -, -, -, cost, -, latency, -, quality, -, contextFit, -, toolingFit, -, reliability, -,
    locality, -, ended⟩ := run
  cases ended
  exact (addUp_breakdowns weights _ rfl).symm

end Seyal.Agent.Routing
