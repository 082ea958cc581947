import Seyal.Program.Machine

namespace Seyal.Agent.Routing

open Program

/-! Evidence about route offerings, and the score of one candidate. No value stands for a panic. -/

/-- How a target was chosen. -/
inductive SelectionKind where
  | pinned
  | singleton
  | routerV1
  deriving Repr, DecidableEq

def scoreOne : Int := 1000000

def unknownSoftMid : Int := scoreOne / 2

def scoreEpsilon : Int := 1000

inductive EvidenceValue where
  | known (value : Int)
  | unknown
  deriving Repr, DecidableEq

def EvidenceValue.orMid : EvidenceValue → Int
  | .known value => value
  | .unknown => unknownSoftMid

structure FactorEvidence where
  observed : EvidenceValue
  prior : EvidenceValue
  sampleCount : UInt64
  sampleConfidenceK : UInt64
  cohortSimilarity : Int
  evidenceFreshness : Int
  provenanceQuality : Int
  compatibleWithOfferingGeneration : Bool
  deriving Repr, DecidableEq

def scaled (left right : Int) : Int := (saturate64 (left * right)).tdiv scoreOne

namespace FactorEvidence

/-- The sum of the counts leaves its word before it is read as signed. -/
def sampleMicros (evidence : FactorEvidence) : Option Int :=
  let k := max evidence.sampleConfidenceK.toNat 1
  let n := evidence.sampleCount.toNat
  divide64 (wrap64 (wrap64 n * scoreOne)) (wrap64 ((n + k) % 2 ^ 64 : Nat))

def confidenceMicros (evidence : FactorEvidence) : Option Int :=
  if evidence.compatibleWithOfferingGeneration then
    evidence.sampleMicros.map fun sample =>
      scaled (scaled (scaled sample evidence.cohortSimilarity) evidence.evidenceFreshness) evidence.provenanceQuality
  else some 0

def adjustedMicros (evidence : FactorEvidence) : Option Int :=
  evidence.confidenceMicros.map fun confidence =>
    scaled confidence evidence.observed.orMid + scaled (scoreOne - confidence) evidence.prior.orMid

end FactorEvidence

structure DesirabilityBands where
  preferred : Int
  softLimit : Int
  hardCap : Int
  deriving Repr, DecidableEq

namespace DesirabilityBands

def falling (top past span : Int) : Int :=
  wrap64 (top - (wrap64 (wrap64 past * (scoreOne / 2))).tdiv (max (wrap64 span) 1))

def desirability (bands : DesirabilityBands) : EvidenceValue → Option Int
  | .unknown => some (scoreOne / 4)
  | .known value =>
      if bands.hardCap < value then none
      else if value ≤ bands.preferred then some scoreOne
      else if value ≤ bands.softLimit then
        some (falling scoreOne (value - bands.preferred) (bands.softLimit - bands.preferred))
      else some (falling (scoreOne / 2) (value - bands.softLimit) (bands.hardCap - bands.softLimit))

end DesirabilityBands

structure AdequacyFloors where
  quality : Option Int := none
  reliability : Option Int := none
  contextFit : Option Int := none
  toolingFit : Option Int := none
  allowUnknownPriorForFloors : Bool := false
  deriving Repr, DecidableEq

structure RankingCandidate where
  adapterId : Nat
  routeOfferingId : Nat
  adapterEnabled : Bool
  adapterManifestGeneration : UInt64
  hardConstraintSatisfied : Bool
  stableKey : Nat
  preferenceRank : Nat
  quality : FactorEvidence
  contextFit : FactorEvidence
  toolingFit : FactorEvidence
  reliability : FactorEvidence
  expectedTotalCost : EvidenceValue
  expectedLatency : EvidenceValue
  locality : FactorEvidence
  healthReliability : Int
  networkEnforcementOk : Bool
  noNetworkRequired : Bool
  deriving Repr, DecidableEq

inductive SoftFactor where
  | q
  | c
  | t
  | r
  | k
  | l
  | p
  deriving Repr, DecidableEq

inductive PolicyProfile where
  | balanced
  | qualityFirst
  | costAware
  | latencySensitive
  | localFirst
  deriving Repr, DecidableEq

structure ProfileWeights where
  numerators : SoftFactor → Int
  denominator : Int

def ProfileWeights.weightMicros (weights : ProfileWeights) (factor : SoftFactor) : Int :=
  (weights.numerators factor * 1000000).tdiv weights.denominator

/-- Every factor once, and one of them twice. -/
def profileWeights : PolicyProfile → ProfileWeights
  | .balanced => ⟨fun _ => 1, 7⟩
  | .qualityFirst => ⟨fun factor => if factor = .q then 2 else 1, 8⟩
  | .costAware => ⟨fun factor => if factor = .k then 2 else 1, 8⟩
  | .latencySensitive => ⟨fun factor => if factor = .l then 2 else 1, 8⟩
  | .localFirst => ⟨fun factor => if factor = .p then 2 else 1, 8⟩

structure RankingRequest where
  profile : PolicyProfile
  floors : AdequacyFloors
  costBands : DesirabilityBands
  latencyBands : DesirabilityBands
  localLearningEnabled : Bool
  requiredCapabilityBits : UInt64
  boundEvidenceBits : UInt64
  refuseSilentTextOnly : Bool
  deriving Repr, DecidableEq

structure FactorBreakdown where
  factor : SoftFactor
  rawAdjusted : Int
  weightMicros : Int
  contribution : Int
  confidence : Int
  deriving Repr, DecidableEq

structure Scored where
  score : Int
  factors : List FactorBreakdown
  deriving Repr, DecidableEq

/-- An exclusion is an error with its reason. -/
abbrev Scoring := ExceptT String Option

@[simp] theorem liftM_some {α : Type} (value : α) : (liftM (some value) : Scoring α) = pure value := rfl

def refuse (bad : Bool) (reason : String) : Scoring Unit := if bad then throw reason else pure ()

def orRefuse (reason : String) : Option Int → Scoring Int
  | some value => pure value
  | none => throw reason

def floorValue (evidence : FactorEvidence) (allowUnknown : Bool) : Option (Option Int) :=
  if evidence.compatibleWithOfferingGeneration then
    evidence.adjustedMicros.map fun adjusted =>
      if evidence.observed = .unknown ∧ evidence.prior = .unknown ∧ !allowUnknown then none else some adjusted
  else some none

def passesFloor (evidence : FactorEvidence) (allowUnknown : Bool) (reason : String) : Option Int → Scoring Unit
  | none => pure ()
  | some floor => do
      let value ← (floorValue evidence allowUnknown : Option (Option Int))
      refuse (!value.any fun value => decide (floor ≤ value)) reason

def passesFloors (candidate : RankingCandidate) (floors : AdequacyFloors) : Scoring Unit := do
  let allow := floors.allowUnknownPriorForFloors
  passesFloor candidate.quality allow "quality_floor" floors.quality
  passesFloor candidate.reliability allow "reliability_floor" floors.reliability
  passesFloor candidate.contextFit allow "context_floor" floors.contextFit
  passesFloor candidate.toolingFit allow "tooling_floor" floors.toolingFit

def RankingRequest.missesEvidence (request : RankingRequest) : Bool :=
  request.refuseSilentTextOnly && request.requiredCapabilityBits != 0 &&
    request.boundEvidenceBits &&& request.requiredCapabilityBits != request.requiredCapabilityBits

def factorBreakdown (weights : ProfileWeights) (entry : SoftFactor × Int × Int) : FactorBreakdown where
  factor := entry.1
  rawAdjusted := entry.2.1
  weightMicros := weights.weightMicros entry.1
  contribution := scaled (weights.weightMicros entry.1) entry.2.1
  confidence := entry.2.2

def addUp (score : Int) : List FactorBreakdown → Int
  | [] => score
  | factor :: rest => addUp (saturate64 (score + factor.contribution)) rest

def measured (evidence : FactorEvidence) : Scoring (Int × Int) := do
  let adjusted ← (evidence.adjustedMicros : Option Int)
  let confidence ← (evidence.confidenceMicros : Option Int)
  return (adjusted, confidence)

def scoreCandidate (candidate : RankingCandidate) (request : RankingRequest) (weights : ProfileWeights) :
    Scoring Scored := do
  refuse (!candidate.adapterEnabled) "adapter_disabled"
  refuse (!candidate.hardConstraintSatisfied) "hard_constraint"
  refuse request.missesEvidence "missing_required_evidence"
  refuse (candidate.noNetworkRequired && !candidate.networkEnforcementOk) "no_network_unenforced"
  passesFloors candidate request.floors
  let cost ← orRefuse "cost_hard_cap" (request.costBands.desirability candidate.expectedTotalCost)
  let latency ← orRefuse "latency_hard_cap" (request.latencyBands.desirability candidate.expectedLatency)
  let quality ← measured candidate.quality
  let contextFit ← measured candidate.contextFit
  let toolingFit ← measured candidate.toolingFit
  let reliability ← measured candidate.reliability
  let locality ← measured candidate.locality
  let factors := List.map (factorBreakdown weights)
    [(.q, quality), (.c, contextFit), (.t, toolingFit), (.r, reliability), (.k, cost, scoreOne),
      (.l, latency, scoreOne), (.p, locality)]
  return ⟨addUp 0 factors, factors⟩

end Seyal.Agent.Routing
