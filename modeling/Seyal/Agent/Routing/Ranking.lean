import Mathlib.Data.List.Nodup
import Mathlib.Data.List.Sort
import Mathlib.Data.Prod.Lex
import Seyal.Agent.Routing.Eligibility

namespace Seyal.Agent.Routing

open Program

/-! The choice among scored candidates, and the pin that goes before it. -/

def baselineArtifactId : String := "seyal.spec020.baseline-calibration.v1"

def baselineArtifactSha256 : String := "9d31ee776b06d288d914b2c55a8d2354459fa46894d237592ffc4508041b7ecf"

def forbiddenSyntheticPocSha256 : String := "920a4cc064b8bc9c234328938ad5d33575b7c58a8ecc1bfc302e3ca08fd3cb85"

structure BaselineCalibration where
  artifactId : String
  artifactSha256 : String
  learningDisabledUsesArtifact : Bool
  deriving Repr, DecidableEq

structure ResolvedTarget where
  adapterId : Nat
  routeOfferingId : Nat
  adapterManifestGeneration : UInt64
  selectionKind : SelectionKind
  deriving Repr, DecidableEq

inductive ResolveFailure where
  | targetUnavailable
  | adapterDisabled (adapterId : Nat)
  | noRoute
  | baselineIntegrity
  deriving Repr, DecidableEq

structure CandidateExplanation where
  routeOfferingId : Nat
  eligible : Bool
  exclusionReason : Option String
  score : Int
  factors : List FactorBreakdown
  expectedTotalCost : EvidenceValue
  deriving Repr, DecidableEq

structure RankingExplanation where
  baselineArtifactId : String
  baselineSha256 : String
  profile : PolicyProfile
  winnerScore : Int
  candidates : List CandidateExplanation
  deriving Repr, DecidableEq

structure RankedResolution where
  target : ResolvedTarget
  explanation : RankingExplanation
  deriving Repr, DecidableEq

def minFactorConfidence (factors : List FactorBreakdown) : Int :=
  (factors.map FactorBreakdown.confidence).min?.getD 0

def qualityConfidence (factors : List FactorBreakdown) : Int :=
  ((factors.find? fun factor => factor.factor = .q).map FactorBreakdown.confidence).getD 0

def costKey : EvidenceValue → Lex (Nat × Int)
  | .known cost => toLex (0, cost)
  | .unknown => toLex (1, 2 ^ 63 - 1)

/-- The order of the tie-breaks; what is better when it is greater is negated. -/
abbrev TieKey :=
  Lex (Nat × Lex (Int × Lex (Int × Lex (Lex (Nat × Int) × Lex (Lex (Nat × Int) × Lex (Int × Nat))))))

def tieKey (candidate : RankingCandidate) (scored : Scored) : TieKey :=
  toLex (candidate.preferenceRank, toLex (-minFactorConfidence scored.factors,
    toLex (-qualityConfidence scored.factors, toLex (costKey candidate.expectedTotalCost,
      toLex (costKey candidate.expectedLatency, toLex (-candidate.healthReliability, candidate.stableKey))))))

structure ScoredRow where
  score : Int
  key : TieKey
  idx : Nat

def ScoredRow.place (row : ScoredRow) : Lex (TieKey × Nat) := toLex (row.key, row.idx)

def target (candidate : RankingCandidate) (kind : SelectionKind) : ResolvedTarget :=
  ⟨candidate.adapterId, candidate.routeOfferingId, candidate.adapterManifestGeneration, kind⟩

section Rank

variable (candidates : List RankingCandidate) (request : RankingRequest) (baseline : BaselineCalibration)

def RankingRequest.score (candidate : RankingCandidate) : Scoring Scored :=
  scoreCandidate candidate request (profileWeights request.profile)

def explain (candidate : RankingCandidate) : Option CandidateExplanation :=
  (request.score candidate).run.map fun
    | .ok scored =>
        ⟨candidate.routeOfferingId, true, none, scored.score, scored.factors, candidate.expectedTotalCost⟩
    | .error reason => ⟨candidate.routeOfferingId, false, some reason, 0, [], candidate.expectedTotalCost⟩

def scoredRow (entry : RankingCandidate × Nat) : Option ScoredRow :=
  match (request.score entry.1).run with
  | some (.ok scored) => some ⟨scored.score, tieKey entry.1 scored, entry.2⟩
  | _ => none

def scoredRows : List ScoredRow := candidates.zipIdx.filterMap (scoredRow request)

/-- The rows near the top score, in the order of the tie-breaks. -/
def winningRow (rows : List ScoredRow) : Option ScoredRow := do
  let top ← (rows.map ScoredRow.score).max?
  ((rows.filter fun row => decide (top - row.score ≤ scoreEpsilon)).insertionSort fun left right =>
    left.place ≤ right.place).head?

def BaselineCalibration.bound : Bool :=
  baseline.artifactSha256 = baselineArtifactSha256 ∧ baseline.artifactId = baselineArtifactId ∧
    (request.localLearningEnabled ∨ baseline.learningDisabledUsesArtifact)

/-- Scoring one candidate after the other panics where one of them does. -/
def rankV1 : Option (Except ResolveFailure RankedResolution) :=
  if !baseline.bound request then some (.error .baselineIntegrity)
  else if candidates.any fun candidate => (request.score candidate).run.isNone then none
  else
    match winningRow (scoredRows candidates request) with
    | none => some (.error .noRoute)
    | some row => candidates[row.idx]?.map fun winner => .ok {
        target := target winner .routerV1
        explanation := {
          baselineArtifactId := baseline.artifactId
          baselineSha256 := baseline.artifactSha256
          profile := request.profile
          winnerScore := row.score
          candidates := candidates.filterMap (explain request) } }

end Rank

section Winner

variable {candidates others : List RankingCandidate} {request : RankingRequest} {baseline : BaselineCalibration}
  {rows : List ScoredRow} {row : ScoredRow}

def NearTop (rows : List ScoredRow) (row : ScoredRow) : Prop :=
  ∀ other ∈ rows, other.score - row.score ≤ scoreEpsilon

theorem nearTop_iff {top : Int} (greatest : (rows.map ScoredRow.score).max? = some top) :
    top - row.score ≤ scoreEpsilon ↔ NearTop rows row := by
  obtain ⟨reached, above⟩ := List.max?_eq_some_iff.mp greatest
  constructor
  · intro near other inside
    have below := above other.score (List.mem_map_of_mem inside)
    omega
  · intro near
    obtain ⟨best, inside, rfl⟩ := List.mem_map.mp reached
    exact near best inside

theorem head_insertionSort_le {first : ScoredRow} {kept : List ScoredRow}
    (head : (kept.insertionSort fun left right => left.place ≤ right.place).head? = some first) :
    first ∈ kept ∧ ∀ other ∈ kept, first.place ≤ other.place := by
  have total : Std.Total fun left right : ScoredRow => left.place ≤ right.place := ⟨fun _ _ => le_total _ _⟩
  have trans : IsTrans ScoredRow fun left right => left.place ≤ right.place := ⟨fun _ _ _ => le_trans⟩
  have sorted := List.pairwise_insertionSort (fun left right : ScoredRow => left.place ≤ right.place) kept
  obtain ⟨rest, same⟩ := List.head?_eq_some_iff.mp head
  rw [same, List.pairwise_cons] at sorted
  have member : ∀ other, other ∈ first :: rest ↔ other ∈ kept := fun other => by
    rw [← same, List.mem_insertionSort]
  refine ⟨(member first).mp List.mem_cons_self, fun other inside => ?_⟩
  rcases List.mem_cons.mp ((member other).mpr inside) with rfl | later
  · exact le_rfl
  · exact sorted.1 other later

theorem winningRow_eq_some (won : winningRow rows = some row) :
    row ∈ rows ∧ NearTop rows row ∧ ∀ other ∈ rows, NearTop rows other → row.place ≤ other.place := by
  obtain ⟨top, greatest, head⟩ := Option.bind_eq_some_iff.mp won
  obtain ⟨inside, least⟩ := head_insertionSort_le head
  simp only [List.mem_filter, decide_eq_true_eq, nearTop_iff greatest] at inside least
  exact ⟨inside.1, inside.2, fun other member near => least other ⟨member, near⟩⟩

theorem winningRow_eq_none : winningRow rows = none ↔ rows = [] := by
  constructor
  · intro lost
    cases greatest : (rows.map ScoredRow.score).max? with
    | none => exact List.map_eq_nil_iff.mp (List.max?_eq_none_iff.mp greatest)
    | some top =>
        obtain ⟨best, inside, rfl⟩ := List.mem_map.mp (List.max?_eq_some_iff.mp greatest).1
        simp only [winningRow, greatest, Option.bind_eq_bind, Option.bind_some, List.head?_eq_none_iff] at lost
        have kept : best ∈ rows.filter fun row => decide (best.score - row.score ≤ scoreEpsilon) :=
          List.mem_filter.mpr ⟨inside, by simp [scoreEpsilon]⟩
        rw [← List.mem_insertionSort fun left right : ScoredRow => left.place ≤ right.place, lost] at kept
        exact (List.not_mem_nil kept).elim
  · intro empty
    rw [empty]
    rfl

theorem mem_scoredRows {candidate : RankingCandidate} {scored : Scored} (inside : candidate ∈ candidates)
    (run : (request.score candidate).run = some (.ok scored)) :
    ∃ idx, (⟨scored.score, tieKey candidate scored, idx⟩ : ScoredRow) ∈ scoredRows candidates request := by
  obtain ⟨idx, found⟩ := List.mem_iff_getElem?.mp inside
  refine ⟨idx, List.mem_filterMap.mpr ⟨(candidate, idx), List.mem_zipIdx_iff_getElem?.mpr found, ?_⟩⟩
  simp only [scoredRow, run]

theorem scored_of_mem (inside : row ∈ scoredRows candidates request) :
    ∃ candidate scored, candidates[row.idx]? = some candidate ∧ (request.score candidate).run = some (.ok scored) ∧
      row.score = scored.score ∧ row.key = tieKey candidate scored := by
  obtain ⟨entry, found, made⟩ := List.mem_filterMap.mp inside
  rw [List.mem_zipIdx_iff_getElem?] at found
  simp only [scoredRow] at made
  split at made
  case h_1 scored run =>
    cases made
    exact ⟨entry.1, scored, found, run, rfl, rfl⟩
  case h_2 => cases made

theorem scoredRows_eq_nil : scoredRows candidates request = [] ↔
    ∀ candidate ∈ candidates, ∀ scored, (request.score candidate).run ≠ some (.ok scored) := by
  constructor
  · intro empty candidate inside scored run
    obtain ⟨idx, row⟩ := mem_scoredRows inside run
    rw [empty] at row
    exact List.not_mem_nil row
  · intro excluded
    apply List.eq_nil_iff_forall_not_mem.mpr
    intro row inside
    obtain ⟨candidate, scored, found, run, -, -⟩ := scored_of_mem inside
    exact excluded candidate (List.mem_of_getElem? found) scored run

/-- No eligible candidate is better than this one by more than the band. -/
def Near (candidates : List RankingCandidate) (request : RankingRequest) (scored : Scored) : Prop :=
  ∀ other ∈ candidates, ∀ its, (request.score other).run = some (.ok its) → its.score - scoreEpsilon ≤ scored.score

theorem near_iff {scored : Scored} (same : row.score = scored.score) :
    NearTop (scoredRows candidates request) row ↔ Near candidates request scored := by
  constructor
  · intro near other member its run
    obtain ⟨idx, others⟩ := mem_scoredRows member run
    have close := near _ others
    simp only [same] at close
    omega
  · intro near other others
    obtain ⟨candidate, its, found, run, score, -⟩ := scored_of_mem others
    have close := near candidate (List.mem_of_getElem? found) its run
    omega

/-- The winner, told without the order of the list. -/
structure Wins (candidates : List RankingCandidate) (request : RankingRequest) (winner : RankingCandidate)
    (scored : Scored) : Prop where
  member : winner ∈ candidates
  run : (request.score winner).run = some (.ok scored)
  near : Near candidates request scored
  first : ∀ other ∈ candidates, ∀ its, (request.score other).run = some (.ok its) →
    Near candidates request its → tieKey winner scored ≤ tieKey other its

theorem wins_of_winningRow (won : winningRow (scoredRows candidates request) = some row) :
    ∃ winner scored, candidates[row.idx]? = some winner ∧ row.score = scored.score ∧
      Wins candidates request winner scored := by
  obtain ⟨inside, near, least⟩ := winningRow_eq_some won
  obtain ⟨winner, scored, found, run, score, key⟩ := scored_of_mem inside
  refine ⟨winner, scored, found, score, List.mem_of_getElem? found, run, (near_iff score).mp near, ?_⟩
  intro other member its ran close
  obtain ⟨idx, others⟩ := mem_scoredRows member ran
  have before := least _ others ((near_iff rfl).mpr close)
  rw [ScoredRow.place, ScoredRow.place, Prod.Lex.toLex_le_toLex, key] at before
  rcases before with less | same
  · exact le_of_lt less
  · exact le_of_eq same.1

theorem stableKey_of_tieKey {left right : RankingCandidate} {scored its : Scored}
    (same : tieKey left scored = tieKey right its) : left.stableKey = right.stableKey := by
  simp only [tieKey, EmbeddingLike.apply_eq_iff_eq, Prod.mk.injEq] at same
  exact same.2.2.2.2.2.2

theorem Wins.unique (distinct : (candidates.map RankingCandidate.stableKey).Nodup) {left right : RankingCandidate}
    {scored its : Scored} (first : Wins candidates request left scored) (second : Wins candidates request right its) :
    left = right ∧ scored = its := by
  have before := first.first right second.member its second.run second.near
  have after := second.first left first.member scored first.run first.near
  have same : left = right := List.inj_on_of_nodup_map distinct first.member second.member
    (stableKey_of_tieKey (le_antisymm before after))
  have ran := first.run
  rw [same, second.run] at ran
  cases ran
  exact ⟨same, rfl⟩

theorem Wins.perm (same : others.Perm candidates) {winner : RankingCandidate} {scored : Scored}
    (wins : Wins candidates request winner scored) : Wins others request winner scored where
  member := same.mem_iff.mpr wins.member
  run := wins.run
  near other inside := wins.near other (same.mem_iff.mp inside)
  first other inside its ran close := wins.first other (same.mem_iff.mp inside) its ran
    fun third member => close third (same.mem_iff.mpr member)

def decision (ranking : Option (Except ResolveFailure RankedResolution)) :
    Option (Except ResolveFailure (ResolvedTarget × Int)) :=
  ranking.map fun result => result.map fun ranked => (ranked.target, ranked.explanation.winnerScore)

theorem decision_of_bound (bound : baseline.bound request = true)
    (scores : (candidates.any fun candidate => (request.score candidate).run.isNone) = false) :
    (scoredRows candidates request = [] ∧ decision (rankV1 candidates request baseline) = some (.error .noRoute)) ∨
    ∃ winner scored, Wins candidates request winner scored ∧
      decision (rankV1 candidates request baseline) = some (.ok (target winner .routerV1, scored.score)) := by
  rw [rankV1, bound, scores]
  cases won : winningRow (scoredRows candidates request) with
  | none => exact .inl ⟨winningRow_eq_none.mp won, rfl⟩
  | some row =>
      obtain ⟨winner, scored, found, score, wins⟩ := wins_of_winningRow won
      refine .inr ⟨winner, scored, wins, ?_⟩
      simp [decision, found, score, Except.map]

theorem decision_perm (distinct : (candidates.map RankingCandidate.stableKey).Nodup) (same : others.Perm candidates) :
    decision (rankV1 others request baseline) = decision (rankV1 candidates request baseline) := by
  cases bound : baseline.bound request with
  | false => simp [rankV1, bound]
  | true =>
      cases scores : candidates.any fun candidate => (request.score candidate).run.isNone with
      | true => simp [rankV1, bound, same.any_eq, scores]
      | false =>
          have empty : scoredRows others request = [] ↔ scoredRows candidates request = [] := by
            simp only [scoredRows_eq_nil, same.mem_iff]
          rcases decision_of_bound bound (same.any_eq.trans scores) with ⟨empties, lost⟩ | ⟨winner, scored, wins, won⟩
          · rcases decision_of_bound bound scores with ⟨-, also⟩ | ⟨winner, scored, wins, -⟩
            · rw [lost, also]
            · exact absurd wins.run (scoredRows_eq_nil.mp (empty.mp empties) winner wins.member scored)
          · rcases decision_of_bound bound scores with ⟨empties, -⟩ | ⟨other, its, also, beaten⟩
            · exact absurd wins.run (scoredRows_eq_nil.mp (empty.mpr empties) winner wins.member scored)
            · obtain ⟨rfl, rfl⟩ := Wins.unique distinct (wins.perm same.symm) also
              rw [won, beaten]

theorem eligible_iff_scored {candidate : RankingCandidate} (scores : (request.score candidate).run ≠ none) :
    Eligible request candidate ↔ ∃ scored, (request.score candidate).run = some (.ok scored) := by
  have decides := decides_scoreCandidate candidate request (profileWeights request.profile)
  constructor
  · intro eligible
    cases run : (request.score candidate).run with
    | none => exact absurd run scores
    | some result =>
        cases result with
        | error reason => exact absurd eligible (decides.excluded run)
        | ok scored => exact ⟨scored, rfl⟩
  · intro ⟨scored, run⟩
    exact decides.returned run

theorem decision_eq_error {ranking : Option (Except ResolveFailure RankedResolution)} {failure : ResolveFailure} :
    decision ranking = some (.error failure) ↔ ranking = some (.error failure) := by
  cases ranking with
  | none => simp [decision]
  | some result => cases result <;> simp [decision, Except.map]

theorem decision_eq_ok {ranking : Option (Except ResolveFailure RankedResolution)} {found : ResolvedTarget}
    {score : Int} : decision ranking = some (.ok (found, score)) ↔
      ∃ ranked, ranking = some (.ok ranked) ∧ ranked.target = found ∧ ranked.explanation.winnerScore = score := by
  cases ranking with
  | none => simp [decision]
  | some result => cases result <;> simp [decision, Except.map]

/-- The three ends of a ranking whose scores can be computed. -/
inductive Ending (candidates : List RankingCandidate) (request : RankingRequest) (baseline : BaselineCalibration) : Prop
  | unverified (bound : baseline.bound request = false)
      (failed : rankV1 candidates request baseline = some (.error .baselineIntegrity))
  | excluded (bound : baseline.bound request = true) (refused : ∀ candidate ∈ candidates, ¬ Eligible request candidate)
      (failed : rankV1 candidates request baseline = some (.error .noRoute))
  | won (bound : baseline.bound request = true) (ranked : RankedResolution) (winner : RankingCandidate)
      (scored : Scored) (ranking : rankV1 candidates request baseline = some (.ok ranked))
      (wins : Wins candidates request winner scored) (chosen : ranked.target = target winner .routerV1)
      (score : ranked.explanation.winnerScore = scored.score)

theorem ending (scores : ∀ candidate ∈ candidates, (request.score candidate).run ≠ none) :
    Ending candidates request baseline := by
  cases bound : baseline.bound request with
  | false => exact .unverified bound (by simp [rankV1, bound])
  | true =>
      have computed : (candidates.any fun candidate => (request.score candidate).run.isNone) = false := by
        simpa [List.any_eq_false] using scores
      rcases decision_of_bound bound computed with ⟨empty, lost⟩ | ⟨winner, scored, wins, won⟩
      · refine .excluded bound (fun candidate inside eligible => ?_) (decision_eq_error.mp lost)
        obtain ⟨scored, run⟩ := (eligible_iff_scored (scores candidate inside)).mp eligible
        exact scoredRows_eq_nil.mp empty candidate inside scored run
      · obtain ⟨ranked, ranking, chosen, score⟩ := decision_eq_ok.mp won
        exact .won bound ranked winner scored ranking wins chosen score

theorem scores_of_ranked (bound : baseline.bound request = true) {result : Except ResolveFailure RankedResolution}
    (ranking : rankV1 candidates request baseline = some result) :
    ∀ candidate ∈ candidates, (request.score candidate).run ≠ none := by
  intro candidate inside panics
  have panicked : (candidates.any fun candidate => (request.score candidate).run.isNone) = true :=
    List.any_eq_true.mpr ⟨candidate, inside, by rw [panics]; rfl⟩
  simp [rankV1, bound, panicked] at ranking

/-- A winner is eligible and near the best score, and the order of the candidates does not choose it. It is missing
exactly where no candidate is eligible, if the baseline is the built-in one and the scores can be computed. -/
theorem rankV1_sound (candidates : List RankingCandidate) (request : RankingRequest) (baseline : BaselineCalibration)
    (distinct : (candidates.map RankingCandidate.stableKey).Nodup) :
    (∀ ranked, rankV1 candidates request baseline = some (.ok ranked) →
      ∃ winner ∈ candidates, ∃ scored, (request.score winner).run = some (.ok scored) ∧ Eligible request winner ∧
        ranked.target = target winner .routerV1 ∧ ranked.explanation.winnerScore = scored.score ∧
        ∀ other ∈ candidates, ∀ its, (request.score other).run = some (.ok its) →
          its.score - scoreEpsilon ≤ scored.score) ∧
    (∀ candidate ∈ candidates, ∀ scored, (request.score candidate).run = some (.ok scored) →
      (scored.factors.map FactorBreakdown.contribution).sum = scored.score) ∧
    (∀ others : List RankingCandidate, others.Perm candidates →
      decision (rankV1 others request baseline) = decision (rankV1 candidates request baseline)) ∧
    ((∃ result, rankV1 candidates request baseline = some result ∧
        ((∀ ranked, result ≠ .ok ranked) ↔ ∀ candidate ∈ candidates, ¬ Eligible request candidate)) ↔
      baseline.bound request = true ∧ (∀ candidate ∈ candidates, Computed request candidate) ∨
      baseline.bound request = false ∧ ∀ candidate ∈ candidates, ¬ Eligible request candidate) := by
  refine ⟨fun ranked ranking => ?_, fun _ _ _ run => contributions_sum run, fun _ same => decision_perm distinct same, ?_⟩
  · have bound : baseline.bound request = true := by
      cases bound : baseline.bound request with
      | false => simp [rankV1, bound] at ranking
      | true => rfl
    have scores := scores_of_ranked bound ranking
    cases (ending scores : Ending candidates request baseline) with
    | unverified _ failed | excluded _ _ failed => simp [failed] at ranking
    | won _ _ winner scored reached wins chosen score =>
        rw [reached] at ranking
        cases ranking
        have eligible := (eligible_iff_scored (scores winner wins.member)).mpr ⟨scored, wins.run⟩
        exact ⟨winner, wins.member, scored, wins.run, eligible, chosen, score, wins.near⟩
  · cases bound : baseline.bound request with
    | false => simp [rankV1, bound]
    | true =>
        simp only [true_and, reduceCtorEq, false_and, or_false]
        constructor
        · rintro ⟨result, ranking, _⟩ candidate inside
          exact returns_scoreCandidate.mp (scores_of_ranked bound ranking candidate inside)
        · intro computed
          have scores : ∀ candidate ∈ candidates, (request.score candidate).run ≠ none :=
            fun candidate inside => returns_scoreCandidate.mpr (computed candidate inside)
          cases (ending scores : Ending candidates request baseline) with
          | unverified unbound _ => simp [bound] at unbound
          | excluded _ refused failed => exact ⟨_, failed, iff_of_true nofun refused⟩
          | won _ ranked winner scored reached wins =>
              have eligible := (eligible_iff_scored (scores winner wins.member)).mpr ⟨scored, wins.run⟩
              exact ⟨_, reached, iff_of_false (fun none => none ranked rfl) fun none => none winner wins.member eligible⟩

end Winner

def sampled (count : UInt64) : FactorEvidence :=
  ⟨.known 800000, .known 500000, count, 1, scoreOne, scoreOne, scoreOne, true⟩

def offering (id : Nat) (count : UInt64) (enforced : Bool) : RankingCandidate where
  adapterId := 1
  routeOfferingId := id
  adapterEnabled := true
  adapterManifestGeneration := 1
  hardConstraintSatisfied := true
  stableKey := id
  preferenceRank := 0
  quality := sampled count
  contextFit := sampled count
  toolingFit := sampled count
  reliability := sampled count
  expectedTotalCost := .known 5
  expectedLatency := .unknown
  locality := sampled count
  healthReliability := scoreOne
  networkEnforcementOk := enforced
  noNetworkRequired := true

def anyRoute : RankingRequest where
  profile := .balanced
  floors := {}
  costBands := ⟨10, 20, 30⟩
  latencyBands := ⟨10, 20, 30⟩
  localLearningEnabled := false
  requiredCapabilityBits := 0
  boundEvidenceBits := 0
  refuseSilentTextOnly := true

def verifiedBaseline : BaselineCalibration := ⟨baselineArtifactId, baselineArtifactSha256, true⟩

theorem admitted_offering (id : Nat) (count : UInt64) : Admitted anyRoute (offering id count true) where
  evidence := rfl
  network _ := rfl
  quality _ set := by cases set
  reliability _ set := by cases set
  contextFit _ set := by cases set
  toolingFit _ set := by cases set
  cost spent known := by
    cases known
    decide
  latency _ known := by cases known

theorem computed_offering (id : Nat) (count : UInt64) (counted : (sampled count).Divides) :
    Computed anyRoute (offering id count true) := by
  intro _ _ _ _
  exact ⟨fun set => absurd rfl set, fun _ => ⟨fun set => absurd rfl set, fun _ => ⟨fun set => absurd rfl set,
    fun _ => ⟨fun set => absurd rfl set, fun _ _ _ => ⟨counted, counted, counted, counted, counted⟩⟩⟩⟩⟩

theorem rankV1_sound_two :
    verifiedBaseline.bound anyRoute = true ∧
      (∀ candidate ∈ [offering 1 9 true, offering 2 3 true], Computed anyRoute candidate) ∧
      ∃ result, rankV1 [offering 1 9 true, offering 2 3 true] anyRoute verifiedBaseline = some result := by
  have bound : verifiedBaseline.bound anyRoute = true := by decide
  have computed : ∀ candidate ∈ [offering 1 9 true, offering 2 3 true], Computed anyRoute candidate := by
    intro candidate inside
    simp only [List.mem_cons, List.not_mem_nil, or_false] at inside
    rcases inside with rfl | rfl
    · exact computed_offering 1 9 fun _ => by decide
    · exact computed_offering 2 3 fun _ => by decide
  obtain ⟨result, ranking, _⟩ := (rankV1_sound [offering 1 9 true, offering 2 3 true] anyRoute verifiedBaseline
    (by decide)).2.2.2.mpr (.inl ⟨bound, computed⟩)
  exact ⟨bound, computed, result, ranking⟩

/-- One more sample than a word counts, and the candidate next to it is lost. -/
theorem rankV1_panics : Eligible anyRoute (offering 1 9 true) ∧
    rankV1 [offering 1 9 true, offering 2 18446744073709551615 true] anyRoute verifiedBaseline = none :=
  ⟨⟨rfl, rfl, admitted_offering 1 9⟩, Option.isNone_iff_eq_none.mp (by decide +kernel)⟩

inductive BaselineError where
  | hashMismatch
  | forbiddenPocDefaults
  deriving Repr, DecidableEq

/-- The digest is that of the artifact that is built in. -/
def loadVerifiedBaseline (digest : String) : Except BaselineError BaselineCalibration :=
  if digest ≠ baselineArtifactSha256 then .error .hashMismatch
  else if digest = forbiddenSyntheticPocSha256 then .error .forbiddenPocDefaults
  else .ok ⟨baselineArtifactId, baselineArtifactSha256, true⟩

def resolvePinned (pinned : Nat) (candidates : List RankingCandidate) (request : RankingRequest)
    (baseline : BaselineCalibration) : Option (Except ResolveFailure RankedResolution) :=
  match candidates.find? fun candidate => candidate.routeOfferingId = pinned with
  | none => some (.error .targetUnavailable)
  | some candidate =>
      if !candidate.hardConstraintSatisfied then some (.error .targetUnavailable)
      else if !candidate.adapterEnabled then some (.error (.adapterDisabled candidate.adapterId))
      else (rankV1 candidates request baseline).map fun
        | .ok ranked => .ok ⟨target candidate .pinned, ranked.explanation⟩
        | .error _ => .ok ⟨target candidate .pinned,
            ⟨baseline.artifactId, baseline.artifactSha256, request.profile, 0, []⟩⟩

def resolveWithV1Ranking (digest : String) (pin : Option Nat) (candidates : List RankingCandidate)
    (request : RankingRequest) : Option (Except ResolveFailure RankedResolution) :=
  match loadVerifiedBaseline digest, pin with
  | .error _, _ => some (.error .baselineIntegrity)
  | .ok baseline, some pinned => resolvePinned pinned candidates request baseline
  | .ok baseline, none =>
      match candidates.countP fun candidate => candidate.adapterEnabled && candidate.hardConstraintSatisfied with
      | 0 => some (.error .noRoute)
      | 1 => (rankV1 candidates request baseline).map fun ranked => ranked.map fun resolution =>
          { resolution with target := { resolution.target with selectionKind := .singleton } }
      | _ => rankV1 candidates request baseline

section Pin

variable {digest : String} {pinned : Nat} {candidates : List RankingCandidate} {request : RankingRequest}
  {baseline : BaselineCalibration} {ranked : RankedResolution}

theorem bound_of_loaded (loaded : loadVerifiedBaseline digest = .ok baseline) : baseline.bound request = true := by
  simp only [loadVerifiedBaseline] at loaded
  split at loaded
  · cases loaded
  · split at loaded
    · cases loaded
    · cases loaded
      simp [BaselineCalibration.bound]

theorem resolvePinned_eq_ok (decided : resolvePinned pinned candidates request baseline = some (.ok ranked)) :
    ∃ candidate result, candidates.find? (fun candidate => candidate.routeOfferingId = pinned) = some candidate ∧
      candidate.hardConstraintSatisfied = true ∧ candidate.adapterEnabled = true ∧
      rankV1 candidates request baseline = some result ∧ ranked.target = target candidate .pinned := by
  simp only [resolvePinned] at decided
  split at decided
  · cases decided
  · rename_i candidate found
    split at decided
    · cases decided
    · split at decided
      · cases decided
      · rename_i satisfied enabled
        obtain ⟨result, ranking, made⟩ := Option.map_eq_some_iff.mp decided
        refine ⟨candidate, result, found, by simpa using satisfied, by simpa using enabled, ranking, ?_⟩
        cases result <;> cases made <;> rfl

/-- The candidate that a pin decides for is eligible exactly if it meets the requirements that the pin does not look
at. -/
theorem pin_sound (digest : String) (pinned : Nat) (candidates : List RankingCandidate) (request : RankingRequest)
    (ranked : RankedResolution)
    (decided : resolveWithV1Ranking digest (some pinned) candidates request = some (.ok ranked)) :
    ∃ candidate, candidates.find? (fun candidate => candidate.routeOfferingId = pinned) = some candidate ∧
      ranked.target = target candidate .pinned ∧
      ((∃ scored, (request.score candidate).run = some (.ok scored)) ↔ Admitted request candidate) := by
  cases loaded : loadVerifiedBaseline digest with
  | error failure => simp [resolveWithV1Ranking, loaded] at decided
  | ok baseline =>
      simp only [resolveWithV1Ranking, loaded] at decided
      obtain ⟨candidate, result, found, satisfied, enabled, ranking, chosen⟩ := resolvePinned_eq_ok decided
      have scores := scores_of_ranked (bound_of_loaded loaded) ranking candidate (List.mem_of_find?_eq_some found)
      refine ⟨candidate, found, chosen, ?_⟩
      rw [← eligible_iff_scored scores]
      exact ⟨Eligible.admitted, fun admitted => ⟨enabled, satisfied, admitted⟩⟩

end Pin

theorem exists_of_isOk {ε α : Type} {result : Option (Except ε α)} (done : result.any Except.isOk = true) :
    ∃ value, result = some (.ok value) := by
  cases result with
  | none => cases done
  | some outcome =>
      cases outcome with
      | error failure => cases done
      | ok value => exact ⟨value, rfl⟩

def flooredRoute : RankingRequest := { anyRoute with floors := { quality := some 600000 } }

def threeOfferings : List RankingCandidate := [offering 1 9 true, offering 2 3 true, offering 3 0 true]

/-- Under a floor for the quality a pin finds a candidate of three that meets it, and one without samples, which does
not. -/
theorem pin_sound_floor :
    (∃ ranked, resolveWithV1Ranking baselineArtifactSha256 (some 2) threeOfferings flooredRoute = some (.ok ranked) ∧
      ranked.target = target (offering 2 3 true) .pinned ∧ Admitted flooredRoute (offering 2 3 true)) ∧
    ∃ ranked, resolveWithV1Ranking baselineArtifactSha256 (some 3) threeOfferings flooredRoute = some (.ok ranked) ∧
      ranked.target = target (offering 3 0 true) .pinned ∧ ¬ Admitted flooredRoute (offering 3 0 true) := by
  have runs (id : Nat) := @exists_of_isOk _ _
    (resolveWithV1Ranking baselineArtifactSha256 (some id) threeOfferings flooredRoute)
  obtain ⟨ranked, decided⟩ := runs 2 (by decide +kernel)
  obtain ⟨other, decidedToo⟩ := runs 3 (by decide +kernel)
  obtain ⟨candidate, found, chosen, admitted⟩ := pin_sound _ 2 _ _ ranked decided
  obtain ⟨excluded, foundToo, chosenToo, refused⟩ := pin_sound _ 3 _ _ other decidedToo
  cases found
  cases foundToo
  refine ⟨⟨ranked, decided, chosen, admitted.mp (exists_of_isOk (by decide +kernel))⟩, other, decidedToo, chosenToo, ?_⟩
  intro meets
  obtain ⟨scored, run⟩ := refused.mpr meets
  have none : (flooredRoute.score (offering 3 0 true)).run.any Except.isOk = false := by decide +kernel
  rw [run] at none
  cases none

/-- A pin gives the work to a route that does not keep it off the network. -/
theorem pin_unenforced : ∃ ranked,
    resolveWithV1Ranking baselineArtifactSha256 (some 1) [offering 1 9 false] anyRoute = some (.ok ranked) ∧
    ranked.target = target (offering 1 9 false) .pinned ∧
    (anyRoute.score (offering 1 9 false)).run = some (.error "no_network_unenforced") := by
  have pinned : decision (resolveWithV1Ranking baselineArtifactSha256 (some 1) [offering 1 9 false] anyRoute) =
      some (.ok (target (offering 1 9 false) .pinned, 0)) := by decide +kernel
  obtain ⟨ranked, decided, chosen, -⟩ := decision_eq_ok.mp pinned
  exact ⟨ranked, decided, chosen, rfl⟩

end Seyal.Agent.Routing
