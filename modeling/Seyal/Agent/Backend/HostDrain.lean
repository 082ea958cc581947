import Seyal.Agent.Backend.ObservationCommits

namespace Seyal.Agent.Backend

open Program Run

/-! Observations on their way from the host of a run to the log. -/

/-- The session and, for each run, whether its host is tracked, what its host buffers, and what it ever emitted. -/
structure HostedRuns where
  session : ObservationSession := {}
  active : AgentRunId → Bool
  buffer : AgentRunId → List HostObservation := fun _ => []
  emitted : AgentRunId → List HostObservation := fun _ => []

inductive HostAction where
  | emit (runId : AgentRunId) (kind : HostObservationKind)
  | drain (bindings : Bindings) (runId : AgentRunId)

namespace HostedRuns

section Actions

variable (accepts : Nat → Bool) (generations : AgentRunId → BindingGeneration)

def emit (hosted : HostedRuns) (runId : AgentRunId) (kind : HostObservationKind) : HostedRuns :=
  if hosted.active runId then
    let observation := ⟨runId, generations runId, (hosted.emitted runId).length + 1, kind⟩
    { hosted with
      buffer := Function.update hosted.buffer runId (hosted.buffer runId ++ [observation])
      emitted := Function.update hosted.emitted runId (hosted.emitted runId ++ [observation]) }
  else hosted

def drainHostObservations (bindings : Bindings) (runId : AgentRunId) : Run HostedRuns CommandError Unit := do
  let hosted ← get
  if hosted.active runId then do
    -- `observe` takes the whole buffer before anything is committed.
    set { hosted with buffer := Function.update hosted.buffer runId [] }
    Run.zoom session (fun hosted session => { hosted with session })
      (ObservationSession.commitObservationBatch accepts bindings (hosted.buffer runId))
    let after ← get
    if after.session.authority.liveness runId = .knownTerminated ∨
        after.session.authority.liveness runId = .unknownAfterCrash then
      set { after with active := Function.update after.active runId false }

/-- The state after an action; `none` is a panic. The result of a drain is for its caller. -/
def act (hosted : HostedRuns) : HostAction → Option HostedRuns
  | .emit runId kind => some (hosted.emit generations runId kind)
  | .drain bindings runId => (drainHostObservations accepts bindings runId hosted).map Prod.snd

def acts (hosted : HostedRuns) (actions : List HostAction) : Option HostedRuns :=
  actions.foldlM (act accepts generations) hosted

end Actions

/-- The payload of the observation, if it has one, fits an event. -/
def Small (observation : HostObservation) : Prop :=
  ∀ payload, observationPayload observation = some payload → payload.length ≤ maxPayload

/-- Observations of the run that can be committed one after the other, from this ordinal on. -/
def Ready (bindings : Bindings) (runId : AgentRunId) : Nat → List HostObservation → Prop
  | _, [] => True
  | next, observation :: rest =>
      (observation.runId = runId ∧ bindings runId = some observation.bindingGeneration ∧ observation.ordinal = next ∧
        observation.ordinal + 1 < 2 ^ 64 ∧ Small observation) ∧ Ready bindings runId (next + 1) rest

variable {accepts : Nat → Bool} {bindings : Bindings} {runId : AgentRunId}

theorem ready_append {next : Nat} (first second : List HostObservation) :
    Ready bindings runId next (first ++ second) ↔
      Ready bindings runId next first ∧ Ready bindings runId (next + first.length) second := by
  induction first generalizing next with
  | nil => simp [Ready]
  | cons observation first ih =>
      simp only [List.cons_append, Ready, ih, List.length_cons, and_assoc]
      rw [show next + 1 + first.length = next + (first.length + 1) by omega]

theorem Ready.run {next : Nat} {observations : List HostObservation} (ready : Ready bindings runId next observations) :
    ∀ observation ∈ observations, observation.runId = runId := by
  induction observations generalizing next with
  | nil => exact List.forall_mem_nil _
  | cons observation rest ih =>
      intro other member
      rcases List.mem_cons.mp member with rfl | later
      · exact ready.1.1
      · exact ih ready.2 other later

section Complete

open ObservationSession ObservationAuthority

/-- The ordinal that the authority expects next of the run. -/
abbrev nextOf (runId : AgentRunId) (observations : List HostObservation) : Nat :=
  (ofRun runId observations).length + 1

theorem nextOf_append {before more : List HostObservation} (run : ∀ observation ∈ more, observation.runId = runId) :
    nextOf runId (before ++ more) = nextOf runId before + more.length := by
  have all : ofRun runId more = more := List.filter_eq_self.mpr fun observation member => by simp [run observation member]
  have split : ofRun runId (before ++ more) = ofRun runId before ++ ofRun runId more := List.filter_append ..
  rw [nextOf, nextOf, split, List.length_append, all]
  omega

theorem takes_of_ready {authority : ObservationAuthority} {before rest : List HostObservation}
    {observation : HostObservation} (took : Took authority before)
    (ready : Ready bindings runId (nextOf runId before) (observation :: rest)) :
    authority.Takes observation ∧ authority.apply observation bindings = .ok (authority.accepted observation) := by
  obtain ⟨⟨rfl, bound, next, fits, _⟩, _⟩ := ready
  have takes := took.takes next fits
  exact ⟨takes, apply_next bound takes⟩

theorem takeAll_of_ready {start : ObservationAuthority} {before fresh observations : List HostObservation}
    {group : OutputGroup} (holds : OutputGroup.Holds start before group fresh)
    (ready : Ready bindings runId (nextOf runId (before ++ fresh)) observations)
    (outputs : ∀ other ∈ observations, other.kind.isOutput = true) :
    ∃ after, OutputGroup.takeAll bindings group observations = (after, none) ∧
      OutputGroup.Holds start before after (fresh ++ observations) := by
  induction observations generalizing group fresh with
  | nil => exact ⟨group, rfl, by simpa using holds⟩
  | cons observation rest ih =>
      obtain ⟨takes, applied⟩ := takes_of_ready holds.took ready
      have counted := appliedCount_accepted takes
      obtain ⟨bytes, output⟩ := exists_output (outputs observation List.mem_cons_self)
      have one : ∀ other ∈ [observation], other.runId = runId := fun other member =>
        List.mem_singleton.mp member ▸ ready.1.1
      have next := ready.2
      rw [show 1 = [observation].length from rfl, ← nextOf_append one, List.append_assoc] at next
      obtain ⟨after, taken, last⟩ := ih (holds.push takes output) next
        (List.forall_mem_cons.mp outputs).2
      refine ⟨after, ?_, by simpa using last⟩
      rw [OutputGroup.takeAll, applied]
      simp only
      rw [if_neg (by omega)]
      exact taken

variable {session : ObservationSession} {committed : List (List HostObservation)}

theorem wp_commitGroup_of_ready {group : List HostObservation} (recorded : session.Recorded committed)
    (joined : Joined group) (ready : Ready bindings runId (nextOf runId committed.flatten) group) :
    wp (commitGroup accepts bindings group)
      (fun _ after => Asked accepts session after true ∧ after.Recorded (committed ++ [group]))
      (fun _ after => Asked accepts session after false ∧ after.Recorded committed) session := by
  rcases joined.cases with ⟨observation, rfl, plain⟩ | ⟨first, more, rfl, outputs, run⟩
  · obtain ⟨payload, encoded⟩ := exists_payload plain
    obtain ⟨takes, applied⟩ := takes_of_ready recorded.took ready
    have small := ready.1.2.2.2.2 payload encoded
    rw [commitGroup, if_neg (by simp [plain])]
    exact wp_commitObservation_of_takes recorded encoded (by omega) applied takes (fun _ => .intro) (fun _ => .intro)
  · rw [← List.append_nil committed.flatten] at ready
    obtain ⟨group, taken, holds⟩ := takeAll_of_ready (OutputGroup.holds_start recorded.took) ready outputs
    rw [commitGroup, if_pos (outputs first List.mem_cons_self)]
    exact wp_commitOutputGroup_of_taken recorded taken holds run (fun _ => .intro) (fun _ => .intro)

/-- The store took every event that it was asked for. -/
def Unrefused (accepts : Nat → Bool) (session : ObservationSession) : Prop :=
  ∀ count < session.appends, accepts count = true

theorem unrefused_of_asked {after : ObservationSession} {answer : Bool} (asked : Asked accepts session after answer) :
    Unrefused accepts after ↔ Unrefused accepts session ∧ answer = true := by
  rw [Unrefused, asked.appends, Nat.forall_lt_succ_right, asked.answer, Unrefused]

/-- Some of the observations are committed, and all of them exactly if no event was refused so far. -/
def Drains (accepts : Nat → Bool) (session : ObservationSession) (committed : List (List HostObservation))
    (observations : List HostObservation) (after : ObservationSession) : Prop :=
  ∃ more, after.Recorded (committed ++ more) ∧ more.flatten.Sublist observations ∧
    (Unrefused accepts after ↔ Unrefused accepts session ∧ observations.length ≤ more.flatten.length)

theorem wp_commitGroup_drains {group : List HostObservation} (recorded : session.Recorded committed)
    (joined : Joined group)
    (ready : Unrefused accepts session → Ready bindings runId (nextOf runId committed.flatten) group) :
    wp (commitGroup accepts bindings group) (fun _ => Drains accepts session committed group)
      (fun _ after => Drains accepts session committed group after ∧ ¬ Unrefused accepts after) session := by
  by_cases unrefused : Unrefused accepts session
  · refine wp_mono (wp_commitGroup_of_ready recorded joined (ready unrefused)) ?_ ?_
    · rintro _ after ⟨asked, stored⟩
      exact ⟨[group], stored, by simp, by simp [unrefused_of_asked asked]⟩
    · rintro _ after ⟨asked, same⟩
      have refused : ¬ Unrefused accepts after := by simp [unrefused_of_asked asked]
      obtain ⟨first, more, rfl, _⟩ := joined
      exact ⟨⟨[], by simpa using same, List.nil_sublist _, by simp [refused]⟩, refused⟩
  · have drains : ∀ after, Grown session committed group after →
        Drains accepts session committed group after ∧ ¬ Unrefused accepts after := by
      rintro after ⟨later, grown⟩
      have refused : ¬ Unrefused accepts after := fun all =>
        unrefused fun count less => all count (less.trans_le later)
      rcases grown with same | ⟨fresh, part, stored⟩
      · exact ⟨⟨[], by simpa using same, List.nil_sublist _, by simp [refused, unrefused]⟩, refused⟩
      · exact ⟨⟨[fresh], stored, by simpa using part, by simp [refused, unrefused]⟩, refused⟩
    exact wp_mono (wp_commitGroup recorded joined) (fun _ after grown => (drains after grown).1) (fun _ => drains)

theorem wp_commitGroups_drains {groups : List (List HostObservation)} (recorded : session.Recorded committed)
    (joined : ∀ group ∈ groups, Joined group)
    (ready : Unrefused accepts session → Ready bindings runId (nextOf runId committed.flatten) groups.flatten) :
    wp (Run.forEach (commitGroup accepts bindings) groups) (fun _ => Drains accepts session committed groups.flatten)
      (fun _ after => Drains accepts session committed groups.flatten after ∧ ¬ Unrefused accepts after) session := by
  induction groups generalizing session committed with
  | nil => exact ⟨[], by simpa using recorded, .slnil, by simp⟩
  | cons group groups ih =>
      have split : Unrefused accepts session → _ := fun unrefused => (ready_append ..).mp (ready unrefused)
      change wp (commitGroup accepts bindings group >>= fun _ => Run.forEach (commitGroup accepts bindings) groups) _ _ _
      rw [wp_bind, List.flatten_cons]
      refine wp_mono (wp_commitGroup_drains recorded (joined group List.mem_cons_self) fun open_ => (split open_).1) ?_ ?_
      · rintro _ middle ⟨here, stored, part, whole⟩
        have next : Unrefused accepts middle →
            Ready bindings runId (nextOf runId (committed ++ here).flatten) groups.flatten := by
          intro open_
          obtain ⟨before, all⟩ := whole.mp open_
          rw [List.flatten_append, part.eq_of_length_le all, nextOf_append (split before).1.run]
          exact (split before).2
        have both : ∀ last, Drains accepts middle (committed ++ here) groups.flatten last →
            Drains accepts session committed (group ++ groups.flatten) last := by
          rintro last ⟨more, all, rest, ends⟩
          have least := part.length_le
          have most := rest.length_le
          refine ⟨here ++ more, by simpa using all, by simpa using part.append rest, ?_⟩
          rw [ends, whole, List.flatten_append, List.length_append, List.length_append, and_assoc]
          exact and_congr_right fun _ => by omega
        exact wp_mono (ih stored (List.forall_mem_cons.mp joined).2 next)
          (fun _ => both) (fun _ last drains => ⟨both last drains.1, drains.2⟩)
      · rintro _ middle ⟨⟨here, stored, part, whole⟩, refused⟩
        refine ⟨⟨here, stored, part.trans (List.sublist_append_left ..), ?_⟩, refused⟩
        refine iff_of_false refused fun all => refused (whole.mpr ⟨all.1, ?_⟩)
        exact Nat.le_trans (by simp) all.2

end Complete

section Histories

open ObservationSession ObservationAuthority

variable {generations : AgentRunId → BindingGeneration} {hosted : HostedRuns}
  {committed : List (List HostObservation)} {count : Nat}

/-- What is emitted fits an event, and a drain checks the generation that the host stamps. -/
def Sound (generations : AgentRunId → BindingGeneration) : HostAction → Prop
  | .emit runId kind => ∀ ordinal, Small ⟨runId, generations runId, ordinal, kind⟩
  | .drain bindings runId => bindings runId = some (generations runId)

/-- Some observation that the host of the run emitted is neither in the log nor in its buffer. -/
def Lost (committed : List (List HostObservation)) (hosted : HostedRuns) (runId : AgentRunId) : Prop :=
  (ofRun runId committed.flatten).length + (hosted.buffer runId).length < (hosted.emitted runId).length

/-- Each run's observations are in the log or still in its buffer, unless the store refused an event. -/
structure Kept (accepts : Nat → Bool) (generations : AgentRunId → BindingGeneration) (count : Nat)
    (committed : List (List HostObservation)) (hosted : HostedRuns) : Prop where
  recorded : hosted.session.Recorded committed
  own : ∀ runId, ∀ observation ∈ hosted.buffer runId, observation.runId = runId
  split : Unrefused accepts hosted.session →
    ∀ runId, ofRun runId committed.flatten ++ hosted.buffer runId = hosted.emitted runId
  lost : ¬ Unrefused accepts hosted.session → ∃ runId, Lost committed hosted runId
  ready : ∀ runId (bindings : Bindings), bindings runId = some (generations runId) →
    Ready bindings runId 1 (hosted.emitted runId)
  bound : ∀ runId, (hosted.emitted runId).length ≤ count

theorem Kept.later (kept : Kept accepts generations count committed hosted) :
    Kept accepts generations (count + 1) committed hosted :=
  { kept with bound := fun runId => Nat.le_succ_of_le (kept.bound runId) }

theorem Kept.emit (kept : Kept accepts generations count committed hosted) (fits : count + 2 < 2 ^ 64)
    {kind : HostObservationKind} (sound : Sound generations (.emit runId kind)) :
    Kept accepts generations (count + 1) committed (hosted.emit generations runId kind) := by
  unfold HostedRuns.emit
  split
  next =>
    refine ⟨kept.recorded, fun other => ?_, fun open_ other => ?_, fun refused => ?_, fun other bindings bound => ?_,
      fun other => ?_⟩
    · by_cases same : other = runId
      · subst same
        simpa [or_imp, forall_and] using kept.own other
      · simpa [same] using kept.own other
    · by_cases same : other = runId
      · subst same
        simp [← kept.split open_]
      · simpa [same] using kept.split open_ other
    · obtain ⟨other, lost⟩ := kept.lost refused
      refine ⟨other, ?_⟩
      by_cases same : other = runId
      · subst same
        simpa [Lost, ← Nat.add_assoc] using lost
      · simpa [Lost, same] using lost
    · by_cases same : other = runId
      · subst same
        have few := kept.bound other
        simp only [Function.update_self, ready_append, Ready, and_true]
        exact ⟨kept.ready other bindings bound, trivial, bound, by omega, by omega, sound _⟩
      · simpa [same] using kept.ready other bindings bound
    · have few := kept.bound other
      by_cases same : other = runId
      · subst same
        simpa using few
      · simpa [same] using Nat.le_succ_of_le few
  next => exact kept.later

theorem ofRun_of_ne {other : AgentRunId} {observations : List HostObservation}
    (run : ∀ observation ∈ observations, observation.runId = runId) (different : other ≠ runId) :
    ofRun other observations = [] := by
  rw [ofRun, List.filter_eq_nil_iff]
  intro observation member
  simpa [run observation member] using different.symm

theorem Kept.drained (kept : Kept accepts generations count committed hosted) {session : ObservationSession}
    (drains : Drains accepts hosted.session committed (hosted.buffer runId) session) (active : AgentRunId → Bool) :
    ∃ more, Kept accepts generations count more
      ⟨session, active, Function.update hosted.buffer runId [], hosted.emitted⟩ := by
  obtain ⟨more, recorded, part, whole⟩ := drains
  have parts : ∀ other, ofRun other (committed ++ more).flatten =
      ofRun other committed.flatten ++ ofRun other more.flatten := fun other => by
    rw [List.flatten_append]
    exact List.filter_append ..
  have run : ∀ observation ∈ more.flatten, observation.runId = runId :=
    fun observation member => kept.own runId observation (part.subset member)
  have mine : ofRun runId more.flatten = more.flatten :=
    List.filter_eq_self.mpr fun observation member => by simp [run observation member]
  refine ⟨_, recorded, fun other => ?_, fun open_ other => ?_, fun refused => ?_, kept.ready, kept.bound⟩
  · by_cases same : other = runId
    · simp [same]
    · simpa [same] using kept.own other
  · obtain ⟨before, all⟩ := whole.mp open_
    rw [parts, ← kept.split before]
    by_cases same : other = runId
    · subst same
      rw [mine, part.eq_of_length_le all]
      simp
    · simp [ofRun_of_ne run same, same]
  · by_cases before : Unrefused accepts hosted.session
    · have fewer := mt (fun all => whole.mpr ⟨before, all⟩) refused
      refine ⟨runId, ?_⟩
      simp only [Lost, parts, mine, ← kept.split before, Function.update_self, List.length_append, List.length_nil]
      omega
    · obtain ⟨other, lost⟩ := kept.lost before
      refine ⟨other, ?_⟩
      by_cases same : other = runId
      · subst same
        have most := part.length_le
        simp only [Lost, parts, mine, Function.update_self, List.length_append, List.length_nil] at lost ⊢
        omega
      · simpa only [Lost, parts, ofRun_of_ne run same, List.append_nil, Function.update_of_ne same] using lost

theorem Kept.drain (kept : Kept accepts generations count committed hosted)
    (bound : bindings runId = some (generations runId)) :
    wp (drainHostObservations accepts bindings runId)
      (fun _ after => (∃ more, Kept accepts generations count more after) ∧
        (hosted.active runId = true → after.buffer runId = []))
      (fun _ after => (∃ more, Kept accepts generations count more after) ∧ ¬ Unrefused accepts after.session)
      hosted := by
  simp only [drainHostObservations, wp_bind, wp_get]
  cases tracked : hosted.active runId with
  | false => exact ⟨⟨_, kept⟩, fun absurd => Bool.noConfusion absurd⟩
  | true =>
      have ready : Unrefused accepts hosted.session →
          Ready bindings runId (nextOf runId committed.flatten) (outputGroups (hosted.buffer runId)).flatten := by
        intro open_
        have all := kept.ready runId bindings bound
        rw [← kept.split open_, ready_append, Nat.add_comm] at all
        rw [flatten_outputGroups]
        exact all.2
      have batch := wp_commitGroups_drains kept.recorded (fun group => joined_of_mem_outputGroups) ready
      rw [flatten_outputGroups] at batch
      simp only [if_true, wp_bind, wp_set, wp_zoom]
      refine wp_mono batch ?_ ?_
      · intro _ session drains
        rw [wp_get, wp_ite]
        split <;> exact ⟨kept.drained drains _, fun _ => by simp⟩
      · rintro _ session ⟨drains, refused⟩
        exact ⟨kept.drained drains _, refused⟩

theorem Kept.acts {actions : List HostAction} (kept : Kept accepts generations count committed hosted)
    (sound : ∀ action ∈ actions, Sound generations action) (fits : count + actions.length + 1 < 2 ^ 64) :
    ∃ after last, HostedRuns.acts accepts generations hosted actions = some after ∧
      Kept accepts generations (count + actions.length) last after := by
  induction actions generalizing hosted committed count with
  | nil => exact ⟨hosted, committed, rfl, kept⟩
  | cons action actions ih =>
      rw [List.length_cons] at fits
      obtain ⟨here, others⟩ := List.forall_mem_cons.mp sound
      have step : ∃ middle more, act accepts generations hosted action = some middle ∧
          Kept accepts generations (count + 1) more middle := by
        cases action with
        | emit runId kind => exact ⟨_, _, rfl, kept.emit (by omega) here⟩
        | drain bindings runId =>
            obtain ⟨outcome, after, ran, more, holds⟩ := exists_of_wp
              (wp_mono (kept.drain here) (fun _ _ => And.left) (fun _ _ => And.left))
            exact ⟨after, more, by rw [act, ran]; rfl, holds.later⟩
      obtain ⟨middle, more, ran, holds⟩ := step
      obtain ⟨after, last, rest, final⟩ := ih holds others (by omega)
      refine ⟨after, last, ?_, by rwa [List.length_cons, show count + (actions.length + 1) =
        count + 1 + actions.length by omega]⟩
      rw [HostedRuns.acts, List.foldlM_cons, ran]
      exact rest

/-- As long as the store took every event, a drain succeeds and brings all that the host emitted into the log. From the
    first event that it refused on, some observation is lost. -/
theorem drain_commits_all_emitted (accepts : Nat → Bool) (generations : AgentRunId → BindingGeneration)
    (active : AgentRunId → Bool) (actions : List HostAction) (bindings : Bindings) (runId : AgentRunId)
    (sound : ∀ action ∈ actions, Sound generations action) (bound : bindings runId = some (generations runId))
    (few : actions.length + 1 < 2 ^ 64) :
    ∃ hosted outcome after committed, acts accepts generations { active } actions = some hosted ∧
      drainHostObservations accepts bindings runId hosted = some (outcome, after) ∧
      List.Forall₂ Records committed after.session.events ∧
      (Unrefused accepts after.session → outcome = .ok () ∧
        (∀ other, ofRun other committed.flatten ++ after.buffer other = after.emitted other) ∧
        (hosted.active runId = true → ofRun runId committed.flatten = after.emitted runId)) ∧
      (¬ Unrefused accepts after.session → ∃ other, Lost committed after other) := by
  have start : Kept accepts generations 0 [] { active } :=
    ⟨⟨.nothing, .nil⟩, fun _ => List.forall_mem_nil _, fun _ _ => rfl,
      fun refused => absurd (fun _ => Nat.not_lt_zero _ |>.elim) refused,
      fun _ _ _ => trivial, fun _ => Nat.le_refl _⟩
  obtain ⟨hosted, earlier, ran, kept⟩ := start.acts sound (by omega)
  have drained := kept.drain bound
  obtain ⟨outcome, after, last, committed, holds⟩ := exists_of_wp
    (wp_mono drained (fun _ _ => And.left) (fun _ _ => And.left))
  refine ⟨hosted, outcome, after, committed, ran, last, holds.recorded.events, fun open_ => ?_, holds.lost⟩
  cases outcome with
  | error error => exact absurd open_ (wp_error drained last).2
  | ok value =>
      refine ⟨rfl, holds.split open_, fun tracked => ?_⟩
      rw [← holds.split open_, (wp_ok drained last).2 tracked, List.append_nil]

def twoRuns : List HostAction :=
  [.emit 1 .started, .emit 2 .started, .drain (fun _ => some 1) 1, .emit 1 (.output [7]), .emit 1 (.output [8]),
    .drain (fun _ => some 1) 2, .emit 2 (.progress 1), .emit 1 .knownSuccess]

/-- The store takes four events of two runs; the last drain asks for two of them. -/
theorem drain_commits_two_runs :
    ∃ hosted after committed,
      acts (· < 4) (fun _ => 1) { active := fun _ => true } twoRuns = some hosted ∧
      drainHostObservations (· < 4) (fun _ => some 1) 1 hosted = some (.ok (), after) ∧
      List.Forall₂ Records committed after.session.events ∧ ofRun 1 committed.flatten = after.emitted 1 := by
  have sound : ∀ action ∈ twoRuns, Sound (fun _ => 1) action := by
    simp only [twoRuns, List.forall_mem_cons]
    refine ⟨?_, ?_, rfl, ?_, ?_, rfl, ?_, ?_, List.forall_mem_nil _⟩
    all_goals
      intro ordinal payload encoded
      cases encoded <;>
        simp [maxPayload, absoluteMaxFrameSize, replayResultOverhead, replayEventOverhead, LittleEndian.width]
  obtain ⟨hosted, outcome, after, committed, ran, drained, records, kept, _⟩ :=
    drain_commits_all_emitted (· < 4) (fun _ => 1) (fun _ => true) twoRuns (fun _ => some 1) 1 sound rfl (by decide)
  have ends : ((acts (· < 4) (fun _ => 1) { active := fun _ => true } twoRuns).bind fun hosted =>
      (drainHostObservations (· < 4) (fun _ => some 1) 1 hosted).map fun after =>
        (hosted.active 1, after.2.session.appends)) = some (true, 4) := by
    decide +kernel
  simp only [ran, Option.bind_some, drained, Option.map_some, Option.some.injEq, Prod.mk.injEq] at ends
  obtain ⟨rfl, _, whole⟩ := kept fun count less => by simpa [ends.2] using less
  exact ⟨hosted, after, committed, ran, drained, records, whole ends.1⟩

/-- The store refuses one event and takes all later ones. The observation is gone from the host's buffer, and the
    authority waits for it for good. -/
theorem refused_append_loses_observations :
    ((acts (fun count => count ≠ 0) (fun _ => 1) { active := fun _ => true }
      [.emit 1 .started, .drain (fun _ => some 1) 1, .emit 1 (.progress 1), .drain (fun _ => some 1) 1,
        .drain (fun _ => some 1) 1]).map fun hosted =>
        (hosted.session.events, hosted.active 1, hosted.buffer 1, (hosted.emitted 1).map HostObservation.ordinal)) =
      some ([], true, [], [1, 2]) := by
  decide +kernel

end Histories

end HostedRuns

end Seyal.Agent.Backend
