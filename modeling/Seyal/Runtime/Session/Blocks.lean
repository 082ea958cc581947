import Seyal.Runtime.Session.Entry

namespace Seyal.Runtime

open Program Protocol Terminal

/-! The machines of an execution, its pending commands and its timeline stay in step. -/

namespace CommandBlockTimeline

variable {timeline room : CommandBlockTimeline} {scope other : BlockScope} {block : UInt64}

def isRunning (scope : BlockScope) (record : CommandBlockRecord) : Bool :=
  record.scope = scope ∧ record.lifecycle = .running

def runningIds (scope : BlockScope) (timeline : CommandBlockTimeline) : List UInt64 :=
  (timeline.records.filter (isRunning scope)).map CommandBlockRecord.id

theorem Evicted.running_eq (evicted : Evicted timeline room) : room.runningIds scope = timeline.runningIds scope := by
  induction evicted with
  | refl => rfl
  | tail _ last ih =>
      obtain ⟨front, record, back, whole, _, completed, left, _⟩ := evict_eq last
      rw [← ih, runningIds, runningIds, left, whole, List.filter_append, List.filter_append,
        List.filter_cons_of_neg (by simp [isRunning, completed])]

theorem Evicted.nodup (evicted : Evicted timeline room) (nodup : timeline.ids.Nodup) : room.ids.Nodup :=
  (evicted.sublist.map CommandBlockRecord.id).nodup nodup

/-- What a call to start a block does to the blocks that run. -/
structure Started (scope : BlockScope) (id : UInt64) (timeline : CommandBlockTimeline)
    (result : Except CommandBlockTimelineError Unit × CommandBlockTimeline) : Prop where
  nodup : timeline.ids.Nodup → result.2.ids.Nodup
  others : ∀ other ≠ scope, result.2.runningIds other = timeline.runningIds other
  here : result.2.runningIds scope = timeline.runningIds scope ++ (if result.1.isOk then [id] else [])

theorem start_outcome (id : UInt64) (command : List Char) (startLine : UInt64) (timeline : CommandBlockTimeline) :
    (∃ error room, timeline.start id command startLine = (.error error, room) ∧ Evicted timeline room) ∨
      ∃ room, timeline.start id command startLine = (.ok (), { room with
        records := room.records ++ [⟨id, command, startLine, none, .running, .local, .localTrusted, none⟩] }) ∧
          Evicted timeline room ∧ id ∉ timeline.ids := by
  rw [start]
  split
  next => exact .inl ⟨_, _, rfl, .refl⟩
  next =>
    split
    next => exact .inl ⟨_, _, rfl, .refl⟩
    next fresh =>
      have evicted := makeRoomFor_evicted (encodeUtf8 command).length timeline
      cases made : timeline.makeRoomFor (encodeUtf8 command).length with
      | mk enough room =>
          rw [made] at evicted
          cases enough with
          | false => exact .inl ⟨_, _, rfl, evicted⟩
          | true =>
              refine .inr ⟨room, rfl, evicted, fun held => ?_⟩
              obtain ⟨record, inside, same⟩ := List.mem_map.mp held
              exact fresh (List.any_eq_true.mpr ⟨record, inside, decide_eq_true same⟩)

theorem started_refused (id : UInt64) (error : CommandBlockTimelineError) (evicted : Evicted timeline room) :
    Started scope id timeline (.error error, room) :=
  ⟨evicted.nodup, fun _ _ => evicted.running_eq, by simp [Except.isOk, Except.toBool, evicted.running_eq]⟩

theorem started_behind {record : CommandBlockRecord} (evicted : Evicted timeline room)
    (fresh : record.id ∉ timeline.ids) (inScope : record.scope = scope) (running : record.lifecycle = .running) :
    Started scope record.id timeline (.ok (), { room with records := room.records ++ [record] }) := by
  refine ⟨fun nodup => ?_, fun other different => ?_, ?_⟩
  · rw [ids, List.map_append]
    refine List.nodup_append'.mpr ⟨evicted.nodup nodup, List.nodup_singleton _, ?_⟩
    intro held member new
    rw [List.map_singleton, List.mem_singleton] at new
    exact fresh (new ▸ (evicted.sublist.map CommandBlockRecord.id).subset member)
  · rw [← evicted.running_eq, runningIds, runningIds, List.filter_append, List.map_append,
      List.filter_cons_of_neg (by simp [isRunning, inScope, different.symm])]
    exact List.append_nil _
  · rw [← evicted.running_eq, runningIds, runningIds, List.filter_append, List.map_append,
      List.filter_cons_of_pos (by simp [isRunning, inScope, running])]
    rfl

theorem start_started (id : UInt64) (command : List Char) (startLine : UInt64) (timeline : CommandBlockTimeline) :
    Started .local id timeline (timeline.start id command startLine) := by
  rcases start_outcome id command startLine timeline with ⟨error, room, ran, evicted⟩ | ⟨room, ran, evicted, fresh⟩
  · rw [ran]
    exact started_refused id error evicted
  · rw [ran]
    exact @started_behind timeline room .local
      ⟨id, command, startLine, none, .running, .local, .localTrusted, none⟩ evicted fresh rfl rfl

theorem startSession_started (id : UInt64) (command : List Char) (startLine hostBlock : UInt64)
    (timeline : CommandBlockTimeline) :
    Started .session id timeline (timeline.startSession id command startLine hostBlock) := by
  rw [startSession]
  rcases start_outcome id command startLine timeline with ⟨error, room, ran, evicted⟩ | ⟨room, ran, evicted, fresh⟩
  · rw [ran]
    exact started_refused id error evicted
  · rw [ran]
    have absent : ∀ other ∈ room.records, decide (other.id = id) = false := by
      intro other member
      refine decide_eq_false fun same => fresh ?_
      exact same ▸ (evicted.sublist.map CommandBlockRecord.id).subset (List.mem_map_of_mem member)
    dsimp only
    rw [updateFirst_append absent (decide_eq_true rfl)]
    exact @started_behind timeline room .session
      ⟨id, command, startLine, none, .running, .session, .sessionTrusted, some hostBlock⟩ evicted fresh rfl rfl

theorem records_of_running (nodup : timeline.ids.Nodup) (running : timeline.runningIds scope = [block]) :
    ∃ front record back, timeline.records = front ++ record :: back ∧ record.id = block ∧ record.scope = scope ∧
      record.lifecycle = .running ∧ (∀ other ∈ front, other.id ≠ block) ∧
      (front.filter (isRunning scope)) = [] ∧ (back.filter (isRunning scope)) = [] := by
  have member : block ∈ timeline.runningIds scope := by rw [running]; exact List.mem_singleton_self _
  obtain ⟨record, kept, rfl⟩ := List.mem_map.mp member
  obtain ⟨inside, matches_⟩ := List.mem_filter.mp kept
  have both : record.scope = scope ∧ record.lifecycle = .running := by simpa [isRunning] using matches_
  obtain ⟨front, back, whole⟩ := List.append_of_mem inside
  refine ⟨front, record, back, whole, rfl, both.1, both.2, ?_, ?_⟩
  · rw [ids, whole, List.map_append, List.map_cons] at nodup
    intro other earlier same
    exact (List.nodup_append'.mp nodup).2.2 (List.mem_map_of_mem earlier) (same ▸ List.mem_cons_self)
  · rw [runningIds, whole, List.filter_append, List.filter_cons_of_pos matches_] at running
    have length := congrArg List.length running
    simp only [List.length_map, List.length_append, List.length_cons, List.length_nil] at length
    exact ⟨List.eq_nil_of_length_eq_zero (by omega), List.eq_nil_of_length_eq_zero (by omega)⟩

theorem completeSpan_running (nodup : timeline.ids.Nodup) (running : timeline.runningIds scope = [block])
    (startLine : Option UInt64) (endLine : UInt64) (exitStatus : Option (BitVec 32)) :
    (timeline.completeSpan block startLine endLine exitStatus).2.ids = timeline.ids ∧
      (timeline.completeSpan block startLine endLine exitStatus).2.runningIds scope = [] ∧
      ∀ other ≠ scope, (timeline.completeSpan block startLine endLine exitStatus).2.runningIds other =
        timeline.runningIds other := by
  obtain ⟨front, record, back, whole, rfl, rfl, lifecycle, absent, noneBefore, noneBehind⟩ :=
    records_of_running nodup running
  have found : timeline.records.find? (fun other => other.id = record.id) = some record := by
    rw [whole, List.find?_append, List.find?_eq_none.mpr fun other member => by simpa using absent other member]
    simp
  have changed : (timeline.completeSpan record.id startLine endLine exitStatus).2.records =
      front ++ (record.advance startLine).complete endLine exitStatus :: back := by
    rw [completeSpan, found]
    simp only [lifecycle, ne_eq, not_true_eq_false, if_false]
    rw [whole]
    exact updateFirst_append (fun other member => by simpa using absent other member) (by simp)
  have completed (other : BlockScope) :
      isRunning other ((record.advance startLine).complete endLine exitStatus) = false := by
    simp [isRunning, CommandBlockRecord.complete]
  refine ⟨?_, ?_, fun other different => ?_⟩
  · rw [ids, ids, changed, whole, List.map_append, List.map_append, List.map_cons, List.map_cons, id_completed]
  · rw [runningIds, changed, List.filter_append, List.filter_cons_of_neg (by simp [completed]), noneBefore, noneBehind]
    rfl
  · rw [runningIds, runningIds, changed, whole, List.filter_append, List.filter_append,
      List.filter_cons_of_neg (by simp [completed]), List.filter_cons_of_neg (by simp [isRunning, different.symm])]

end CommandBlockTimeline

open CommandBlockTimeline

namespace Session

/-- What an event can do: nothing to a block, give up the pending command, start its block, or complete the
block that runs. -/
theorem IntegrationState.on_cases (state : IntegrationState) (event : IntegrationEvent) :
    ((state.on event).effects = [] ∧ (state.on event).next.block = state.block ∧
        ((state.on event).next = .pending ↔ state = .pending)) ∨
      (state = .pending ∧ (state.on event).effects = [.dropPending] ∧ (state.on event).next.block = none ∧
        (state.on event).next ≠ .pending) ∨
      (state = .pending ∧ (state.on event).next = .running none ∧
        ∃ line, (state.on event).effects = [.startPendingBlock line]) ∨
      ((state.on event).next.block = none ∧ (state.on event).next ≠ .pending ∧
        ∃ block exit line, state = .running (some block) ∧ (state.on event).effects = [.complete block exit line]) := by
  unfold on
  cases state with
  | running block => cases block <;> cases event <;> simp [block]
  | _ => cases event <;> simp [block]

/-- The running blocks of the scope are the one that the machine runs, and a command is pending as the machine says. -/
structure Agrees (scope : BlockScope) (lane : Lane) : Prop where
  nodup : lane.timeline.ids.Nodup
  running : lane.timeline.runningIds scope = lane.integration.block.toList
  pending : lane.pending.isSome ↔ lane.integration = .pending

variable {scope : BlockScope} {start : Start} {lane : Lane}

theorem completeTimelineBlock_eq (env : Env) (block : UInt64) (exit : BlockExit) (line : Option UInt64)
    (timeline : CommandBlockTimeline) : ∃ startLine endLine exitStatus,
      (completeTimelineBlock env block exit line timeline).2 =
        (timeline.completeSpan block startLine endLine exitStatus).2 := by
  unfold completeTimelineBlock
  dsimp only
  split
  next ran => exact ⟨_, _, _, (congrArg Prod.snd ran).symm⟩
  next ran => exact ⟨_, _, _, (congrArg Prod.snd ran).symm⟩

theorem Agrees.apply (starts : ∀ id command line timeline,
      Started scope id timeline (start id command line timeline))
    (agrees : Agrees scope lane) (env : Env) (event : IntegrationEvent) :
    Agrees scope (lane.apply start env event).2 ∧
      ∀ other ≠ scope, (lane.apply start env event).2.timeline.runningIds other = lane.timeline.runningIds other := by
  obtain ⟨integration, pending, timeline⟩ := lane
  obtain ⟨nodup, running, waits⟩ := agrees
  dsimp only at nodup running waits
  rcases integration.on_cases event with ⟨effects, block, next⟩ | ⟨rfl, effects, block, next⟩ |
    ⟨rfl, next, line, effects⟩ | ⟨next, idle, block, exit, line, rfl, effects⟩
  · simp only [Lane.apply, effects, Lane.effects]
    exact ⟨⟨nodup, by rw [running, block], by rw [waits, next]⟩, fun _ _ => trivial⟩
  · simp only [Lane.apply, effects, Lane.effects, Lane.effect]
    exact ⟨⟨nodup, by rw [running, block]; rfl, by simp [next]⟩, fun _ _ => trivial⟩
  · obtain ⟨command, present⟩ := Option.isSome_iff_exists.mp (waits.mpr rfl)
    subst present
    have started := starts command.blockId command.command line timeline
    simp only [Lane.apply, effects, Lane.effects, Lane.effect, next]
    cases ran : start command.blockId command.command line timeline with
    | mk outcome after =>
        rw [ran] at started
        have here := started.here
        rw [running] at here
        cases outcome with
        | ok => exact ⟨⟨started.nodup nodup, here, by simp [IntegrationState.blockStarted]⟩, started.others⟩
        | error error => exact ⟨⟨started.nodup nodup, here, by simp⟩, started.others⟩
  · obtain ⟨startLine, endLine, exitStatus, same⟩ := completeTimelineBlock_eq env block exit line timeline
    obtain ⟨ids, none_, others⟩ :=
      completeSpan_running nodup running startLine endLine exitStatus
    simp only [Lane.apply, effects, Lane.effects, Lane.effect]
    rw [same]
    refine ⟨⟨ids ▸ nodup, none_.trans (by rw [next]; rfl), ?_⟩, others⟩
    constructor
    · intro present
      cases waits.mp present
    · exact fun stays => absurd stays idle

/-- Both machines agree with the timeline, and the session's machine rests while there is no trusted session. -/
structure Agreed (entry : Entry) : Prop where
  atLocal : Agrees .local entry.localLane
  atSession : Agrees .session entry.sessionLane
  rests : entry.session.isTrusted = false →
    entry.sessionRuntime.integration = .unproven ∨ entry.sessionRuntime.integration = .terminated

variable {entry : Entry} {event : IntegrationEvent}

open Run
open SshSpawn (ShellIntegrationToken)

theorem Agreed.noneRuns (agreed : Agreed entry) (untrusted : entry.session.isTrusted = false) :
    entry.timeline.runningIds .session = [] ∧ entry.sessionRuntime.pending = none := by
  have running := agreed.atSession.running
  have pending := agreed.atSession.pending
  simp only [Entry.sessionLane] at running pending
  rcases agreed.rests untrusted with rests | rests <;> rw [rests] at running pending
  · exact ⟨running, by simpa using pending⟩
  · exact ⟨running, by simpa using pending⟩

theorem Agreed.moved (agreed : Agreed entry) (untrusted : entry.session.isTrusted = false) (next : SessionOverlay) :
    Agreed { entry with session := next } :=
  ⟨agreed.atLocal, agreed.atSession, fun _ => agreed.rests untrusted⟩

theorem Agreed.renewed (agreed : Agreed entry) (untrusted : entry.session.isTrusted = false) (next : SessionOverlay)
    {runtime : SessionRuntime} (unproven : runtime.integration = .unproven) (idle : runtime.pending = none) :
    Agreed { entry with session := next, sessionRuntime := runtime } := by
  refine ⟨agreed.atLocal, ⟨agreed.atSession.nodup, ?_, ?_⟩, fun _ => .inl unproven⟩
  · simp only [Entry.sessionLane, unproven]
    exact (agreed.noneRuns untrusted).1
  · simp [Entry.sessionLane, unproven, idle]

theorem SessionOverlay.untrusted_of_on {overlay next : SessionOverlay} {event : SessionEvent}
    (moved : overlay.on event = some next) (goesOn : event ≠ .endSession) : overlay.isTrusted = false := by
  cases overlay with
  | trusted host =>
      cases event with
      | spawnArm other =>
          unfold SessionOverlay.on at moved
          simp [SessionOverlay.canSpawnArm] at moved
      | endSession => exact absurd rfl goesOn
      | _ => cases moved
  | _ => rfl

open SessionOverlay

theorem keeps_noteInputTarget : Keeps Agreed noteInputTarget :=
  .modify fun _ agreed => ⟨agreed.atLocal, agreed.atSession, agreed.rests⟩

theorem keeps_publish : Keeps Agreed publishComposerStatusIfChanged := keeps_noteInputTarget

theorem keeps_applyLocal (env : Env) (event : IntegrationEvent) :
    Keeps Agreed (applyLocalIntegrationEvent env event) := by
  intro entry agreed
  obtain ⟨here, others⟩ := agreed.atLocal.apply start_started env event
  exact ⟨here, ⟨here.nodup, (others .session nofun).trans agreed.atSession.running, agreed.atSession.pending⟩,
    agreed.rests⟩

theorem apply_ended (start : Start) (env : Env) (lane : Lane) :
    (lane.apply start env .executionEnded).2.integration = .terminated := by
  obtain ⟨integration, pending, timeline⟩ := lane
  cases integration with
  | running block => cases block <;> rfl
  | _ => rfl

theorem wp_applySession (env : Env) (agreed : Agreed entry)
    (trusted : entry.session.isTrusted = true ∨ event = .executionEnded) :
    wp (applySessionEffects env event) (fun _ after => Agreed after ∧ after.session = entry.session ∧
      (event = .executionEnded → after.sessionRuntime.integration = .terminated))
      (fun _ _ => False) entry := by
  obtain ⟨here, others⟩ := agreed.atSession.apply
    (fun id command line => startSession_started id command line
      (entry.session.hostBlock.getD 0)) env event
  have ended : event = .executionEnded →
      (entry.sessionLane.apply entry.startSession env event).2.integration = .terminated := by
    rintro rfl
    exact apply_ended _ env _
  refine ⟨⟨⟨here.nodup, (others .local nofun).trans agreed.atLocal.running, agreed.atLocal.pending⟩, here, ?_⟩, rfl,
    ended⟩
  intro untrusted
  rcases trusted with trusted | last
  · cases untrusted.symm.trans trusted
  · exact .inr (ended last)

theorem keeps_applySession (env : Env) {event : IntegrationEvent} (agreed : Agreed entry)
    (trusted : entry.session.isTrusted = true) :
    wp (applySessionEffects env event) (fun _ => Agreed) (fun _ => Agreed) entry :=
  wp_mono (wp_applySession env agreed (.inl trusted)) (fun _ _ after => after.1) fun _ _ => False.elim

theorem closeStep_clear {overlay : SessionOverlay} {kind : SessionClose} {delivered : Option Nat}
    (clears : closeStep overlay kind delivered = some .clear) : overlay.isTrusted = false := by
  cases overlay with
  | trusted host => cases kind <;> cases clears
  | _ => rfl

theorem keeps_closeSession (env : Env) (kind : SessionClose) : Keeps Agreed (closeSession env kind) := by
  refine Keeps.get fun entry agreed => ?_
  split
  next => exact agreed
  next step closes =>
    have settled : wp (closeEffects env step) (fun _ after => Agreed after ∧ after.session = entry.session ∧
          (after.sessionRuntime.integration = .unproven ∨ after.sessionRuntime.integration = .terminated))
        (fun _ => Agreed) entry := by
      rw [closeEffects, wp_ite]
      split
      next clear =>
        subst clear
        exact ⟨agreed, rfl, agreed.rests (closeStep_clear closes)⟩
      next =>
        exact wp_mono (wp_applySession env agreed (.inr rfl))
          (fun _ _ after => ⟨after.1, after.2.1, .inr (after.2.2 rfl)⟩) fun _ _ => False.elim
    rw [wp_bind]
    refine wp_mono settled (fun _ after still => ?_) fun _ _ => id
    obtain ⟨still, same, rests⟩ := still
    rw [wp_bind, wp_modify]
    refine (keeps_noteInputTarget.bind fun _ => keeps_publish) _ ?_
    refine ⟨still.atLocal, ⟨still.atSession.nodup, still.atSession.running, ?_⟩, fun _ => rests⟩
    rcases rests with rests | rests <;> simp [Entry.sessionLane, rests]

theorem keeps_considerSessionCandidate (env : Env) : Keeps Agreed (considerSessionCandidate env) := by
  refine Keeps.get fun entry agreed => ?_
  split
  next block _ =>
    rw [wp_ite]
    split
    next => exact agreed
    next fresh =>
      rw [wp_ite]
      split
      next => exact agreed
      next =>
        split
        next next moved =>
          rw [wp_bind, wp_modify]
          exact keeps_noteInputTarget _ (agreed.moved (untrusted_of_on moved nofun) next)
        next => exact agreed
  next => exact agreed

theorem keeps_expire (env : Env) : Keeps Agreed (expireSessionBootstraps env) := by
  refine Keeps.get fun entry agreed => ?_
  split
  next =>
    rw [wp_ite]
    split
    next => exact keeps_closeSession env .fail entry agreed
    next => exact agreed
  next => exact agreed

theorem keeps_detach (env : Env) : Keeps Agreed (abortBootstrapOnDetach env) := by
  refine Keeps.get fun entry agreed => ?_
  rw [wp_ite]
  split
  next => exact keeps_closeSession env .fail entry agreed
  next => exact agreed

theorem keeps_commitSpawnArm (arm : SpawnArm) (hostBlock : UInt64) : Keeps Agreed (commitSpawnArm arm hostBlock) := by
  refine Keeps.get fun entry agreed => ?_
  split
  next => exact agreed
  next next moved =>
    rw [wp_bind, wp_modify]
    exact keeps_noteInputTarget _ (agreed.renewed (untrusted_of_on moved nofun) next rfl rfl)

theorem keeps_endOrphanedSpawn (env : Env) : Keeps Agreed (endOrphanedSpawn env) := by
  refine Keeps.get fun entry agreed => ?_
  have closed := keeps_closeSession env .endSession entry agreed
  split
  next =>
    split
    next => exact agreed
    next =>
      rw [wp_ite]
      split
      next => exact closed
      next => exact agreed
    next => exact closed
  next => exact agreed

theorem keeps_beginArmedBootstrap (env : Env) : Keeps Agreed (beginArmedBootstrap env) := by
  refine Keeps.get fun entry agreed => ?_
  split
  next host generation armed =>
    have untrusted : entry.session.isTrusted = false := by rw [armed]; rfl
    rw [wp_bind]
    refine wp_check (fun challenge _ => ?_) fun _ _ => agreed
    rw [wp_bind]
    refine wp_check (fun secret _ => ?_) fun _ _ => agreed
    rw [wp_bind]
    refine wp_check (fun _ _ => ?_) fun _ _ => agreed
    rw [wp_bind, wp_modify]
    refine (keeps_noteInputTarget.bind fun _ => ?_) _ (agreed.renewed untrusted entry.session rfl rfl)
    split
    next => exact keeps_closeSession env .fail
    next => exact keeps_publish
  next => exact agreed

theorem keeps_offerSession (env : Env) (hostBlock : UInt64) : Keeps Agreed (offerSession env hostBlock) := by
  refine Keeps.get fun entry agreed => ?_
  rw [wp_ite]
  split
  next => exact agreed
  next =>
    rw [wp_ite]
    split
    next => exact keeps_publish entry agreed
    next =>
      split
      next => exact agreed
      next candidate found =>
        have untrusted : entry.session.isTrusted = false := by
          rw [candidateFor] at found
          split at found
          next same => rw [same]; rfl
          next => exact untrusted_of_on found nofun
        rw [wp_bind, wp_modify]
        split
        next => exact ⟨agreed.atLocal, agreed.atSession, agreed.rests⟩
        next offered _ =>
          rw [wp_bind, wp_modify]
          exact (keeps_noteInputTarget.bind fun _ => keeps_publish) _
            ⟨agreed.atLocal, agreed.atSession, fun _ => agreed.rests untrusted⟩

theorem keeps_answerOffer (env : Env) (accept : Bool) : Keeps Agreed (answerOffer env accept) := by
  cases accept with
  | true => exact keeps_beginArmedBootstrap env
  | false => exact keeps_noteInputTarget.bind fun _ => keeps_publish

theorem keeps_applySessionConsent (env : Env) (hostBlock offerGeneration presentationEpoch : UInt64) (accept : Bool) :
    Keeps Agreed (applySessionConsent env hostBlock offerGeneration presentationEpoch accept) := by
  refine Keeps.get fun entry agreed => ?_
  rw [wp_ite]
  split
  next => exact agreed
  next =>
    split
    next => exact agreed
    next next moved =>
      have untrusted : entry.session.isTrusted = false :=
        untrusted_of_on moved (by cases accept <;> nofun)
      rw [wp_bind, wp_modify]
      exact ((keeps_answerOffer env accept).bind fun _ => keeps_considerSessionCandidate env) _
        (agreed.moved untrusted next)

theorem keeps_clearOtherHost (block : UInt64) : Keeps Agreed (clearOtherHost block) := by
  refine Keeps.get fun entry agreed => ?_
  rw [wp_ite]
  split
  next =>
    split
    next next moved =>
      rw [wp_bind, wp_modify]
      exact keeps_noteInputTarget _ (agreed.moved (untrusted_of_on moved nofun) next)
    next => exact agreed
  next => exact agreed

theorem Agreed.retimed (agreed : Agreed entry) {runtime : SessionRuntime}
    (same : runtime.integration = entry.sessionRuntime.integration)
    (idle : runtime.pending = entry.sessionRuntime.pending) : Agreed { entry with sessionRuntime := runtime } := by
  have lane : ({ entry with sessionRuntime := runtime } : Entry).sessionLane = entry.sessionLane := by
    simp only [Entry.sessionLane, same, idle]
  exact ⟨agreed.atLocal, lane ▸ agreed.atSession, fun untrusted => same ▸ agreed.rests untrusted⟩

theorem keeps_acceptReadiness (env : Env) (token : ShellIntegrationToken) (shell : SessionShellKind) :
    Keeps Agreed (acceptReadiness env token shell) := by
  have closed : Keeps Agreed (do closeSession env .fail; return false) :=
    (keeps_closeSession env .fail).bind fun _ => .pure false
  refine Keeps.get fun entry agreed => ?_
  rw [wp_ite]
  split
  next => exact agreed
  next =>
    rw [wp_bind, wp_modify]
    split
    next => exact closed _ (agreed.retimed rfl rfl)
    next delivering found =>
      have untrusted : entry.session.isTrusted = false :=
        untrusted_of_on (Option.filter_eq_some_iff.mp found).1 nofun
      rw [wp_bind, wp_modify]
      refine (keeps_noteInputTarget.bind fun _ => ?_) _ ((agreed.moved untrusted delivering).retimed rfl rfl)
      split
      next => exact closed
      next =>
        exact (Keeps.modify fun _ agreed => agreed.retimed rfl rfl).bind fun _ =>
          keeps_publish.bind fun _ => .pure false

theorem keeps_trustSessionMarker (env : Env) (event : IntegrationEvent) :
    Keeps Agreed (trustSessionMarker env event) := by
  refine Keeps.get fun entry agreed => ?_
  split
  next host generation delivering =>
    rw [wp_ite]
    split
    next => exact agreed
    next =>
      split
      next => exact agreed
      next trusted moved =>
        have untrusted : entry.session.isTrusted = false := by rw [delivering]; rfl
        rw [delivering] at moved
        rw [wp_bind, wp_modify]
        refine keeps_applySession env ((agreed.moved untrusted trusted).retimed rfl rfl) ?_
        rw [← Option.some.inj moved]
        rfl
  next host trusted => exact keeps_applySession env agreed (by rw [trusted]; rfl)
  next => exact agreed

theorem keeps_noteStarted (env : Env) (block : Option UInt64) : Keeps Agreed (noteStarted env block) := by
  cases block with
  | some block => exact (keeps_clearOtherHost block).bind fun _ => keeps_considerSessionCandidate env
  | none => exact .pure ()

theorem keeps_endAtLocalMarker (env : Env) : Keeps Agreed (endAtLocalMarker env) := by
  refine Keeps.get fun entry agreed => ?_
  rw [wp_ite]
  split
  next => exact keeps_closeSession env .endSession entry agreed
  next => exact agreed

theorem keeps_applyLocalMarker (env : Env) (event : IntegrationEvent) : Keeps Agreed (applyLocalMarker env event) := by
  refine (keeps_endAtLocalMarker env).bind fun _ => Keeps.get fun entry agreed => ?_
  refine ((keeps_applyLocal env event).bind fun changed => Keeps.get fun after agreed => ?_) entry agreed
  exact ((keeps_noteStarted env _).bind fun _ => (keeps_endOrphanedSpawn env).bind fun _ => .pure changed) after agreed

theorem keeps_dispatchMarker (env : Env) (token : ShellIntegrationToken) (event : IntegrationEvent) :
    Keeps Agreed (dispatchMarker env token event) := by
  refine Keeps.get fun entry agreed => ?_
  split
  next => exact keeps_applyLocalMarker env event entry agreed
  next =>
    exact ((keeps_trustSessionMarker env event).bind fun _ => keeps_noteInputTarget.bind fun _ =>
      keeps_publish.bind fun _ => .pure false) entry agreed
  next => exact agreed

theorem keeps_dispatch (env : Env) (event : ShellIntegrationEvent) :
    Keeps Agreed (dispatchShellIntegrationEvent env event) := by
  cases event with
  | readiness token shell => exact keeps_acceptReadiness env token shell
  | promptStarted token | commandStarted token line | commandFinished token exitStatus line =>
      exact keeps_dispatchMarker env token _

theorem keeps_noteLocalScreen (env : Env) : Keeps Agreed (noteLocalScreen env) := by
  refine Keeps.get fun entry agreed => ?_
  rw [wp_ite]
  split
  next => exact keeps_applyLocal env _ entry agreed
  next => exact agreed

theorem keeps_noteSessionScreen (env : Env) : Keeps Agreed (noteSessionScreen env) := by
  refine Keeps.get fun entry agreed => ?_
  rw [wp_ite]
  split
  next shown => exact keeps_applySession env agreed shown.1
  next => exact agreed

theorem keeps_observe (events : List (Env × ShellIntegrationEvent)) (env : Env) :
    Keeps Agreed (observeShellIntegrationEvents events env) := by
  refine Keeps.bind (Keeps.forEach fun observed => ?_) fun _ => (keeps_noteLocalScreen env).bind fun _ =>
    (keeps_noteSessionScreen env).bind fun _ => keeps_publish
  exact (keeps_dispatch observed.1 observed.2).bind fun _ => .pure ()

theorem keeps_noteExecutionEnded (env : Env) : Keeps Agreed (noteExecutionEnded env) :=
  (keeps_closeSession env .endSession).bind fun _ => (keeps_applyLocal env _).bind fun _ => keeps_publish

theorem Agrees.submitted (agrees : Agrees scope lane) (ready : lane.integration = .atPrompt) (next : UInt64)
    (command : PendingComposerCommand) :
    Agrees scope ⟨.pending, some command, { lane.timeline with nextId := next }⟩ := by
  have running := agrees.running
  rw [ready] at running
  exact ⟨agrees.nodup, running, by simp⟩

theorem allocateId_ok {timeline after : CommandBlockTimeline} {block : UInt64}
    (allocated : timeline.allocateId = (.ok block, after)) : after = { timeline with nextId := block } := by
  unfold allocateId at allocated
  split at allocated
  next => cases allocated; rfl
  next => cases allocated

theorem keeps_submitSessionCommand (env : Env) (command : List Char) :
    Keeps Agreed (submitSessionCommand env command) := by
  refine Keeps.get fun entry agreed => ?_
  rw [wp_ite]
  split
  next => exact agreed
  next free =>
    push Not at free
    split
    next => exact agreed
    next =>
      rw [wp_bind]
      refine wp_check (fun _ _ => ?_) fun _ _ => agreed
      split
      next => exact agreed
      next block timeline allocated =>
        obtain rfl := allocateId_ok allocated
        rw [wp_bind, wp_modify]
        refine (keeps_noteInputTarget.bind fun _ => keeps_publish.bind fun _ => .pure _) _ ?_
        refine ⟨⟨agreed.atLocal.nodup, agreed.atLocal.running, agreed.atLocal.pending⟩,
          agreed.atSession.submitted free.2.1 block ⟨command, block⟩, fun untrusted => ?_⟩
        simp [untrusted] at free

theorem keeps_commitSpawn (block : UInt64) (spawn : Option SpawnArm) : Keeps Agreed (commitSpawn block spawn) := by
  cases spawn with
  | some arm => exact keeps_commitSpawnArm arm block
  | none => exact .pure ()

theorem wp_spawnFor (env : Env) (command : List Char) (targetGeneration : Option Nat) (entry : Entry) :
    wp (spawnFor env command targetGeneration) (fun _ after => after = entry) (fun _ after => after = entry) entry := by
  cases targetGeneration with
  | none => rfl
  | some _ =>
      rw [spawnFor, prepareSpawnArm, wp_bind, wp_get]
      split
      next => rfl
      next =>
        rw [wp_bind]
        refine wp_check (fun _ _ => ?_) fun _ _ => rfl
        rw [wp_bind]
        refine wp_check (fun _ _ => ?_) fun _ _ => rfl
        rw [wp_bind]
        exact wp_check (fun _ _ => rfl) fun _ _ => rfl

theorem keeps_submitLocalCommand (env : Env) (command : List Char) (targetGeneration : Option Nat) :
    Keeps Agreed (submitLocalCommand env command targetGeneration) := by
  refine Keeps.get fun entry agreed => ?_
  rw [wp_ite]
  split
  next => exact agreed
  next free =>
    push Not at free
    rw [wp_bind]
    refine wp_mono (wp_spawnFor env command targetGeneration entry) (fun spawn after same => ?_)
      fun _ _ same => same ▸ agreed
    subst same
    split
    next => exact agreed
    next =>
      rw [wp_bind]
      refine wp_check (fun _ _ => ?_) fun _ _ => agreed
      split
      next => exact agreed
      next block timeline allocated =>
        obtain rfl := allocateId_ok allocated
        rw [wp_bind, wp_modify]
        refine ((keeps_commitSpawn block spawn).bind fun _ => keeps_noteInputTarget.bind fun _ =>
          keeps_publish.bind fun _ => .pure _) _ ?_
        exact ⟨agreed.atLocal.submitted free.1 block ⟨command, block⟩,
          ⟨agreed.atSession.nodup, agreed.atSession.running, agreed.atSession.pending⟩, agreed.rests⟩

theorem keeps_submit (env : Env) (command : List Char) (targetGeneration : Option Nat) :
    Keeps Agreed (submitComposerCommandFenced env command targetGeneration) := by
  have sent (admission : ComposerAdmission) : Keeps Agreed (do check env.submitted; return admission) :=
    (Keeps.check env.submitted).bind fun _ => .pure admission
  intro entry agreed
  rw [submitComposerCommandFenced, wp_ite]
  split
  next => exact agreed
  next =>
    refine (keeps_noteInputTarget.bind fun _ => Keeps.get fun entry agreed => ?_) entry agreed
    split
    next => exact agreed
    next => exact agreed
    next => exact sent .relayed entry agreed
    next =>
      rw [wp_ite]
      split
      next => exact keeps_submitSessionCommand env command entry agreed
      next =>
        rw [wp_ite]
        split
        next => exact sent .unsupported entry agreed
        next => exact keeps_submitLocalCommand env command targetGeneration entry agreed

theorem keeps_run (operation : Operation) : Keeps Agreed operation.run := by
  cases operation with
  | observe events env => exact keeps_observe events env
  | directInput env => exact (keeps_applyLocal env _).bind fun _ => keeps_publish
  | candidateEdge env => exact (keeps_considerSessionCandidate env).bind fun _ => keeps_publish
  | attach env => exact keeps_considerSessionCandidate env
  | submit env command targetGeneration =>
      exact (keeps_submit env command targetGeneration).bind fun _ => .pure ()
  | offer env hostBlock => exact keeps_offerSession env hostBlock
  | consent env hostBlock offerGeneration presentationEpoch accept =>
      exact keeps_applySessionConsent env hostBlock offerGeneration presentationEpoch accept
  | deadlines env => exact keeps_expire env
  | detach env => exact keeps_detach env
  | ended env => exact keeps_noteExecutionEnded env

theorem keeps_play (agreed : Agreed entry) (operations : List Operation) :
    ∃ after, entry.play operations = some after ∧ Agreed after := by
  induction operations generalizing entry with
  | nil => exact ⟨entry, rfl, agreed⟩
  | cons operation rest ih =>
      obtain ⟨outcome, after, runs, agreed⟩ := exists_of_wp (keeps_run operation entry agreed)
      obtain ⟨last, played, agreed⟩ := ih agreed
      exact ⟨last, by simp [Entry.play, runs, played], agreed⟩

def Entry.starting (shellNonce : Option ShellIntegrationToken) (mode : ShellIntegrationMode) : Entry where
  shellNonce := shellNonce
  mode := mode

theorem Agreed.starting (shellNonce : Option ShellIntegrationToken) (mode : ShellIntegrationMode) :
    Agreed (.starting shellNonce mode) :=
  ⟨⟨List.nodup_nil, rfl, by simp [Entry.starting, Entry.localLane]⟩,
    ⟨List.nodup_nil, rfl, by simp [Entry.starting, Entry.sessionLane]⟩, fun _ => .inl rfl⟩

theorem Agrees.running_iff (agrees : Agrees scope lane) (block : UInt64) :
    lane.integration = .running (some block) ↔ lane.timeline.runningIds scope = [block] := by
  rw [agrees.running]
  cases lane.integration with
  | running running => cases running <;> simp [IntegrationState.block]
  | _ => simp [IntegrationState.block]

/-- Whatever the shell, the client and the session do to an execution, its machine runs a block
exactly while that block is the running one of its scope, and has a command exactly while it is
pending; the same is true in an open session, and without one nothing of the session runs. -/
theorem machines_agree (shellNonce : Option ShellIntegrationToken) (mode : ShellIntegrationMode)
    (operations : List Operation) :
    ∃ entry, (Entry.starting shellNonce mode).play operations = some entry ∧
      (∀ block, entry.integration = .running (some block) ↔ entry.timeline.runningIds .local = [block]) ∧
      (entry.pendingComposer.isSome ↔ entry.integration = .pending) ∧
      (entry.session.isTrusted = true →
        (∀ block, entry.sessionRuntime.integration = .running (some block) ↔
          entry.timeline.runningIds .session = [block]) ∧
        (entry.sessionRuntime.pending.isSome ↔ entry.sessionRuntime.integration = .pending)) ∧
      (entry.session.isTrusted = false → entry.timeline.runningIds .session = []) := by
  obtain ⟨entry, played, agreed⟩ := keeps_play (Agreed.starting shellNonce mode) operations
  refine ⟨entry, played, agreed.atLocal.running_iff, agreed.atLocal.pending, fun _ => ?_, fun untrusted => ?_⟩
  · exact ⟨agreed.atSession.running_iff, agreed.atSession.pending⟩
  · exact (agreed.noneRuns untrusted).1

end Session

end Seyal.Runtime
