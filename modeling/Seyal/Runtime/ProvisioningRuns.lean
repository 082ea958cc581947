import Seyal.Runtime.Provisioning

namespace Seyal.Runtime.Provisioning

open Program State

/-! What holds of the creates on every run. -/

/-- The connection of an admitted request has closed since. -/
def Outlived (log : List Event) (ticket : Nat) : Prop :=
  ∃ before token after, log = before ++ .closed token :: after ∧ ∃ requestId, .admitted ticket token requestId ∈ before

/-- Nothing was spawned since the turn began. -/
def Quiet (log : List Event) : Prop :=
  ∀ front back, log = front ++ back → .turn ∉ back → ∀ ticket, .spawned ticket ∉ back

/-- What an event says of the events in front of it. -/
def Allowed (before : List Event) : Event → Prop
  | .turn | .closed _ | .refused _ _ => True
  | .admitted ticket _ _ => ∀ other token requestId, .admitted other token requestId ∈ before → other < ticket
  | .served ticket => (∃ token requestId, .admitted ticket token requestId ∈ before) ∧ .served ticket ∉ before ∧
      ¬ Outlived before ticket ∧
      ∀ earlier token requestId, .admitted earlier token requestId ∈ before → earlier < ticket →
        .served earlier ∈ before ∨ Outlived before earlier
  | .spawned ticket => Quiet before ∧ ¬ Outlived before ticket
  | .answered ticket token result => .admitted ticket token result.requestId ∈ before ∧ .served ticket ∈ before ∧
      (∀ token result, .answered ticket token result ∉ before) ∧ ¬ Outlived before ticket

section Logs

variable {log : List Event} {event : Event} {ticket : Nat} {token : Token}

theorem outlived_snoc : Outlived (log ++ [event]) ticket ↔
    Outlived log ticket ∨ ∃ token requestId, event = .closed token ∧ .admitted ticket token requestId ∈ log := by
  constructor
  · rintro ⟨before, token, after, same, requestId, admitted⟩
    rcases List.eq_nil_or_concat after with rfl | ⟨front, last, rfl⟩
    · obtain ⟨rfl, equal⟩ := List.append_inj' same rfl
      cases equal
      exact .inr ⟨token, requestId, rfl, admitted⟩
    · rw [List.concat_eq_append, ← List.cons_append, ← List.append_assoc] at same
      exact .inl ⟨before, token, front, (List.append_inj' same rfl).1, requestId, admitted⟩
  · rintro (⟨before, token, after, rfl, found⟩ | ⟨token, requestId, rfl, admitted⟩)
    · exact ⟨before, token, after ++ [event], by simp, found⟩
    · exact ⟨log, token, [], rfl, requestId, admitted⟩

theorem quiet_nil : Quiet [] := by
  intro front back same
  simp_all

theorem quiet_turn (log : List Event) : Quiet (log ++ [.turn]) := by
  intro front back same noTurn other spawned
  rcases List.eq_nil_or_concat back with rfl | ⟨rest, last, rfl⟩
  · cases spawned
  · rw [List.concat_eq_append, ← List.append_assoc] at same
    cases (List.append_inj' same rfl).2
    exact noTurn (by simp)

theorem Quiet.snoc (quiet : Quiet log) (other : ∀ ticket, event ≠ .spawned ticket) : Quiet (log ++ [event]) := by
  intro front back same noTurn ticket spawned
  rcases List.eq_nil_or_concat back with rfl | ⟨rest, last, rfl⟩
  · cases spawned
  · rw [List.concat_eq_append, ← List.append_assoc] at same
    obtain ⟨here, equal⟩ := List.append_inj' same rfl
    cases equal
    rw [List.concat_eq_append, List.mem_append, List.mem_singleton] at spawned noTurn
    rcases spawned with before | last
    · exact quiet front rest here (fun turn => noTurn (.inl turn)) ticket before
    · exact other ticket last.symm

end Logs

/-- The requests in the queue and the one in hand, as the log has them. -/
structure Recorded (log : List Event) (next : Nat) (hand queue : List PendingCreate) : Prop where
  justified : Justified Allowed log
  fresh : ∀ ticket token requestId, .admitted ticket token requestId ∈ log → ticket < next
  admitted : ∀ pending ∈ hand ++ queue, .admitted pending.ticket pending.connectionToken pending.requestId ∈ log
  unique : ∀ pending ∈ hand ++ queue, ∀ token requestId, .admitted pending.ticket token requestId ∈ log →
    token = pending.connectionToken
  live : ∀ pending ∈ hand ++ queue, ¬ Outlived log pending.ticket
  unserved : ∀ pending ∈ queue, .served pending.ticket ∉ log
  served : ∀ pending ∈ hand, .served pending.ticket ∈ log
  unanswered : ∀ pending ∈ hand, ∀ token result, .answered pending.ticket token result ∉ log
  inOrder : queue.Pairwise fun first second => first.ticket < second.ticket
  settled : ∀ ticket token requestId, .admitted ticket token requestId ∈ log →
    (∃ pending ∈ hand ++ queue, pending.ticket = ticket) ∨ Outlived log ticket ∨
      .served ticket ∈ log ∧ ∃ result, .answered ticket token result ∈ log

namespace Recorded

variable {log : List Event} {next : Nat} {hand queue : List PendingCreate} {pending : PendingCreate} {token : Token}
  {event : Event} {ticket : Nat}

theorem initial : Recorded [] 0 [] [] := by
  constructor <;> simp [justified_nil]

theorem plain (recorded : Recorded log next hand queue)
    (other : event = .turn ∨ ∃ token result, event = .refused token result) :
    Recorded (log ++ [event]) next hand queue := by
  have allowed : Allowed log event := by
    rcases other with rfl | ⟨token, result, rfl⟩ <;> trivial
  have := recorded.justified.snoc allowed
  cases recorded
  constructor
  all_goals grind [outlived_snoc]

theorem served_admitted (recorded : Recorded log next hand queue) (member : .served ticket ∈ log) :
    ∃ token requestId, .admitted ticket token requestId ∈ log := by
  obtain ⟨before, after, rfl⟩ := List.append_of_mem member
  obtain ⟨⟨token, requestId, admitted⟩, -⟩ := recorded.justified _ _ _ rfl
  exact ⟨token, requestId, List.mem_append_left _ admitted⟩

theorem answered_served {result : CreateExecutionResult} (recorded : Recorded log next hand queue)
    (member : .answered ticket token result ∈ log) : .served ticket ∈ log := by
  obtain ⟨before, after, rfl⟩ := List.append_of_mem member
  exact List.mem_append_left _ (recorded.justified _ _ _ rfl).2.1

theorem enqueue (recorded : Recorded log next [] queue) (fresh : pending.ticket = next) :
    Recorded (log ++ [.admitted next pending.connectionToken pending.requestId]) (next + 1) []
      (queue ++ [pending]) := by
  have unserved : .served next ∉ log := by
    intro served
    obtain ⟨token, requestId, admitted⟩ := recorded.served_admitted served
    exact (recorded.fresh _ _ _ admitted).ne rfl
  have live : ¬ Outlived log next := by
    rintro ⟨before, token, after, rfl, requestId, admitted⟩
    exact (recorded.fresh _ _ _ (List.mem_append_left _ admitted)).ne rfl
  have allowed : Allowed log (.admitted next pending.connectionToken pending.requestId) := recorded.fresh
  have := recorded.justified.snoc allowed
  cases recorded
  constructor
  all_goals grind [outlived_snoc]

theorem serve (recorded : Recorded log next [] (pending :: queue)) :
    Recorded (log ++ [.served pending.ticket]) next [pending] queue := by
  have allowed : Allowed log (.served pending.ticket) := by
    refine ⟨⟨_, _, recorded.admitted pending (by simp)⟩, recorded.unserved pending (by simp),
      recorded.live pending (by simp), ?_⟩
    -- those behind the head of the queue have greater tickets
    intro earlier token requestId admitted less
    have := (List.pairwise_cons.mp recorded.inOrder).1
    have := recorded.settled earlier token requestId admitted
    grind
  have unanswered : ∀ token result, .answered pending.ticket token result ∉ log := by
    intro token result answered
    exact recorded.unserved pending (by simp) (recorded.answered_served answered)
  have := recorded.justified.snoc allowed
  cases recorded
  constructor
  all_goals grind [outlived_snoc]

theorem spawn (recorded : Recorded log next [pending] queue) (quiet : Quiet log) :
    Recorded (log ++ [.spawned pending.ticket]) next [pending] queue := by
  have allowed : Allowed log (.spawned pending.ticket) := ⟨quiet, recorded.live pending (by simp)⟩
  have := recorded.justified.snoc allowed
  cases recorded
  constructor
  all_goals grind [outlived_snoc]

theorem answer {result : CreateExecutionResult} (recorded : Recorded log next [pending] queue)
    (same : result.requestId = pending.requestId) :
    Recorded (log ++ [.answered pending.ticket pending.connectionToken result]) next [] queue := by
  have allowed : Allowed log (.answered pending.ticket pending.connectionToken result) :=
    ⟨same ▸ recorded.admitted pending (by simp), recorded.served pending (by simp),
      recorded.unanswered pending (by simp), recorded.live pending (by simp)⟩
  have := recorded.justified.snoc allowed
  cases recorded
  constructor
  all_goals grind [outlived_snoc]

theorem close (recorded : Recorded log next hand queue) (mine : ∀ pending ∈ hand, pending.connectionToken = token) :
    Recorded (log ++ [.closed token]) next [] (queue.filter fun pending => pending.connectionToken ≠ token) := by
  have allowed : Allowed log (.closed token) := trivial
  have := recorded.justified.snoc allowed
  cases recorded
  constructor
  all_goals grind [outlived_snoc]

end Recorded

def queuedOf (line : List PendingCreate) (token : Token) : Nat :=
  line.countP fun pending => pending.connectionToken = token

@[grind =] theorem lookup_updateMeta {connections : Mapping Token ConnectionMeta} {token other : Token}
    {change : ConnectionMeta → ConnectionMeta} : (updateMeta connections token change).lookup other =
      if other = token then (connections.lookup token).map change else connections.lookup other := by
  unfold updateMeta
  cases found : connections.lookup token with
  | none | some value => grind

/-- The counters are those of the requests that hold a slot, and every connection is known on both sides. -/
structure Accounted (state : State) (line : List PendingCreate) : Prop where
  all : state.outstandingCreates = line.length
  each : ∀ token found, state.connections.lookup token = some found → found.outstandingCreates = queuedOf line token
  few : line.length ≤ maxOutstandingCreatesRuntime
  fewEach : ∀ token, queuedOf line token ≤ maxOutstandingCreatesPerConnection
  connected : ∀ pending ∈ line, (state.connections.lookup pending.connectionToken).isSome
  reached : ∀ token, (state.server.lookup token).isSome = (state.connections.lookup token).isSome

/-- Between `counted` and `hand` is the request that has no slot any more and no result yet. -/
structure Consistent (state : State) (counted hand : List PendingCreate) : Prop where
  accounted : Accounted state (counted ++ state.pendingCreates)
  recorded : Recorded state.log state.nextTicket hand state.pendingCreates

/-- Where the turn may still have its create, nothing waits and nothing was spawned in it. -/
def Idle (state : State) : Prop :=
  state.provisioningCreatedThisTurn = false → state.pendingCreates = [] ∧ Quiet state.log

structure Steady (state : State) : Prop where
  consistent : Consistent state [] []
  idle : Idle state

section Steps

variable {state : State} {pending : PendingCreate} {hand line : List PendingCreate} {token : Token} {sending : Sending}
  {events : List Event} {code : CreateExecutionResultCode} {executionId detailCode : Nat} {found : ConnectionMeta}
  {request : CreateExecutionRequest} {workspaceId : WorkspaceId}

@[simp] theorem pendingCreates_close : (state.closeLocalConnection token).pendingCreates =
    state.pendingCreates.filter fun pending => pending.connectionToken ≠ token := rfl

theorem queuedOf_filter {other : Token} (different : other ≠ token) :
    queuedOf (line.filter fun pending => pending.connectionToken ≠ token) other = queuedOf line other := by
  unfold queuedOf
  rw [List.countP_filter]
  apply List.countP_congr
  grind

theorem lookup_connections_close {other : Token} : (state.closeLocalConnection token).connections.lookup other =
    if other = token then none else state.connections.lookup other := by
  change ((updateMeta _ _ _).erase token).lookup other = _
  split
  next same => rw [same, AList.lookup_erase]
  next different => rw [AList.lookup_erase_ne different, lookup_updateMeta, if_neg different]

theorem lookup_server_close {other : Token} : (state.closeLocalConnection token).server.lookup other =
    if other = token then none else state.server.lookup other := by
  change (state.server.erase token).lookup other = _
  split
  next same => rw [same, AList.lookup_erase]
  next different => rw [AList.lookup_erase_ne different]

theorem Accounted.close (accounted : Accounted state state.pendingCreates) (token : Token) :
    Accounted (state.closeLocalConnection token) (state.closeLocalConnection token).pendingCreates where
  all := by
    have parts := List.length_eq_length_filter_add (l := state.pendingCreates)
      fun pending => pending.connectionToken = token
    change state.outstandingCreates - _ = _
    rw [pendingCreates_close, accounted.all]
    simp only [ne_eq, decide_not]
    omega
  each other found known := by
    rw [lookup_connections_close] at known
    split at known
    next => cases known
    next different => rw [pendingCreates_close, queuedOf_filter different, accounted.each other found known]
  few := (List.length_filter_le _ _).trans accounted.few
  fewEach other := List.filter_sublist.countP_le.trans (accounted.fewEach other)
  connected pending waits := by
    rw [pendingCreates_close, List.mem_filter, decide_eq_true_eq] at waits
    rw [lookup_connections_close, if_neg waits.2]
    exact accounted.connected pending waits.1
  reached other := by
    rw [lookup_connections_close, lookup_server_close]
    split
    next => rfl
    next => exact accounted.reached other

theorem Accounted.filter_eq (accounted : Accounted state line) (unknown : ¬ (state.connections.lookup token).isSome) :
    (line.filter fun pending => pending.connectionToken ≠ token) = line := by
  rw [List.filter_eq_self]
  intro pending waits
  have known := accounted.connected pending waits
  exact decide_eq_true fun same => unknown (same ▸ known)

theorem Consistent.close (consistent : Consistent state [] hand) (token : Token)
    (mine : ∀ pending ∈ hand, pending.connectionToken = token)
    (known : hand = [] ∨ (state.connections.lookup token).isSome) :
    Consistent (state.closeLocalConnection token) [] [] := by
  refine ⟨consistent.accounted.close token, ?_⟩
  by_cases there : (state.connections.lookup token).isSome
  · have closes : (state.closeLocalConnection token).log = state.log ++ [.closed token] := if_pos there
    rw [closes]
    exact consistent.recorded.close mine
  · have keeps : (state.closeLocalConnection token).log = state.log := if_neg there
    have same : state.pendingCreates.filter (fun pending => pending.connectionToken ≠ token) = state.pendingCreates :=
      consistent.accounted.filter_eq there
    rw [keeps, pendingCreates_close, same]
    cases known.resolve_right there
    exact consistent.recorded

theorem Accounted.note (accounted : Accounted state line) (events : List Event) :
    Accounted (state.note events) line := { accounted with }

/-- A frame is lost with its connection, or noted, and then the connection may go. -/
theorem sendMandatoryFrame_elim {motive : State → Prop}
    (closed : motive (state.closeLocalConnection token)) (noted : motive (state.note events))
    (broken : motive ((state.note events).closeLocalConnection token)) :
    motive (state.sendMandatoryFrame token sending events) := by
  unfold sendMandatoryFrame
  split
  next =>
    cases sending with
    | full => exact closed
    | broken => exact broken
    | queued => exact noted
  next => exact closed

theorem Consistent.send (consistent : Consistent state [] [])
    (plain : events = [] ∨ ∃ result, events = [.refused token result]) :
    Consistent (state.sendMandatoryFrame token sending events) [] [] := by
  have noted : Consistent (state.note events) [] [] := by
    refine ⟨consistent.accounted.note events, ?_⟩
    rcases plain with rfl | ⟨result, rfl⟩
    · rw [note, List.append_nil]
      exact consistent.recorded
    · exact consistent.recorded.plain (.inr ⟨token, result, rfl⟩)
  have none (state : State) (consistent : Consistent state [] []) := consistent.close token (by simp) (.inl rfl)
  exact sendMandatoryFrame_elim (motive := (Consistent · [] [])) (none _ consistent) noted (none _ noted)

theorem Consistent.answer {result : CreateExecutionResult} (consistent : Consistent state [] [pending])
    (known : (state.connections.lookup pending.connectionToken).isSome) (same : result.requestId = pending.requestId) :
    Consistent (state.sendMandatoryFrame pending.connectionToken sending
      [.answered pending.ticket pending.connectionToken result]) [] [] := by
  have answered : Consistent (state.note [.answered pending.ticket pending.connectionToken result]) [] [] :=
    ⟨consistent.accounted.note _, consistent.recorded.answer same⟩
  have closed := consistent.close pending.connectionToken (by simp) (.inr known)
  have broken := answered.close pending.connectionToken (by simp) (.inl rfl)
  exact sendMandatoryFrame_elim (motive := (Consistent · [] [])) closed answered broken

@[grind =] theorem queuedOf_cons : queuedOf (pending :: line) token =
    queuedOf line token + if pending.connectionToken = token then 1 else 0 := by
  simp only [queuedOf, List.countP_cons, decide_eq_true_eq]

theorem Consistent.release (consistent : Consistent state [pending] hand) :
    Consistent (state.releaseOutstandingCreate pending.connectionToken) [] hand := by
  obtain ⟨⟨all, each, few, fewEach, connected, reached⟩, recorded⟩ := consistent
  unfold releaseOutstandingCreate
  refine ⟨⟨?_, ?_, ?_, ?_, ?_, ?_⟩, recorded⟩
  · simp [all]
  · intro token found known
    rw [lookup_updateMeta] at known
    split at known
    next same =>
      obtain ⟨before, knownBefore, rfl⟩ := Option.map_eq_some_iff.mp known
      have counted := each _ before knownBefore
      grind
    next different =>
      have counted := each token found known
      grind
  · exact (Nat.le_succ _).trans few
  · exact fun token => (List.sublist_cons_self _ _).countP_le.trans (fewEach token)
  · intro other waits
    have before := connected other (List.mem_cons_of_mem _ waits)
    grind
  · intro token
    rw [reached, lookup_updateMeta]
    grind

theorem Accounted.there (accounted : Accounted state line) (known : (state.connections.lookup token).isSome) :
    state.localConnectionExists token = true := by
  rw [localConnectionExists, accounted.reached, known]
  rfl

theorem Consistent.finish (consistent : Consistent state [pending] [pending]) :
    Consistent (state.finishCreateResult pending code executionId detailCode sending) [] [] := by
  have released := consistent.release
  have known : ((state.releaseOutstandingCreate pending.connectionToken).connections.lookup
      pending.connectionToken).isSome := by
    have before := consistent.accounted.connected pending (by simp)
    simpa [releaseOutstandingCreate, lookup_updateMeta] using before
  unfold finishCreateResult
  rw [if_pos (released.accounted.there known)]
  exact released.answer known rfl

theorem runPendingCreate_eq (there : state.localConnectionExists pending.connectionToken = true) (env : Env) :
    ∃ (reached : State) (code : CreateExecutionResultCode) (executionId detailCode : Nat),
      (reached = { state with
          provisioningCreatedThisTurn := true, log := state.log ++ [Event.served pending.ticket] } ∨
        ∃ entries, reached = { state with
          provisioningCreatedThisTurn := true, entries := entries,
          log := state.log ++ [Event.served pending.ticket] ++ [Event.spawned pending.ticket] }) ∧
      state.runPendingCreate pending env = reached.finishCreateResult pending code executionId detailCode env.sending := by
  unfold runPendingCreate
  dsimp only
  split
  next => exact ⟨_, _, _, _, .inl rfl, rfl⟩
  split
  next => exact ⟨_, _, _, _, .inl rfl, rfl⟩
  split
  next => exact ⟨_, _, _, _, .inl rfl, rfl⟩
  cases env.creation with
  | created executionId warnings =>
      dsimp only
      split
      next => exact ⟨_, _, _, _, .inr ⟨_, rfl⟩, rfl⟩
      next gone => exact absurd there gone
  | rejected detailCode => exact ⟨_, _, _, _, .inr ⟨_, rfl⟩, rfl⟩
  | capacityExceeded | executionNotRunning | failed => exact ⟨_, _, _, _, .inr ⟨_, rfl⟩, rfl⟩

theorem Consistent.runPendingCreate {rest : List PendingCreate} (consistent : Consistent state [] [])
    (front : state.pendingCreates = pending :: rest) (quiet : Quiet state.log) (env : Env) :
    Consistent ({ state with pendingCreates := rest }.runPendingCreate pending env) [] [] := by
  have accounted : Accounted state (pending :: rest) := front ▸ consistent.accounted
  have served := (front ▸ consistent.recorded).serve
  have there := accounted.there (accounted.connected pending List.mem_cons_self)
  obtain ⟨reached, code, executionId, detailCode, before, same⟩ :=
    @runPendingCreate_eq { state with pendingCreates := rest } pending there env
  rw [same]
  apply Consistent.finish
  rcases before with rfl | ⟨entries, rfl⟩
  · exact ⟨{ accounted with }, served⟩
  · exact ⟨{ accounted with }, served.spawn (quiet.snoc (by simp))⟩

@[simp] theorem createdThisTurn_send :
    (state.sendMandatoryFrame token sending events).provisioningCreatedThisTurn =
      state.provisioningCreatedThisTurn := by
  unfold sendMandatoryFrame
  cases sending <;> split <;> rfl

theorem createdThisTurn_finish :
    (state.finishCreateResult pending code executionId detailCode sending).provisioningCreatedThisTurn =
      state.provisioningCreatedThisTurn := by
  unfold finishCreateResult
  dsimp only
  split
  next => exact createdThisTurn_send
  next => rfl

theorem Idle.close (idle : Idle state) (token : Token) : Idle (state.closeLocalConnection token) := by
  intro unused
  obtain ⟨empty, quiet⟩ := idle unused
  rw [pendingCreates_close, empty]
  refine ⟨rfl, ?_⟩
  unfold closeLocalConnection
  dsimp only
  split
  next => exact quiet.snoc (by simp)
  next => exact quiet

theorem Steady.close (steady : Steady state) (token : Token) : Steady (state.closeLocalConnection token) :=
  ⟨steady.consistent.close token (by simp) (.inl rfl), steady.idle.close token⟩

theorem Steady.send (steady : Steady state)
    (plain : events = [] ∨ ∃ result, events = [.refused token result]) :
    Steady (state.sendMandatoryFrame token sending events) := by
  have noted : Idle (state.note events) := by
    intro unused
    obtain ⟨empty, quiet⟩ := steady.idle unused
    refine ⟨empty, ?_⟩
    rcases plain with rfl | ⟨result, rfl⟩
    · rw [note, List.append_nil]
      exact quiet
    · exact quiet.snoc (by simp)
  exact ⟨steady.consistent.send plain, sendMandatoryFrame_elim (steady.idle.close token) noted (noted.close token)⟩

theorem Steady.runPendingCreate {rest : List PendingCreate} (consistent : Consistent state [] [])
    (front : state.pendingCreates = pending :: rest) (quiet : Quiet state.log) (env : Env) :
    Steady ({ state with pendingCreates := rest }.runPendingCreate pending env) := by
  refine ⟨consistent.runPendingCreate front quiet env, ?_⟩
  have accounted : Accounted state (pending :: rest) := front ▸ consistent.accounted
  have there := accounted.there (accounted.connected pending List.mem_cons_self)
  obtain ⟨reached, code, executionId, detailCode, before, same⟩ :=
    @runPendingCreate_eq { state with pendingCreates := rest } pending there env
  intro unused
  rw [same, createdThisTurn_finish] at unused
  rcases before with rfl | ⟨entries, rfl⟩ <;> cases unused

theorem Consistent.enqueue (consistent : Consistent state [] [])
    (known : state.connections.lookup pending.connectionToken = some found)
    (fewEach : found.outstandingCreates < maxOutstandingCreatesPerConnection)
    (few : state.outstandingCreates < maxOutstandingCreatesRuntime) (fresh : pending.ticket = state.nextTicket) :
    Consistent { state.reserve pending.connectionToken pending.requestId with
      pendingCreates := state.pendingCreates ++ [pending] } [] [] := by
  obtain ⟨accounted, recorded⟩ := consistent
  have counted : ∀ token, queuedOf (state.pendingCreates ++ [pending]) token =
      queuedOf state.pendingCreates token + if pending.connectionToken = token then 1 else 0 := by
    simp [queuedOf]
  unfold reserve
  refine ⟨⟨?_, ?_, ?_, ?_, ?_, ?_⟩, recorded.enqueue fresh⟩
  · simp [accounted.all]
  · intro token after knownAfter
    have before := accounted.each
    rw [lookup_updateMeta] at knownAfter
    grind
  · have before := accounted.all
    simp at before ⊢
    omega
  · intro token
    have mine := accounted.each _ found known
    have others := accounted.fewEach token
    grind
  · intro other waits
    have before := accounted.connected other
    grind
  · intro token
    have before := accounted.reached token
    grind

theorem Steady.accept (steady : Steady state) (known : state.connections.lookup token = some found)
    (fewEach : found.outstandingCreates < maxOutstandingCreatesPerConnection)
    (few : state.outstandingCreates < maxOutstandingCreatesRuntime) (env : Env) :
    Steady (state.accept token request workspaceId env) := by
  have admitted := @Consistent.enqueue state
    ⟨token, request.requestId, request.rows, request.columns, workspaceId, state.nextTicket⟩ found steady.consistent
    known fewEach few rfl
  unfold State.accept
  dsimp only
  split
  next used => exact ⟨admitted, fun unused => absurd (used.symm.trans unused) (by decide)⟩
  next unused =>
    -- nothing waits, so that the request is in front of the queue
    obtain ⟨empty, quiet⟩ := steady.idle (Bool.eq_false_of_not_eq_true unused)
    have front := Steady.runPendingCreate admitted (congrArg (· ++ [_]) empty) (quiet.snoc (by simp)) env
    rw [← empty] at front
    exact front

theorem admission_ok (admitted : state.admission found request = .ok workspaceId) :
    found.outstandingCreates < maxOutstandingCreatesPerConnection ∧
      state.outstandingCreates < maxOutstandingCreatesRuntime := by
  simp only [admission, bind_eq_ok, refuse_eq_ok, not_not] at admitted
  exact admitted.choose_spec.1

theorem Steady.relabel (steady : Steady state) (connections : Mapping Token ConnectionMeta)
    (same : ∀ token, (connections.lookup token).map ConnectionMeta.outstandingCreates =
      (state.connections.lookup token).map ConnectionMeta.outstandingCreates) :
    Steady { state with connections } := by
  obtain ⟨⟨⟨all, each, few, fewEach, connected, reached⟩, recorded⟩, idle⟩ := steady
  have known : ∀ token, (connections.lookup token).isSome = (state.connections.lookup token).isSome := by
    intro token
    rw [← Option.isSome_map, same token, Option.isSome_map]
  refine ⟨⟨⟨all, ?_, few, fewEach, ?_, ?_⟩, recorded⟩, idle⟩
  · intro token found lookup
    have before := same token
    rw [lookup, Option.map_some] at before
    obtain ⟨earlier, knownBefore, equal⟩ := Option.map_eq_some_iff.mp before.symm
    exact equal ▸ each token earlier knownBefore
  · exact fun pending waits => (known _).trans (connected pending waits)
  · exact fun token => (reached token).trans (known token).symm

theorem Steady.updateMeta {change : ConnectionMeta → ConnectionMeta} (steady : Steady state) (token : Token)
    (keeps : ∀ found, (change found).outstandingCreates = found.outstandingCreates) :
    Steady { state with connections := updateMeta state.connections token change } := by
  apply steady.relabel
  intro other
  rw [lookup_updateMeta]
  split
  next same =>
    subst same
    simp [Function.comp_def, keeps]
  next => rfl

theorem Steady.handle (steady : Steady state) (token : Token) (payload : List UInt8) (env : Env) :
    Steady (state.handleCreateExecutionRequest token payload env) := by
  unfold handleCreateExecutionRequest
  split
  next => exact steady.send (.inl rfl)
  split
  next => exact steady
  split
  next => exact steady.send (.inl rfl)
  split
  next => exact steady.send (.inl rfl)
  next => exact steady.send (.inr ⟨_, rfl⟩)
  next request found _ known =>
    split
    next => exact steady.send (.inr ⟨_, rfl⟩)
    have advanced := steady.relabel (state.connections.insert token
      { found with lastProvisioningRequestId := request.requestId }) (by grind)
    dsimp only
    split
    next => exact advanced.send (.inr ⟨_, rfl⟩)
    next admitted =>
      obtain ⟨fewEach, few⟩ := admission_ok admitted
      exact advanced.accept (AList.lookup_insert _) fewEach few env

theorem Steady.drain (consistent : Consistent state [] []) (unused : state.provisioningCreatedThisTurn = false)
    (quiet : Quiet state.log) (env : Env) : Steady (state.drainOnePendingCreate env) := by
  unfold drainOnePendingCreate
  rw [if_neg (by rw [unused]; decide)]
  split
  next empty => exact ⟨consistent, fun _ => ⟨empty, quiet⟩⟩
  next pending rest front => exact .runPendingCreate consistent front quiet env

theorem Steady.turn (steady : Steady state) (env : Env) : Steady (state.apply (.turn env)) := by
  have begun : Consistent state.beginTurn [] [] :=
    ⟨{ steady.consistent.accounted with }, steady.consistent.recorded.plain (.inl rfl)⟩
  exact .drain begun rfl (quiet_turn state.log) env

theorem Steady.connect (steady : Steady state) (token : Token) : Steady (state.connect token) := by
  unfold State.connect
  split
  next => exact steady
  next unused =>
    rw [Bool.or_eq_true, not_or] at unused
    obtain ⟨⟨⟨all, each, few, fewEach, connected, reached⟩, recorded⟩, idle⟩ := steady
    refine ⟨⟨⟨all, ?_, few, fewEach, ?_, ?_⟩, recorded⟩, idle⟩
    · intro other found known
      have none : queuedOf ([] ++ state.pendingCreates) token = 0 := by
        rw [queuedOf, List.countP_eq_zero]
        intro pending waits same
        exact unused.1 (of_decide_eq_true same ▸ connected pending waits)
      grind
    · grind
    · grind

theorem Steady.setState (steady : Steady state) (token : Token) (current : ConnectionState) :
    Steady (state.setState token current) := by
  unfold State.setState
  split
  next there =>
    obtain ⟨⟨⟨all, each, few, fewEach, connected, reached⟩, recorded⟩, idle⟩ := steady
    exact ⟨⟨⟨all, each, few, fewEach, connected, by grind⟩, recorded⟩, idle⟩
  next => exact steady

theorem Steady.apply (steady : Steady state) (operation : Operation) : Steady (state.apply operation) := by
  cases operation with
  | turn env => exact steady.turn env
  | create token payload env => exact steady.handle token payload env
  | connect token => exact steady.connect token
  | close token => exact steady.close token
  | setState token current => exact steady.setState token current
  | hello token capabilities | otherRequest token requestId => exact steady.updateMeta token fun _ => rfl
  | mint workspace | entriesBecome count | shutDown =>
      exact ⟨⟨{ steady.consistent.accounted with }, steady.consistent.recorded⟩, steady.idle⟩

theorem Steady.run (steady : Steady state) (operations : List Operation) : Steady (state.run operations) := by
  induction operations generalizing state with
  | nil => exact steady
  | cons operation operations ih => exact ih (steady.apply operation)

theorem Steady.initial (defaultWorkspace maxExecutions : Nat) (admittedWorkspaces : List WorkspaceId) :
    Steady (start defaultWorkspace maxExecutions admittedWorkspaces) := by
  refine ⟨⟨⟨rfl, ?_, ?_, ?_, ?_, ?_⟩, .initial⟩, fun _ => ⟨rfl, quiet_nil⟩⟩
  all_goals simp [start, queuedOf]

/-- The log goes on, and only those in line wait. -/
def Follows (log : List Event) (line : List PendingCreate) (after : State) : Prop :=
  log <+: after.log ∧ after.pendingCreates.Sublist line

theorem Follows.refl (state : State) : Follows state.log state.pendingCreates state :=
  ⟨List.prefix_rfl, List.Sublist.refl _⟩

theorem Follows.trans {log : List Event} {middle after : State} (first : Follows log line middle)
    (second : Follows middle.log middle.pendingCreates after) : Follows log line after :=
  ⟨first.1.trans second.1, second.2.trans first.2⟩

theorem follows_close : Follows state.log state.pendingCreates (state.closeLocalConnection token) := by
  refine ⟨?_, List.filter_sublist⟩
  unfold closeLocalConnection
  dsimp only
  split
  next => exact List.prefix_append _ _
  next => exact List.prefix_rfl

theorem follows_send :
    Follows state.log state.pendingCreates (state.sendMandatoryFrame token sending events) := by
  have noted : Follows state.log state.pendingCreates (state.note events) :=
    ⟨List.prefix_append _ _, List.Sublist.refl _⟩
  exact sendMandatoryFrame_elim follows_close noted (noted.trans follows_close)

theorem follows_finish :
    Follows state.log state.pendingCreates
      (state.finishCreateResult pending code executionId detailCode sending) := by
  unfold finishCreateResult
  dsimp only
  split
  next => exact @follows_send (state.releaseOutstandingCreate pending.connectionToken) _ _ _
  next => exact .refl (state.releaseOutstandingCreate pending.connectionToken)

theorem follows_runPendingCreate (there : state.localConnectionExists pending.connectionToken = true) (env : Env) :
    Follows state.log state.pendingCreates (state.runPendingCreate pending env) := by
  obtain ⟨reached, code, executionId, detailCode, before, same⟩ := runPendingCreate_eq there env
  rw [same]
  refine Follows.trans ?_ follows_finish
  rcases before with rfl | ⟨entries, rfl⟩
  · exact ⟨List.prefix_append _ _, List.Sublist.refl _⟩
  · exact ⟨(List.prefix_append _ _).trans (List.prefix_append _ _), List.Sublist.refl _⟩

theorem Steady.follows_accept (steady : Steady state) (known : state.connections.lookup token = some found) (env : Env) :
    ∃ pending : PendingCreate, pending.ticket = state.nextTicket ∧
      Follows state.log (state.pendingCreates ++ [pending]) (state.accept token request workspaceId env) := by
  refine ⟨⟨token, request.requestId, request.rows, request.columns, workspaceId, state.nextTicket⟩, rfl, ?_⟩
  unfold State.accept
  dsimp only
  split
  next => exact ⟨List.prefix_append _ _, List.Sublist.refl _⟩
  next =>
    have there : (state.reserve token request.requestId).localConnectionExists token = true := by
      have before := steady.consistent.accounted.reached token
      simp only [State.localConnectionExists, State.reserve, lookup_updateMeta]
      grind
    have ran := @follows_runPendingCreate (state.reserve token request.requestId)
      ⟨token, request.requestId, request.rows, request.columns, workspaceId, state.nextTicket⟩ there env
    exact ⟨(List.prefix_append _ _).trans ran.1, ran.2.trans (List.sublist_append_left _ _)⟩

/-- Those in line behind an operation waited before it, or were admitted by it. -/
def Extends (state after : State) : Prop :=
  ∃ added : List PendingCreate, (∀ pending ∈ added, pending.ticket = state.nextTicket) ∧
    Follows state.log (state.pendingCreates ++ added) after

theorem Follows.extends {after : State} (follows : Follows state.log state.pendingCreates after) :
    Extends state after := ⟨[], by simp, by rwa [List.append_nil]⟩

theorem Steady.follows_handle (steady : Steady state) (token : Token) (payload : List UInt8) (env : Env) :
    Extends state (state.handleCreateExecutionRequest token payload env) := by
  unfold handleCreateExecutionRequest
  split
  next => exact follows_send.extends
  split
  next => exact (Follows.refl state).extends
  split
  next => exact follows_send.extends
  split
  next => exact follows_send.extends
  next => exact follows_send.extends
  next request found _ known =>
    split
    next => exact follows_send.extends
    have advanced := steady.relabel (state.connections.insert token
      { found with lastProvisioningRequestId := request.requestId }) (by grind)
    dsimp only
    split
    next =>
      unfold sendCreateError
      apply Follows.extends
      exact @follows_send { state with connections := state.connections.insert token _ } token env.sending _
    next =>
      obtain ⟨pending, fresh, follows⟩ := advanced.follows_accept (AList.lookup_insert _) env
      exact ⟨[pending], by simpa using fresh, follows⟩

theorem Steady.follows_turn (steady : Steady state) (env : Env) :
    Follows state.log state.pendingCreates.tail (state.apply (.turn env)) := by
  change Follows _ _ (state.beginTurn.drainOnePendingCreate env)
  have begun : state.log <+: state.beginTurn.log := List.prefix_append _ _
  have unused : ¬ state.beginTurn.provisioningCreatedThisTurn = true := Bool.false_ne_true
  unfold drainOnePendingCreate
  rw [if_neg unused]
  split
  next empty =>
    have same : state.pendingCreates = [] := empty
    refine ⟨begun, ?_⟩
    change state.pendingCreates.Sublist _
    rw [same]
    exact List.Sublist.refl _
  next pending rest front =>
    have same : state.pendingCreates = pending :: rest := front
    have accounted : Accounted state state.pendingCreates := steady.consistent.accounted
    have there := accounted.there (accounted.connected pending (same ▸ List.mem_cons_self))
    have ran := @follows_runPendingCreate { state.beginTurn with pendingCreates := rest } pending there env
    exact ⟨begun.trans ran.1, by rw [same]; exact ran.2⟩

def Operation.isTurn : Operation → Bool
  | .turn _ => true
  | _ => false

theorem Steady.follows_apply (steady : Steady state) (operation : Operation) :
    Extends state (state.apply operation) := by
  cases operation with
  | turn env =>
      have follows := steady.follows_turn env
      exact Follows.extends ⟨follows.1, follows.2.trans (List.tail_sublist _)⟩
  | create token payload env => exact steady.follows_handle token payload env
  | connect token =>
      change Extends state (state.connect token)
      unfold State.connect
      split <;> exact (Follows.refl state).extends
  | close token => exact follows_close.extends
  | setState token current =>
      change Extends state (state.setState token current)
      unfold State.setState
      split <;> exact (Follows.refl state).extends
  | hello | otherRequest | mint | entriesBecome | shutDown => exact (Follows.refl state).extends

/-- The requests in line up to a ticket. -/
def ahead (state : State) (ticket : Nat) : Nat := state.pendingCreates.countP fun pending => pending.ticket ≤ ticket

theorem Steady.ahead_apply {ticket : Nat} (steady : Steady state) (known : ticket < state.nextTicket)
    (operation : Operation) :
    ahead (state.apply operation) ticket ≤ ahead state ticket - if operation.isTurn then 1 else 0 := by
  by_cases turns : operation.isTurn = true
  · cases operation with
    | turn env =>
        have follows := steady.follows_turn env
        have fewer := follows.2.countP_le (p := fun pending : PendingCreate => pending.ticket ≤ ticket)
        have inOrder := steady.consistent.recorded.inOrder
        rw [if_pos turns]
        refine fewer.trans ?_
        unfold ahead
        cases queue : state.pendingCreates with
        | nil => simp
        | cons first rest =>
            rw [queue] at inOrder
            -- where the first one is behind the ticket, all are
            by_cases front : first.ticket ≤ ticket
            · simp [front]
            · have none : rest.countP (fun pending => pending.ticket ≤ ticket) = 0 := by
                rw [List.countP_eq_zero]
                intro pending waits
                have behind := (List.pairwise_cons.mp inOrder).1 pending waits
                simp only [decide_eq_true_eq]
                omega
              simp [none]
    | _ => cases turns
  · obtain ⟨added, fresh, follows⟩ := steady.follows_apply operation
    have fewer := follows.2.countP_le (p := fun pending : PendingCreate => pending.ticket ≤ ticket)
    have none : added.countP (fun pending => pending.ticket ≤ ticket) = 0 := by
      rw [List.countP_eq_zero]
      intro pending member
      rw [fresh pending member, decide_eq_true_eq]
      omega
    rw [List.countP_append, none] at fewer
    rw [if_neg turns]
    exact fewer

theorem Steady.known_apply {ticket : Nat} {requestId : Nat} (steady : Steady state)
    (admitted : .admitted ticket token requestId ∈ state.log) (operation : Operation) :
    .admitted ticket token requestId ∈ (state.apply operation).log := by
  obtain ⟨added, -, follows⟩ := steady.follows_apply operation
  exact follows.1.subset admitted

theorem Steady.ahead_run {ticket : Nat} {requestId : Nat} (steady : Steady state)
    (admitted : .admitted ticket token requestId ∈ state.log) (operations : List Operation) :
    .admitted ticket token requestId ∈ (state.run operations).log ∧
      ahead (state.run operations) ticket ≤ ahead state ticket - operations.countP Operation.isTurn := by
  induction operations generalizing state with
  | nil => exact ⟨admitted, Nat.le_refl _⟩
  | cons operation operations ih =>
      have known := steady.consistent.recorded.fresh _ _ _ admitted
      have step := steady.ahead_apply known operation
      obtain ⟨still, fewer⟩ := ih (steady.apply operation) (steady.known_apply admitted operation)
      refine ⟨still, fewer.trans ?_⟩
      rw [List.countP_cons]
      split at step <;> simp_all <;> omega

end Steps

def Event.answers (ticket : Nat) : Event → Bool
  | .answered other _ _ => other = ticket
  | _ => false

theorem Recorded.answers_le {log : List Event} {next : Nat} {hand queue : List PendingCreate}
    (recorded : Recorded log next hand queue) (ticket : Nat) : log.countP (Event.answers ticket) ≤ 1 := by
  apply recorded.justified.countP_le_one
  intro before event allowed answers other member again
  cases event <;> cases other <;> simp [Event.answers] at answers again
  subst answers again
  exact allowed.2.2.1 _ _ member

theorem outlived_append {before after : List Event} {token : Token} {ticket requestId : Nat}
    (admitted : .admitted ticket token requestId ∈ before) : Outlived (before ++ .closed token :: after) ticket :=
  ⟨before, token, after, rfl, requestId, admitted⟩

/-- The counters, the turns, the order and the results of the creates. A request that is admitted has its result after
eight further turns, unless its connection closes. -/
theorem creates_accounted (defaultWorkspace maxExecutions : Nat) (admittedWorkspaces : List WorkspaceId)
    (operations more : List Operation) :
    let state := (start defaultWorkspace maxExecutions admittedWorkspaces).run operations
    let later := state.run more
    (state.outstandingCreates = state.pendingCreates.length ∧ state.outstandingCreates ≤ 8 ∧
      ∀ token found, state.connections.lookup token = some found →
        found.outstandingCreates = queuedOf state.pendingCreates token ∧ found.outstandingCreates ≤ 4) ∧
    (∀ before first middle second after,
      state.log = before ++ .spawned first :: middle ++ .spawned second :: after → .turn ∈ middle) ∧
    (∀ before ticket after, state.log = before ++ .served ticket :: after →
      ∀ earlier token requestId, .admitted earlier token requestId ∈ before → earlier < ticket →
        .served earlier ∈ before ∨ Outlived before earlier) ∧
    ∀ ticket token requestId, .admitted ticket token requestId ∈ state.log →
      state.log.countP (Event.answers ticket) ≤ 1 ∧
      (∀ client result, .answered ticket client result ∈ state.log →
        .admitted ticket client result.requestId ∈ state.log) ∧
      (∀ before after, state.log = before ++ .closed token :: after → .admitted ticket token requestId ∈ before →
        .spawned ticket ∉ after ∧ ∀ client result, .answered ticket client result ∉ after) ∧
      (8 ≤ more.countP Operation.isTurn →
        later.log.countP (Event.answers ticket) = 1 ∨ Outlived later.log ticket) := by
  intro state later
  have steady : Steady state := (Steady.initial _ _ _).run operations
  obtain ⟨accounted, recorded⟩ := steady.consistent
  have fewer := accounted.few
  rw [← accounted.all] at fewer
  refine ⟨⟨accounted.all, fewer, ?_⟩, ?_, ?_, ?_⟩
  · intro token found known
    have counted := accounted.each token found known
    exact ⟨counted, counted ▸ accounted.fewEach token⟩
  · intro before first middle second after same
    by_contra noTurn
    obtain ⟨quiet, -⟩ := recorded.justified (before ++ .spawned first :: middle) (.spawned second) after same
    exact quiet before (.spawned first :: middle) rfl (by simp [noTurn]) first List.mem_cons_self
  · intro before ticket after same
    exact (recorded.justified before (.served ticket) after same).2.2.2
  · intro ticket token requestId admitted
    refine ⟨recorded.answers_le ticket, ?_, ?_, ?_⟩
    · intro client result answered
      obtain ⟨before, after, same⟩ := List.append_of_mem answered
      have allowed := recorded.justified before (.answered ticket client result) after same
      rw [same]
      exact List.mem_append_left _ allowed.1
    · intro before after same earlier
      constructor
      · intro spawned
        obtain ⟨front, back, rfl⟩ := List.append_of_mem spawned
        rw [← List.cons_append, ← List.append_assoc] at same
        exact (recorded.justified _ _ _ same).2 (outlived_append earlier)
      · intro client result answered
        obtain ⟨front, back, rfl⟩ := List.append_of_mem answered
        rw [← List.cons_append, ← List.append_assoc] at same
        exact (recorded.justified _ _ _ same).2.2.2 (outlived_append earlier)
    · intro turns
      obtain ⟨still, fewer⟩ := steady.ahead_run admitted more
      change ahead later ticket ≤ _ at fewer
      have final : Steady later := steady.run more
      have none : ahead later ticket = 0 := by
        have most : ahead state ticket ≤ 8 := (List.countP_le_length ..).trans accounted.few
        omega
      rcases final.consistent.recorded.settled ticket token requestId still with waits | outlived | ⟨-, result, answered⟩
      · obtain ⟨pending, waits, same⟩ := waits
        exact absurd (decide_eq_true same.le) (List.countP_eq_zero.mp none pending waits)
      · exact .inr outlived
      · have some : 0 < later.log.countP (Event.answers ticket) :=
          List.countP_pos_iff.mpr ⟨_, answered, decide_eq_true rfl⟩
        exact .inl (Nat.le_antisymm (final.consistent.recorded.answers_le ticket) some)

/-- The results that a client sees for a request id. -/
def resultsFor (token : Token) (requestId : Nat) (log : List Event) : List CreateExecutionResult :=
  log.filterMap fun
    | .answered _ client result | .refused client result =>
        if client = token ∧ result.requestId = requestId then some result else none
    | _ => none

/-- A request id that is used again has a second result, a refusal. -/
theorem request_id_answered_twice :
    let payload := CreateExecutionRequest.encode ⟨0, 1, 0, 24, 80⟩
    let state := (start 7 8 [7]).run [.connect 1, .hello 1 capExecutionProvisioning, .setState 1 .ready,
      .turn ⟨.failed, .queued⟩, .create 1 payload ⟨.created 5 0, .queued⟩, .create 1 payload ⟨.created 6 0, .queued⟩]
    .admitted 0 1 1 ∈ state.log ∧ .closed 1 ∉ state.log ∧
      resultsFor 1 1 state.log = [⟨5, 1, .created, 0⟩, ⟨0, 1, .error .malformedPayload, 0⟩] := by
  decide +kernel

end Seyal.Runtime.Provisioning
