import Seyal.Client.Keybinding.Load

namespace Seyal.Client.Keybinding

/-! Routing of key events: contexts, chords and the reserved strokes. -/

/-- Already-normalized native stroke. -/
structure NormalizedStroke where
  modifiers : Modifiers
  key : KeySym
  shiftApplied : Option Char
  deriving Repr, DecidableEq

def NormalizedStroke.hasCommand (stroke : NormalizedStroke) : Bool := stroke.modifiers.contains .cmd

section Matching

def charsEq (first second : Char) : Bool :=
  if first.isAlpha && second.isAlpha then first.toLower = second.toLower else first = second

def keyEq : KeySym → KeySym → Bool
  | .named first, .named second => first = second
  | .char first, .char second => charsEq first second
  | _, _ => false

def shiftAppliedMatches (binding : KeySym) (shiftApplied : Option Char) : Bool :=
  match binding, shiftApplied with
  | .char expected, some actual => charsEq expected actual
  | _, _ => false

def nonShift : Modifiers := .cmd ||| .ctrl ||| .opt

/-- True when a compiled binding stroke matches this normalized event (§3.2). -/
def strokeMatches (binding : KeyStroke) (event : NormalizedStroke) : Bool :=
  if binding.modifiers.contains .shift != event.modifiers.contains .shift then false
  else if binding.modifiers &&& nonShift != event.modifiers &&& nonShift then false
  else if !binding.modifiers.contains .shift then keyEq binding.key event.key
  else keyEq binding.key event.key || shiftAppliedMatches binding.key event.shiftApplied

def isReservedStroke (modifiers : Modifiers) (key : KeySym) : Bool :=
  (BindingSequence.tryFromStrokes [⟨modifiers, key⟩]).any isReservedSequence

def isReservedEvent (stroke : NormalizedStroke) : Bool :=
  isReservedStroke stroke.modifiers stroke.key ||
    stroke.shiftApplied.any fun char => isReservedStroke stroke.modifiers (.char char)

end Matching

section Context

inductive PresentationMode where
  | flow
  | raw
  | tui
  deriving Repr, DecidableEq

/-- Current route context set (SPEC-024 §6.1). -/
def routeContextSet (paletteOpen : Bool) (mode : PresentationMode) (composerFirstResponder : Bool) : BindingContext :=
  if paletteOpen then .palette
  else
    match mode with
    | .flow => if composerFirstResponder then .app ||| .flow ||| .composer else .app ||| .flow
    | .raw => .app ||| .raw
    | .tui => .app ||| .tui

/-- `palette` > `composer` > `flow`/`raw`/`tui` > `app` (SPEC-024 §6.1). -/
def contextSpecificity (bit : BindingContext) : Nat :=
  if bit.contains .palette then 4
  else if bit.contains .composer then 3
  else if bit.contains .flow || bit.contains .raw || bit.contains .tui then 2
  else if bit.contains .app then 1
  else 0

def bestIntersectingSpecificity (context route : BindingContext) : Nat :=
  ((BindingContext.iterBits (context &&& route)).map contextSpecificity).foldl max 0

def CompiledBinding.usable (binding : CompiledBinding) (route : BindingContext) : Bool :=
  !BindingContext.isEmpty (binding.context &&& route)

end Context

/-- Outcome of one key event through SPEC-024 §6.2 (including §8 chords). -/
inductive RouteOutcome where
  | reservedCommand
  | matched (command : WorkspaceCommand)
  | prefixWait
  | unmatchedCommand
  | compositionConsumes
  | fallthrough
  deriving Repr, DecidableEq

def RouteOutcome.matchedCommand : RouteOutcome → Option WorkspaceCommand
  | .matched command => some command
  | _ => none

/-- Active chord prefix: 1..=3 strokes already consumed, waiting for more. -/
structure ChordPrefixActive where
  start : BindingSequence
  deadline : Nat
  deriving Repr, DecidableEq

/-- Process-local chord prefix wait (R8.1 / R8.4: at most one). -/
abbrev ChordPrefixState := Option ChordPrefixActive

/-- Prefix wait timeout (SPEC-024 R8.2). -/
def chordPrefixTimeout : Nat := 1000

namespace ChordPrefixState

/-- Drop an expired prefix; true when a timeout cancelled it. -/
def expireIfDue (chord : ChordPrefixState) (now : Nat) : ChordPrefixState :=
  chord.filter fun active => now < active.deadline

def activate (start : BindingSequence) (now : Nat) : ChordPrefixState := some ⟨start, now + chordPrefixTimeout⟩

end ChordPrefixState

section Routing

variable (table : KeybindingTable) (stroke : NormalizedStroke) (route : BindingContext)

/-- The strokes are those of `start` and one more, which the event matches. -/
def continues (start strokes : List KeyStroke) : Bool :=
  strokes.length = start.length + 1 && start.isPrefixOf strokes &&
    strokes[start.length]?.any fun last => strokeMatches last stroke

/-- The stroke of a usable binding behind `start`, if the event matches it. -/
def nextStroke (start : List KeyStroke) (binding : CompiledBinding) : Option KeyStroke :=
  if binding.usable route && start.isPrefixOf binding.sequence.strokes then
    binding.sequence.strokes[start.length]?.filter fun last => strokeMatches last stroke
  else none

abbrev BestMatch := Option (Nat × Nat × WorkspaceCommand)

def better (best : BestMatch) (binding : CompiledBinding × Nat) : BestMatch :=
  let score := bestIntersectingSpecificity binding.1.context route
  match best with
  | none => some (score, binding.2, binding.1.action)
  | some (bestScore, bestIndex, _) =>
      if bestScore < score || (score = bestScore && bestIndex < binding.2) then
        some (score, binding.2, binding.1.action)
      else best

def matchBindingLength (start : List KeyStroke) : Option WorkspaceCommand :=
  ((table.bindings.zipIdx.filter fun binding =>
    continues stroke start binding.1.sequence.strokes && binding.1.usable route).foldl (better route) none).map
      fun best => best.2.2

def matchSingleStroke : Option WorkspaceCommand := matchBindingLength table stroke route []

def matchExtendedComplete (start : List KeyStroke) : Option WorkspaceCommand :=
  matchBindingLength table stroke route start

def longerPrefix (start : List KeyStroke) : Option BindingSequence :=
  (table.chordPrefixIndex.find? fun entry =>
    continues stroke start entry.1.strokes &&
      entry.2.any fun index => table.bindings[index]?.any fun binding => binding.usable route).map Prod.fst

def openChordPrefix : Option BindingSequence := longerPrefix table stroke route []

def matchExtendedPrefix (start : List KeyStroke) : Option BindingSequence := longerPrefix table stroke route start

def routeClean (compositionActive : Bool) (now : Nat) : RouteOutcome × ChordPrefixState :=
  if stroke.hasCommand then
    if isReservedEvent stroke then (.reservedCommand, none)
    else
      match matchSingleStroke table stroke route with
      | some command => (.matched command, none)
      | none =>
          if compositionActive then (.unmatchedCommand, none)
          else
            match openChordPrefix table stroke route with
            | some start => (.prefixWait, ChordPrefixState.activate start now)
            | none => (.unmatchedCommand, none)
  else if compositionActive then (.compositionConsumes, none)
  else
    match matchSingleStroke table stroke route with
    | some command => (.matched command, none)
    | none =>
        match openChordPrefix table stroke route with
        | some start => (.prefixWait, ChordPrefixState.activate start now)
        | none => (.fallthrough, none)

def routeWithActivePrefix (compositionActive : Bool) (active : ChordPrefixActive) (now : Nat) :
    RouteOutcome × ChordPrefixState :=
  match matchExtendedComplete table stroke route active.start.strokes with
  | some command => (.matched command, none)
  | none =>
      match matchExtendedPrefix table stroke route active.start.strokes with
      | some extended => (.prefixWait, ChordPrefixState.activate extended now)
      | none => routeClean table stroke route compositionActive now

/-- Route one already-normalized stroke through §6.2 / §8. -/
def routeKeystroke (compositionActive : Bool) (chord : ChordPrefixState) (now : Nat) : RouteOutcome × ChordPrefixState :=
  match ChordPrefixState.expireIfDue chord now with
  | some active => routeWithActivePrefix table stroke route compositionActive active now
  | none => routeClean table stroke route compositionActive now

end Routing

/-- One call of `route_normalized_keystroke`, with what it reads of the application. -/
structure RouteCall where
  stroke : NormalizedStroke
  paletteOpen : Bool := false
  mode : PresentationMode := .flow
  composerFirstResponder : Bool := false
  compositionActive : Bool := false
  now : Nat
  deriving Repr, DecidableEq

/-- The outcome, the command that is invoked, and the chord that is left. -/
structure Routed where
  outcome : RouteOutcome
  dispatched : Option WorkspaceCommand
  chord : ChordPrefixState
  deriving Repr, DecidableEq

def routeNormalizedKeystroke (table : KeybindingTable) (chord : ChordPrefixState) (call : RouteCall) : Routed :=
  let chord := if call.compositionActive then none else chord
  let route := routeContextSet call.paletteOpen call.mode call.composerFirstResponder
  let routed := routeKeystroke table call.stroke route call.compositionActive chord call.now
  { outcome := routed.1, dispatched := routed.1.matchedCommand, chord := routed.2 }

def routeAll (table : KeybindingTable) : ChordPrefixState → List RouteCall → List Routed
  | _, [] => []
  | chord, call :: calls =>
      let routed := routeNormalizedKeystroke table chord call
      routed :: routeAll table routed.chord calls

section Order

theorem NamedKey.rank_lt (key : NamedKey) : key.rank < 26 := by
  cases key <;> decide

theorem NamedKey.rank_injective {first second : NamedKey} (same : first.rank = second.rank) : first = second := by
  revert same
  cases first <;> cases second <;> decide

theorem KeyStroke.rank_injective {first second : KeyStroke} (same : first.rank = second.rank) : first = second := by
  obtain ⟨modifiers, key⟩ := first
  obtain ⟨others, other⟩ := second
  simp only [KeyStroke.rank, Prod.mk.injEq] at same
  cases BitVec.eq_of_toNat_eq same.1
  congr 1
  cases key with
  | named key =>
      cases other with
      | named other => rw [NamedKey.rank_injective same.2]
      | char value =>
          have small := key.rank_lt
          have equal : key.rank = 26 + value.toNat := same.2
          omega
  | char value =>
      cases other with
      | named other =>
          have small := other.rank_lt
          have equal : 26 + value.toNat = other.rank := same.2
          omega
      | char other => rw [Char.toNat_inj.mp (Nat.add_left_cancel same.2)]

theorem ranks_injective {first second : List KeyStroke} (same : ranks first = ranks second) : first = second := by
  induction first generalizing second with
  | nil =>
      cases second with
      | nil => rfl
      | cons => simp [ranks] at same
  | cons stroke first ih =>
      cases second with
      | nil => simp [ranks] at same
      | cons other second =>
          simp only [ranks, List.flatMap_cons, List.cons_append, List.nil_append, List.cons.injEq] at same
          rw [KeyStroke.rank_injective (Prod.ext same.1 same.2.1), ih same.2.2]

theorem BindingSequence.before_trans {first second third : BindingSequence} (one : first.before second = true)
    (two : second.before third = true) : first.before third = true := by
  simp only [BindingSequence.before, strokesBefore, decide_eq_true_eq] at one two ⊢
  exact List.lt_trans one two

theorem BindingSequence.before_of_not_before {first second : BindingSequence} (different : first ≠ second)
    (not : first.before second = false) : second.before first = true := by
  simp only [BindingSequence.before, strokesBefore, decide_eq_true_eq, decide_eq_false_iff_not] at not ⊢
  have other : ranks second.strokes ≠ ranks first.strokes := fun same => by
    cases first
    cases second
    cases ranks_injective same
    exact different rfl
  exact (List.le_iff_lt_or_eq.mp (List.not_lt.mp not)).resolve_right other

end Order

section Index

def Indexes (index : List (BindingSequence × List Nat)) (start : BindingSequence) (position : Nat) : Prop :=
  ∃ positions, (start, positions) ∈ index ∧ position ∈ positions

variable {start known : BindingSequence} {position other : Nat}

variable {index : List (BindingSequence × List Nat)}

theorem indexes_pushIndex :
    Indexes (pushIndex start position index) known other ↔
      Indexes index known other ∨ (known = start ∧ other = position) := by
  induction index with
  | nil => simp [pushIndex, Indexes]
  | cons entry rest ih =>
      have split : ∀ (entry : BindingSequence × List Nat) rest, Indexes (entry :: rest) known other ↔
          (known = entry.1 ∧ other ∈ entry.2) ∨ Indexes rest known other := by
        rintro ⟨first, positions⟩ rest
        simp only [Indexes, List.mem_cons, Prod.mk.injEq]
        constructor
        · rintro ⟨_, ⟨rfl, rfl⟩ | member, has⟩
          · exact .inl ⟨rfl, has⟩
          · exact .inr ⟨_, member, has⟩
        · rintro (⟨rfl, has⟩ | ⟨_, member, has⟩)
          · exact ⟨_, .inl ⟨rfl, rfl⟩, has⟩
          · exact ⟨_, .inr member, has⟩
      obtain ⟨first, positions⟩ := entry
      unfold pushIndex
      split_ifs with same before
      · subst same
        rw [split, split, List.mem_append, List.mem_singleton]
        tauto
      · rw [split, split, List.mem_singleton]
        tauto
      · rw [split, split, ih]
        tauto

theorem indexes_foldl_pushIndex {starts : List BindingSequence} :
    Indexes (starts.foldl (fun map start => pushIndex start position map) index) known other ↔
      Indexes index known other ∨ (known ∈ starts ∧ other = position) := by
  induction starts generalizing index with
  | nil => simp
  | cons start starts ih =>
      rw [List.foldl_cons, ih, indexes_pushIndex, List.mem_cons]
      tauto

theorem indexes_buildChordPrefixIndex {bindings : List CompiledBinding} :
    Indexes (buildChordPrefixIndex bindings) known other ↔
      ∃ binding, bindings[other]? = some binding ∧ known ∈ properPrefixes binding.sequence := by
  suffices holds : ∀ (listed : List (CompiledBinding × Nat)) index,
      Indexes (listed.foldl (fun map binding =>
        (properPrefixes binding.1.sequence).foldl (fun map start => pushIndex start binding.2 map) map) index)
          known other ↔
        Indexes index known other ∨ ∃ binding, (binding, other) ∈ listed ∧ known ∈ properPrefixes binding.sequence by
    have none : ¬Indexes [] known other := by simp [Indexes]
    rw [buildChordPrefixIndex, holds]
    simp only [none, false_or, List.mem_zipIdx_iff_getElem?]
  intro listed
  induction listed with
  | nil => simp
  | cons entry listed ih =>
      intro index
      obtain ⟨first, place⟩ := entry
      rw [List.foldl_cons, ih, indexes_foldl_pushIndex]
      simp only [List.mem_cons, Prod.mk.injEq]
      constructor
      · rintro ((old | ⟨member, rfl⟩) | ⟨binding, among, member⟩)
        · exact .inl old
        · exact .inr ⟨first, .inl ⟨rfl, rfl⟩, member⟩
        · exact .inr ⟨binding, .inr among, member⟩
      · rintro (old | ⟨binding, ⟨rfl, rfl⟩ | among, member⟩)
        · exact .inl (.inl old)
        · exact .inl (.inr ⟨member, rfl⟩)
        · exact .inr ⟨binding, among, member⟩

abbrev Ordered (index : List (BindingSequence × List Nat)) : Prop :=
  index.Pairwise fun first second => first.1.before second.1 = true

theorem mem_of_mem_pushIndex {entry : BindingSequence × List Nat} (member : entry ∈ pushIndex start position index) :
    entry.1 = start ∨ ∃ old ∈ index, entry.1 = old.1 := by
  obtain ⟨known, positions⟩ := entry
  induction index with
  | nil => simp_all [pushIndex]
  | cons first index ih =>
      unfold pushIndex at member
      grind

theorem Ordered.pushIndex (ordered : Ordered index) :
    Ordered (pushIndex start position index) := by
  induction index with
  | nil => exact List.pairwise_singleton _ _
  | cons entry rest ih =>
      obtain ⟨first, others⟩ := List.pairwise_cons.mp ordered
      unfold Keybinding.pushIndex
      split_ifs with same before
      · exact List.pairwise_cons.mpr ⟨first, others⟩
      · refine List.pairwise_cons.mpr ⟨fun later member => ?_, ordered⟩
        rcases List.mem_cons.mp member with rfl | member
        · exact before
        · exact BindingSequence.before_trans before (first later member)
      · refine List.pairwise_cons.mpr ⟨fun later member => ?_, ih others⟩
        rcases mem_of_mem_pushIndex member with here | ⟨old, member, here⟩
        · rw [here]
          exact BindingSequence.before_of_not_before same (Bool.not_eq_true _ ▸ before)
        · rw [here]
          exact first old member

theorem ordered_buildChordPrefixIndex (bindings : List CompiledBinding) : Ordered (buildChordPrefixIndex bindings) := by
  refine List.foldlRecOn _ _ List.Pairwise.nil fun index ordered binding _ => ?_
  exact List.foldlRecOn _ _ ordered fun index ordered start _ => ordered.pushIndex

theorem mem_properPrefixes {sequence : BindingSequence} :
    known ∈ properPrefixes sequence ↔ known.strokes <+: sequence.strokes ∧
      known.strokes.length < sequence.strokes.length := by
  unfold properPrefixes
  rw [List.mem_filterMap]
  constructor
  · rintro ⟨len, member, made⟩
    obtain ⟨_, below⟩ := List.mem_range'_1.mp member
    unfold BindingSequence.tryFromStrokes at made
    split at made
    next =>
      cases made
      refine ⟨List.take_prefix _ _, ?_⟩
      simp only [List.length_take]
      omega
    next => cases made
  · rintro ⟨within, shorter⟩
    have sized := known.sized
    refine ⟨known.strokes.length, List.mem_range'_1.mpr ⟨sized.1, by omega⟩, ?_⟩
    have taken : sequence.strokes.take known.strokes.length = known.strokes := (List.prefix_iff_eq_take.mp within).symm
    simp [BindingSequence.tryFromStrokes, taken, sized]

end Index

section Lookup

variable {table : KeybindingTable} {stroke : NormalizedStroke} {route : BindingContext} {start strokes : List KeyStroke}
  {binding : CompiledBinding} {position : Nat}

theorem continues_iff :
    continues stroke start strokes = true ↔ ∃ last, strokes = start ++ [last] ∧ strokeMatches last stroke = true := by
  simp only [continues, Bool.and_eq_true, decide_eq_true_eq, List.isPrefixOf_iff_prefix]
  constructor
  · rintro ⟨⟨length, rest, rfl⟩, matching⟩
    rw [List.length_append, Nat.add_left_cancel_iff] at length
    obtain ⟨last, rfl⟩ := List.length_eq_one_iff.mp length
    exact ⟨last, rfl, by simpa using matching⟩
  · rintro ⟨last, rfl, matching⟩
    exact ⟨⟨by simp, List.prefix_append _ _⟩, by simpa using matching⟩

variable {last : KeyStroke} {rest : List KeyStroke}

theorem nextStroke_eq_some :
    nextStroke stroke route start binding = some last ↔ binding.usable route = true ∧
      (∃ rest, binding.sequence.strokes = start ++ last :: rest) ∧ strokeMatches last stroke = true := by
  unfold nextStroke
  split
  next fits =>
    obtain ⟨usable, begins⟩ := Bool.and_eq_true_iff.mp fits
    obtain ⟨rest, split⟩ := List.isPrefixOf_iff_prefix.mp begins
    rw [← split, List.getElem?_append_right (Nat.le_refl _), Nat.sub_self, Option.filter_eq_some_iff]
    cases rest with
    | nil => simp
    | cons own rest => simp [usable]
  next unfit =>
    constructor
    · nofun
    · rintro ⟨usable, ⟨rest, split⟩, _⟩
      exact absurd (by simp [usable, split]) unfit

/-- A binding that is usable and whose last stroke the event matches, after `start`. -/
def Completes (table : KeybindingTable) (stroke : NormalizedStroke) (route : BindingContext) (start : List KeyStroke)
    (position : Nat) (binding : CompiledBinding) : Prop :=
  table.bindings[position]? = some binding ∧ binding.usable route = true ∧
    continues stroke start binding.sequence.strokes = true

theorem better_cases (best : BestMatch) (entry : CompiledBinding × Nat) :
    (best.isSome = true ∧ better route best entry = best) ∨
      ∃ score, better route best entry = some (score, entry.2, entry.1.action) := by
  simp only [better]
  split
  next => exact .inr ⟨_, rfl⟩
  next =>
    split
    next => exact .inr ⟨_, rfl⟩
    next => exact .inl ⟨rfl, rfl⟩

theorem foldl_better {listed : List (CompiledBinding × Nat)} {best : BestMatch} :
    (best.isSome = true ∨ listed ≠ [] → (listed.foldl (better route) best).isSome = true) ∧
    ∀ command, (listed.foldl (better route) best).map (fun found => found.2.2) = some command →
      best.map (fun found => found.2.2) = some command ∨ ∃ entry ∈ listed, entry.1.action = command := by
  induction listed generalizing best with
  | nil => exact ⟨by simp, fun command found => .inl found⟩
  | cons entry listed ih =>
      rw [List.foldl_cons]
      rcases @better_cases route best entry with ⟨some_, same⟩ | ⟨score, own⟩
      · rw [same]
        refine ⟨fun _ => ih.1 (.inl some_), fun command found => ?_⟩
        rcases ih.2 command found with old | ⟨later, member, acts⟩
        · exact .inl old
        · exact .inr ⟨later, List.mem_cons_of_mem _ member, acts⟩
      · rw [own]
        refine ⟨fun _ => ih.1 (.inl rfl), fun command found => .inr ?_⟩
        rcases ih.2 command found with here | ⟨later, member, acts⟩
        · exact ⟨entry, List.mem_cons_self, Option.some.inj here⟩
        · exact ⟨later, List.mem_cons_of_mem _ member, acts⟩

theorem completes_iff_mem : Completes table stroke route start position binding ↔
    (binding, position) ∈ table.bindings.zipIdx.filter fun binding =>
      continues stroke start binding.1.sequence.strokes && binding.1.usable route := by
  rw [List.mem_filter, List.mem_zipIdx_iff_getElem?, Bool.and_eq_true]
  unfold Completes
  tauto

theorem exists_completes {command : WorkspaceCommand} (found : matchBindingLength table stroke route start = some command) :
    ∃ position binding, Completes table stroke route start position binding ∧ binding.action = command := by
  rcases foldl_better.2 command found with absent | ⟨⟨binding, position⟩, member, acts⟩
  · cases absent
  · exact ⟨position, binding, completes_iff_mem.mpr member, acts⟩

theorem matchBindingLength_ne_none (completes : Completes table stroke route start position binding) :
    matchBindingLength table stroke route start ≠ none := by
  have member := completes_iff_mem.mp completes
  have some_ := (@foldl_better route _ none).1 (.inr (List.ne_nil_of_mem member))
  intro absent
  rw [Option.map_eq_none_iff.mp absent] at some_
  cases some_

theorem matchBindingLength_eq (completes : Completes table stroke route start position binding)
    (only : ∀ index other, Completes table stroke route start index other → index = position) :
    matchBindingLength table stroke route start = some binding.action := by
  obtain ⟨command, found⟩ := Option.ne_none_iff_exists'.mp (matchBindingLength_ne_none completes)
  obtain ⟨index, other, also, rfl⟩ := exists_completes found
  have same : some binding = some other := by
    rw [← completes.1, ← also.1, only index other also]
  rw [found, Option.some.inj same]

variable {longer : BindingSequence}

theorem exists_of_longerPrefix (indexed : table.chordPrefixIndex = buildChordPrefixIndex table.bindings)
    (found : longerPrefix table stroke route start = some longer) :
    continues stroke start longer.strokes = true ∧ ∃ binding ∈ table.bindings, binding.usable route = true ∧
      longer.strokes <+: binding.sequence.strokes ∧ longer.strokes.length < binding.sequence.strokes.length := by
  obtain ⟨⟨first, positions⟩, search, rfl⟩ := Option.map_eq_some_iff.mp found
  have holds := List.find?_some search
  simp only [Bool.and_eq_true, List.any_eq_true] at holds
  obtain ⟨matching, position, member, usable⟩ := holds
  have indexes : Indexes (buildChordPrefixIndex table.bindings) first position :=
    ⟨positions, indexed ▸ List.mem_of_find?_eq_some search, member⟩
  obtain ⟨binding, here, proper⟩ := indexes_buildChordPrefixIndex.mp indexes
  rw [here] at usable
  exact ⟨matching, binding, List.mem_of_getElem? here, usable, mem_properPrefixes.mp proper⟩

/-- The prefix of a usable chord that goes on is in the index. -/
theorem exists_entry (indexed : table.chordPrefixIndex = buildChordPrefixIndex table.bindings)
    (listed : binding ∈ table.bindings) (usable : binding.usable route = true)
    (strokes : binding.sequence.strokes = start ++ last :: rest) (more : rest ≠ [])
    (matching : strokeMatches last stroke = true) :
    ∃ entry ∈ table.chordPrefixIndex, entry.1.strokes = start ++ [last] ∧
      (continues stroke start entry.1.strokes &&
        entry.2.any fun index => table.bindings[index]?.any fun binding => binding.usable route) = true := by
  obtain ⟨position, here⟩ := List.mem_iff_getElem?.mp listed
  have sized := binding.sequence.sized
  have some_ : 0 < rest.length := List.length_pos_iff.mpr more
  rw [strokes, List.length_append, List.length_cons] at sized
  have short : 1 ≤ (start ++ [last]).length ∧ (start ++ [last]).length ≤ 4 := by
    rw [List.length_append, List.length_singleton]
    omega
  have proper : (⟨start ++ [last], short⟩ : BindingSequence) ∈ properPrefixes binding.sequence := by
    rw [mem_properPrefixes, strokes]
    constructor
    · exact ⟨rest, by simp⟩
    · simpa using some_
  obtain ⟨positions, member, among⟩ := indexes_buildChordPrefixIndex.mpr ⟨binding, here, proper⟩
  refine ⟨_, indexed ▸ member, rfl, ?_⟩
  rw [Bool.and_eq_true, List.any_eq_true]
  refine ⟨continues_iff.mpr ⟨last, rfl, matching⟩, position, among, ?_⟩
  rw [here]
  exact usable

theorem longerPrefix_ne_none (indexed : table.chordPrefixIndex = buildChordPrefixIndex table.bindings)
    (listed : binding ∈ table.bindings) (usable : binding.usable route = true)
    (strokes : binding.sequence.strokes = start ++ last :: rest) (more : rest ≠ [])
    (matching : strokeMatches last stroke = true) : longerPrefix table stroke route start ≠ none := by
  obtain ⟨entry, member, _, fits⟩ := exists_entry indexed listed usable strokes more matching
  intro absent
  exact List.find?_eq_none.mp (Option.map_eq_none_iff.mp absent) entry member fits

/-- The prefix that is found is the first one in the order of the index. -/
theorem longerPrefix_least (indexed : table.chordPrefixIndex = buildChordPrefixIndex table.bindings)
    (found : longerPrefix table stroke route start = some longer) (listed : binding ∈ table.bindings)
    (usable : binding.usable route = true)
    (strokes : binding.sequence.strokes = start ++ last :: rest) (more : rest ≠ [])
    (matching : strokeMatches last stroke = true) :
    longer.strokes = start ++ [last] ∨ strokesBefore longer.strokes (start ++ [last]) = true := by
  obtain ⟨entry, member, here, fits⟩ := exists_entry indexed listed usable strokes more matching
  obtain ⟨first, search, rfl⟩ := Option.map_eq_some_iff.mp found
  obtain ⟨_, earlier, later, split, unfit⟩ := List.find?_eq_some_iff_append.mp search
  have ordered : Ordered table.chordPrefixIndex := indexed ▸ ordered_buildChordPrefixIndex table.bindings
  rw [split] at member ordered
  rw [← here]
  rcases List.mem_append.mp member with before | behind
  · simpa [fits] using unfit entry before
  · rcases List.mem_cons.mp behind with rfl | behind
    · exact .inl rfl
    · exact .inr ((List.pairwise_cons.mp (List.pairwise_append.mp ordered).2.1).1 entry behind)

/-- Nothing extends the strokes if no usable binding goes on behind them as the event does. -/
theorem extends_none_iff (indexed : table.chordPrefixIndex = buildChordPrefixIndex table.bindings) :
    matchExtendedComplete table stroke route start = none ∧ matchExtendedPrefix table stroke route start = none ↔
      ∀ binding ∈ table.bindings, nextStroke stroke route start binding = none := by
  constructor
  · rintro ⟨complete, longer⟩ binding listed
    cases next : nextStroke stroke route start binding with
    | none => rfl
    | some last =>
        obtain ⟨usable, ⟨rest, strokes⟩, matching⟩ := nextStroke_eq_some.mp next
        by_cases more : rest = []
        · obtain ⟨position, here⟩ := List.mem_iff_getElem?.mp listed
          have continued := continues_iff.mpr ⟨last, more ▸ strokes, matching⟩
          exact absurd complete (matchBindingLength_ne_none ⟨here, usable, continued⟩)
        · exact absurd longer (longerPrefix_ne_none indexed listed usable strokes more matching)
  · intro none
    constructor
    · refine Option.eq_none_iff_forall_ne_some.mpr fun command found => ?_
      obtain ⟨position, binding, ⟨here, usable, continued⟩, _⟩ := exists_completes found
      obtain ⟨last, strokes, matching⟩ := continues_iff.mp continued
      cases (none binding (List.mem_of_getElem? here)).symm.trans
        (nextStroke_eq_some.mpr ⟨usable, ⟨[], strokes⟩, matching⟩)
    · refine Option.eq_none_iff_forall_ne_some.mpr fun longer found => ?_
      obtain ⟨continued, binding, listed, usable, ⟨rest, within⟩, _⟩ := exists_of_longerPrefix indexed found
      obtain ⟨last, strokes, matching⟩ := continues_iff.mp continued
      rw [strokes, List.append_assoc] at within
      cases (none binding listed).symm.trans (nextStroke_eq_some.mpr ⟨usable, ⟨rest, within.symm⟩, matching⟩)

theorem finalize_indexed (pending : List PendingEntry) (diagnostics : List KeybindingDiagnostic) :
    (finalize pending diagnostics).chordPrefixIndex =
      buildChordPrefixIndex (finalize pending diagnostics).bindings := rfl

theorem loadKeybindingTable_indexed (root : Option TomlTable) :
    (loadKeybindingTable root).chordPrefixIndex = buildChordPrefixIndex (loadKeybindingTable root).bindings := by
  unfold loadKeybindingTable
  split
  next => exact finalize_indexed _ _
  next =>
    unfold compileKeybindingsFromRoot
    split
    next => exact finalize_indexed _ _
    next =>
      split <;> exact finalize_indexed _ _

end Lookup

end Seyal.Client.Keybinding
