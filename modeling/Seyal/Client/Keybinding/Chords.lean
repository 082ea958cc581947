import Seyal.Client.Keybinding.Precedence

namespace Seyal.Client.Keybinding

/-! Chords: the strokes of a binding, routed one after the other, lead to its action. -/

def routeStrokes (table : KeybindingTable) (route : BindingContext) :
    ChordPrefixState → List (NormalizedStroke × Nat) → List RouteOutcome
  | _, [] => []
  | chord, event :: events =>
      let routed := routeKeystroke table event.1 route false chord event.2
      routed.1 :: routeStrokes table route routed.2 events

abbrev Matches (strokes : List KeyStroke) (events : List (NormalizedStroke × Nat)) : Prop :=
  List.Forall₂ (fun stroke event => strokeMatches stroke event.1 = true) strokes events

/-- The events match the strokes of a usable binding; before their end they match no usable binding, and at their end
    no other. -/
@[mk_iff] structure Spells (table : KeybindingTable) (route : BindingContext) (position : Nat) (binding : CompiledBinding)
    (events : List (NormalizedStroke × Nat)) : Prop where
  here : table.bindings[position]? = some binding
  usable : binding.usable route = true
  matching : Matches binding.sequence.strokes events
  early : ∀ other ∈ table.bindings, other.usable route = true → ∀ count < events.length,
    ¬Matches other.sequence.strokes (events.take count)
  only : ∀ other ∈ table.bindings.zipIdx, other.1.usable route = true → Matches other.1.sequence.strokes events →
    other.2 = position
  free : ∀ event ∈ events, isReservedEvent event.1 = false

/-- In the order of the index, no written stroke that the event matches is in front of `last`, among the usable chords
    that go on behind it. -/
def FirstWritten (table : KeybindingTable) (route : BindingContext) (stroke : NormalizedStroke) (start : List KeyStroke)
    (last : KeyStroke) : Prop :=
  ∀ other ∈ table.bindings, start.length + 1 < other.sequence.strokes.length →
    ∀ own ∈ nextStroke stroke route start other, own = last ∨ strokesBefore (start ++ [last]) (start ++ [own]) = true

/-- Each stroke but the last is the first one written for its event. -/
def Leads (table : KeybindingTable) (route : BindingContext) (start : List KeyStroke) :
    List KeyStroke → List (NormalizedStroke × Nat) → Prop
  | last :: next :: rest, event :: events =>
      FirstWritten table route event.1 start last ∧ Leads table route (start ++ [last]) (next :: rest) events
  | _, _ => True

instance (table : KeybindingTable) (route : BindingContext) (position : Nat) (binding : CompiledBinding)
    (events : List (NormalizedStroke × Nat)) : Decidable (Spells table route position binding events) :=
  decidable_of_iff _ (spells_iff table route position binding events).symm

instance (table : KeybindingTable) (route : BindingContext) (stroke : NormalizedStroke) (start : List KeyStroke)
    (last : KeyStroke) : Decidable (FirstWritten table route stroke start last) := by
  unfold FirstWritten
  infer_instance

instance Leads.decidable (table : KeybindingTable) (route : BindingContext) (start strokes : List KeyStroke)
    (events : List (NormalizedStroke × Nat)) : Decidable (Leads table route start strokes events) :=
  match strokes, events with
  | last :: next :: rest, event :: events =>
      have := Leads.decidable table route (start ++ [last]) (next :: rest) events
      inferInstanceAs (Decidable (_ ∧ _))
  | [], _ | [_], _ | _ :: _ :: _, [] => isTrue (by simp [Leads])

section Steps

variable {table : KeybindingTable} {route : BindingContext} {position : Nat} {binding : CompiledBinding}
  {events before after : List (NormalizedStroke × Nat)} {event : NormalizedStroke × Nat} {done rest : List KeyStroke}
  {last : KeyStroke}

theorem matches_concat {own : KeyStroke} (first : Matches done before) (matching : strokeMatches own event.1 = true) :
    Matches (done ++ [own]) (before ++ [event]) :=
  List.rel_append first (.cons matching .nil)

theorem Completes.matches {index : Nat} {other : CompiledBinding} (first : Matches done before)
    (completes : Completes table event.1 route done index other) :
    Matches other.sequence.strokes (before ++ [event]) := by
  obtain ⟨own, strokes, matching⟩ := continues_iff.mp completes.2.2
  rw [strokes]
  exact matches_concat first matching

theorem Spells.completes_last (spells : Spells table route position binding (before ++ [event]))
    (strokes : binding.sequence.strokes = done ++ [last]) (first : Matches done before)
    (matching : strokeMatches last event.1 = true) :
    matchBindingLength table event.1 route done = some binding.action := by
  refine matchBindingLength_eq ⟨spells.here, spells.usable, continues_iff.mpr ⟨last, strokes, matching⟩⟩ ?_
  intro index other completes
  exact spells.only (other, index) (List.mem_zipIdx_iff_getElem?.mpr completes.1) completes.2.1 (completes.matches first)

theorem Spells.completes_none (spells : Spells table route position binding (before ++ event :: after))
    (more : after ≠ []) (first : Matches done before) : matchBindingLength table event.1 route done = none := by
  cases found : matchBindingLength table event.1 route done with
  | none => rfl
  | some command =>
      obtain ⟨index, other, completes, _⟩ := exists_completes found
      have some_ : 0 < after.length := List.length_pos_iff.mpr more
      have taken : (before ++ event :: after).take (before.length + 1) = before ++ [event] := by
        simp [List.take_append]
      have short : before.length + 1 < (before ++ event :: after).length := by
        simpa using some_
      have never := spells.early other (List.mem_of_getElem? completes.1) completes.2.1 _ short
      rw [taken] at never
      exact absurd (completes.matches first) never

theorem Spells.longer (spells : Spells table route position binding events)
    (indexed : table.chordPrefixIndex = buildChordPrefixIndex table.bindings)
    (strokes : binding.sequence.strokes = done ++ last :: rest) (more : rest ≠ [])
    (matching : strokeMatches last event.1 = true) (leads : FirstWritten table route event.1 done last) :
    ∃ longer : BindingSequence, longerPrefix table event.1 route done = some longer ∧
      longer.strokes = done ++ [last] := by
  have listed := List.mem_of_getElem? spells.here
  obtain ⟨longer, found⟩ := Option.ne_none_iff_exists'.mp
    (longerPrefix_ne_none indexed listed spells.usable strokes more matching)
  refine ⟨longer, found, ?_⟩
  obtain ⟨continued, other, among, usable, ⟨tail, begins⟩, shorter⟩ := exists_of_longerPrefix indexed found
  obtain ⟨own, split, agrees⟩ := continues_iff.mp continued
  rw [split, List.append_assoc, List.singleton_append] at begins
  rw [split, List.length_append, List.length_singleton] at shorter
  -- Of two written strokes in front of one another, neither is written first.
  rcases leads other among shorter own (nextStroke_eq_some.mpr ⟨usable, ⟨tail, begins.symm⟩, agrees⟩) with rfl | front
  · exact split
  · refine (longerPrefix_least indexed found listed spells.usable strokes more matching).resolve_right fun behind => ?_
    rw [split] at behind
    exact List.lt_asymm (of_decide_eq_true front) (of_decide_eq_true behind)

theorem firstWritten_of_longerPrefix (indexed : table.chordPrefixIndex = buildChordPrefixIndex table.bindings)
    {longer : BindingSequence} (found : longerPrefix table event.1 route done = some longer)
    (split : longer.strokes = done ++ [last]) : FirstWritten table route event.1 done last := by
  intro other listed long own next
  obtain ⟨usable, ⟨rest, strokes⟩, matching⟩ := nextStroke_eq_some.mp next
  have more : rest ≠ [] := by
    rintro rfl
    simp [strokes] at long
  rcases longerPrefix_least indexed found listed usable strokes more matching with same | front
  · rw [split, List.append_cancel_left_eq, List.singleton_inj] at same
    exact .inl same.symm
  · exact .inr (split ▸ front)

variable {stroke : NormalizedStroke} {now : Nat} {start : BindingSequence}

theorem routeClean_matched {command : WorkspaceCommand} (free : isReservedEvent stroke = false)
    (found : matchSingleStroke table stroke route = some command) :
    routeClean table stroke route false now = (.matched command, none) := by
  cases has : stroke.hasCommand <;> simp [routeClean, has, free, found]

theorem routeClean_wait (free : isReservedEvent stroke = false) (none : matchSingleStroke table stroke route = none)
    (opened : openChordPrefix table stroke route = some start) :
    routeClean table stroke route false now = (.prefixWait, ChordPrefixState.activate start now) := by
  cases has : stroke.hasCommand <;> simp [routeClean, has, free, none, opened]

theorem routeKeystroke_active {deadline : Nat} (soon : now < deadline) :
    routeKeystroke table stroke route false (some ⟨start, deadline⟩) now =
      routeWithActivePrefix table stroke route false ⟨start, deadline⟩ now := by
  have kept : ChordPrefixState.expireIfDue (some ⟨start, deadline⟩) now = some ⟨start, deadline⟩ := by
    simp [ChordPrefixState.expireIfDue, Option.filter, soon]
  simp only [routeKeystroke, kept]

/-- Each event comes before the deadline that the one before it set. -/
def Timely (deadline : Nat) : List (NormalizedStroke × Nat) → Prop
  | [] => True
  | event :: events => event.2 < deadline ∧ Timely (event.2 + chordPrefixTimeout) events

def reached (count : Nat) (action : WorkspaceCommand) : List RouteOutcome :=
  List.replicate count .prefixWait ++ [.matched action]

theorem Spells.routeStrokes_active (spells : Spells table route position binding (before ++ event :: after))
    (indexed : table.chordPrefixIndex = buildChordPrefixIndex table.bindings)
    (strokes : binding.sequence.strokes = done ++ rest) (first : Matches done before)
    (second : Matches rest (event :: after)) (leads : Leads table route done rest (event :: after))
    (waiting : start.strokes = done) {deadline : Nat}
    (timely : Timely deadline (event :: after)) :
    routeStrokes table route (some ⟨start, deadline⟩) (event :: after) = reached after.length binding.action := by
  induction after generalizing event done before start deadline rest with
  | nil =>
      obtain ⟨last, _, matching, none, rfl⟩ := List.forall₂_cons_right_iff.mp second
      cases List.forall₂_nil_right_iff.mp none
      have complete := spells.completes_last strokes first matching
      simp [routeStrokes, routeKeystroke_active timely.1, routeWithActivePrefix, waiting, matchExtendedComplete, complete,
        reached]
  | cons following after ih =>
      obtain ⟨last, _, matching, others, rfl⟩ := List.forall₂_cons_right_iff.mp second
      obtain ⟨next, rest, _, _, rfl⟩ := List.forall₂_cons_right_iff.mp others
      have none := spells.completes_none (List.cons_ne_nil _ _) first
      obtain ⟨longer, found, extended⟩ := spells.longer indexed strokes (List.cons_ne_nil _ _) matching leads.1
      have onward := @ih (before ++ [event]) following (done ++ [last]) (next :: rest) longer
        (by simpa using spells) (by simpa using strokes) (matches_concat first matching) others leads.2 extended _
        timely.2
      simp only [routeStrokes] at onward
      simp only [routeStrokes, routeKeystroke_active timely.1, routeWithActivePrefix, waiting, matchExtendedComplete,
        none, matchExtendedPrefix, found, ChordPrefixState.activate, onward]
      rfl

def waiting (chord : ChordPrefixState) : List KeyStroke := (chord.map fun active => active.start.strokes).getD []

/-- What matches or waits has extended the strokes that were waiting, or begun anew. -/
theorem routeKeystroke_extends {chord : ChordPrefixState} :
    let routed := routeKeystroke table stroke route false chord now
    (∀ command, routed.1 = .matched command → ∃ start, (start = waiting chord ∨ start = []) ∧
      matchBindingLength table stroke route start = some command) ∧
    (routed.1 = .prefixWait → ∃ start longer, (start = waiting chord ∨ start = []) ∧
      longerPrefix table stroke route start = some longer ∧ routed.2 = ChordPrefixState.activate longer now) := by
  have clean : ∀ outcome, (routeClean table stroke route false now).1 = outcome →
      (∀ command, outcome = .matched command → matchBindingLength table stroke route [] = some command) ∧
      (outcome = .prefixWait → ∃ longer, longerPrefix table stroke route [] = some longer ∧
        (routeClean table stroke route false now).2 = ChordPrefixState.activate longer now) := by
    unfold routeClean matchSingleStroke openChordPrefix
    grind
  have anew := clean _ rfl
  cases kept : chord.expireIfDue now with
  | none =>
      simp only [routeKeystroke, kept]
      refine ⟨fun command found => ⟨[], .inr rfl, anew.1 command found⟩, fun waits => ?_⟩
      obtain ⟨longer, found, left⟩ := anew.2 waits
      exact ⟨[], longer, .inr rfl, found, left⟩
  | some active =>
      have here : waiting chord = active.start.strokes := by
        rw [(Option.filter_eq_some_iff.mp kept).1]
        rfl
      simp only [routeKeystroke, kept, routeWithActivePrefix, matchExtendedComplete, matchExtendedPrefix, ← here]
      cases complete : matchBindingLength table stroke route (waiting chord) with
      | some command => exact ⟨fun _ same => ⟨_, .inl rfl, by simpa [complete] using same⟩, fun waits => by cases waits⟩
      | none =>
          cases extended : longerPrefix table stroke route (waiting chord) with
          | some longer =>
              refine ⟨fun _ same => ?_, fun _ => ⟨_, longer, .inl rfl, extended, rfl⟩⟩
              cases same
          | none =>
              refine ⟨fun command found => ⟨[], .inr rfl, anew.1 command found⟩, fun waits => ?_⟩
              obtain ⟨longer, found, left⟩ := anew.2 waits
              exact ⟨[], longer, .inr rfl, found, left⟩

/-- The events behind those of the waiting strokes lead to an action of a binding that goes on as they do, each stroke
    of it being written first, or of one that begins later. -/
theorem exists_of_reached (indexed : table.chordPrefixIndex = buildChordPrefixIndex table.bindings)
    {chord : ChordPrefixState} {action : WorkspaceCommand}
    (outcomes : routeStrokes table route chord (event :: after) = reached after.length action) :
    ∃ (position : Nat) (other : CompiledBinding), table.bindings[position]? = some other ∧ other.usable route = true ∧
      other.action = action ∧
      ((∃ rest, other.sequence.strokes = waiting chord ++ rest ∧ Matches rest (event :: after) ∧
        Leads table route (waiting chord) rest (event :: after)) ∨
      ∃ count, (waiting chord = [] → 0 < count) ∧ Matches other.sequence.strokes ((event :: after).drop count)) := by
  induction after generalizing event chord with
  | nil =>
      have head : (routeKeystroke table event.1 route false chord event.2).1 = .matched action := by
        simpa [routeStrokes, reached] using outcomes
      obtain ⟨start, whence, found⟩ := routeKeystroke_extends.1 action head
      obtain ⟨position, other, ⟨here, usable, continued⟩, acts⟩ := exists_completes found
      obtain ⟨last, strokes, matching⟩ := continues_iff.mp continued
      have single : Matches [last] [event] := .cons matching .nil
      refine ⟨position, other, here, usable, acts, ?_⟩
      by_cases same : start = waiting chord
      · exact .inl ⟨[last], same ▸ strokes, single, trivial⟩
      · obtain rfl := whence.resolve_left same
        exact .inr ⟨0, fun none => absurd none.symm same, by simpa [strokes] using single⟩
  | cons following after ih =>
      have split : (routeKeystroke table event.1 route false chord event.2).1 = .prefixWait ∧
          routeStrokes table route (routeKeystroke table event.1 route false chord event.2).2 (following :: after) =
            reached after.length action := List.cons.inj outcomes
      obtain ⟨start, longer, whence, found, left⟩ := routeKeystroke_extends.2 split.1
      rw [left] at split
      obtain ⟨position, other, here, usable, acts, onward⟩ := ih split.2
      obtain ⟨continued, _⟩ := exists_of_longerPrefix indexed found
      obtain ⟨last, written, matching⟩ := continues_iff.mp continued
      have now : waiting (ChordPrefixState.activate longer event.2) = start ++ [last] := written
      rw [now] at onward
      refine ⟨position, other, here, usable, acts, ?_⟩
      rcases onward with ⟨rest, strokes, remaining, leads⟩ | ⟨count, _, later⟩
      · have whole : Matches (last :: rest) (event :: following :: after) := .cons matching remaining
        rw [List.append_assoc, List.singleton_append] at strokes
        by_cases same : start = waiting chord
        · refine .inl ⟨last :: rest, same ▸ strokes, whole, ?_⟩
          cases remaining with
          | cons =>
              rw [← same]
              exact ⟨firstWritten_of_longerPrefix indexed found written, leads⟩
        · obtain rfl := whence.resolve_left same
          exact .inr ⟨0, fun none => absurd none.symm same, by simpa [strokes] using whole⟩
      · exact .inr ⟨count + 1, fun _ => Nat.succ_pos _, later⟩

end Steps

/-- A chord that survives is reached if each of its strokes is written first for its event; otherwise only through
    another binding of the action, for events that come later. -/
theorem chord_is_reached (root : Option TomlTable) (route : BindingContext) (position : Nat) (binding : CompiledBinding)
    (event : NormalizedStroke × Nat) (events : List (NormalizedStroke × Nat))
    (spells : Spells (loadKeybindingTable root) route position binding (event :: events))
    (timely : Timely (event.2 + chordPrefixTimeout) events) :
    let outcomes := routeStrokes (loadKeybindingTable root) route none (event :: events)
    let reached := List.replicate events.length .prefixWait ++ [.matched binding.action]
    let leads := Leads (loadKeybindingTable root) route [] binding.sequence.strokes (event :: events)
    (leads → outcomes = reached) ∧
    (outcomes = reached → leads ∨ ∃ other ∈ (loadKeybindingTable root).bindings, other.usable route = true ∧
      other.action = binding.action ∧ ∃ count, 0 < count ∧
        Matches other.sequence.strokes ((event :: events).drop count)) := by
  intro outcomes reached leads
  have indexed := loadKeybindingTable_indexed root
  constructor
  · intro given
    have free := spells.free event List.mem_cons_self
    have first : Matches [] [] := .nil
    have clean : outcomes = (routeClean (loadKeybindingTable root) event.1 route false event.2).1 ::
      routeStrokes (loadKeybindingTable root) route
        (routeClean (loadKeybindingTable root) event.1 route false event.2).2 events := rfl
    have start : Spells (loadKeybindingTable root) route position binding ([] ++ event :: events) := spells
    obtain ⟨last, rest, here, others, written⟩ := List.forall₂_cons_right_iff.mp spells.matching
    cases others with
    | nil =>
        have complete := start.completes_last written first here
        rw [clean, routeClean_matched free complete]
        rfl
    | @cons next following rest after there remaining =>
        have none := start.completes_none (List.cons_ne_nil _ _) first
        have leads : Leads (loadKeybindingTable root) route [] (last :: next :: rest) (event :: following :: after) :=
          written ▸ given
        obtain ⟨longer, found, extended⟩ := start.longer indexed written (List.cons_ne_nil _ _) here leads.1
        have onward : Spells (loadKeybindingTable root) route position binding ([event] ++ following :: after) := spells
        rw [clean, routeClean_wait free none found]
        exact congrArg _ (onward.routeStrokes_active indexed written (.cons here .nil) (.cons there remaining)
          leads.2 extended timely)
  · intro outcome
    obtain ⟨place, other, here, usable, acts, whole | ⟨count, later, suffix⟩⟩ := exists_of_reached indexed outcome
    · obtain ⟨rest, strokes, matching, leads⟩ := whole
      obtain rfl : other.sequence.strokes = rest := strokes
      have same := spells.only (other, place) (List.mem_zipIdx_iff_getElem?.mpr here) usable matching
      cases here.symm.trans (same ▸ spells.here)
      exact .inl leads
    · exact .inr ⟨other, List.mem_of_getElem? here, usable, acts, count, later rfl, suffix⟩

def twoChords : Option TomlTable :=
  some (flowBindings [("ctrl+shift+2>a", "tab.create"), ("ctrl+shift+@>b", "window.new")])

def firstChord : CompiledBinding :=
  ⟨⟨[⟨.ctrl ||| .shift, .char '2'⟩, ⟨0#8, .char 'a'⟩], by decide⟩, "ctrl+shift+2>a", ⟨.tabCreate, none⟩, .flow, .user 0⟩

/-- `ctrl+shift+2` is in front of `ctrl+shift+@`, which the event matches as well. -/
theorem first_written_stroke_is_reached :
    routeStrokes (loadKeybindingTable twoChords) (.app ||| .flow) none
      [(⟨.ctrl ||| .shift, .char '2', some '@'⟩, 0), (⟨0#8, .char 'a', none⟩, 999)] =
        [.prefixWait, .matched ⟨.tabCreate, none⟩] := by
  have spells : Spells (loadKeybindingTable twoChords) (.app ||| .flow) 38 firstChord
      [(⟨.ctrl ||| .shift, .char '2', some '@'⟩, 0), (⟨0#8, .char 'a', none⟩, 999)] := by decide +kernel
  have leads : Leads (loadKeybindingTable twoChords) (.app ||| .flow) [] firstChord.sequence.strokes
      [(⟨.ctrl ||| .shift, .char '2', some '@'⟩, 0), (⟨0#8, .char 'a', none⟩, 999)] := by decide +kernel
  have timely : Timely (0 + chordPrefixTimeout) [((⟨0#8, .char 'a', none⟩, 999) : NormalizedStroke × Nat)] :=
    ⟨by decide, trivial⟩
  have reached := chord_is_reached twoChords (.app ||| .flow) 38 firstChord _ _ spells timely
  exact reached.1 leads

/-- `ctrl+shift+2` and `ctrl+shift+@` are one key press. The router takes the first as the prefix, and then the chord that
    is written with the second cannot be completed. -/
theorem second_written_stroke_is_not_reached :
    let table := loadKeybindingTable twoChords
    let binding : CompiledBinding :=
      ⟨⟨[⟨.ctrl ||| .shift, .char '@'⟩, ⟨0#8, .char 'b'⟩], by decide⟩, "ctrl+shift+@>b", ⟨.windowNew, none⟩, .flow, .user 1⟩
    let events : List (NormalizedStroke × Nat) :=
      [(⟨.ctrl ||| .shift, .char '2', some '@'⟩, 0), (⟨0#8, .char 'b', none⟩, 1)]
    Spells table (.app ||| .flow) 39 binding events ∧
      routeStrokes table (.app ||| .flow) none events = [.prefixWait, .fallthrough] := by
  decide +kernel

end Seyal.Client.Keybinding
