import Seyal.Client.Keybinding.Route

namespace Seyal.Client.Keybinding

/-! The precedence of reserved strokes and of composition, in every chord state. -/

/-- The shift-applied character, if the event has one, is the base key up to the case of a letter. -/
def PlainShift (event : NormalizedStroke) : Prop :=
  ∀ char, event.shiftApplied = some char → ∃ base, event.key = .char base ∧ charsEq base char = true

section Reserved

variable {event : NormalizedStroke} {stroke : KeyStroke}

theorem toLower_eq_of_charsEq {first second : Char} (equal : charsEq first second = true) :
    first.toLower = second.toLower := by
  unfold charsEq at equal
  split at equal
  next => simpa using equal
  next => rw [of_decide_eq_true equal]

theorem toLower_of_not_isUpper {char : Char} (plain : char.isUpper = false) : char.toLower = char := by
  delta Char.isUpper at plain
  delta Char.toLower
  split
  next capital => grind
  next => rfl

theorem eq_of_toLower_eq {first second : Char} (plain : first.isUpper = false) (also : second.isUpper = false)
    (equal : first.toLower = second.toLower) : first = second := by
  rwa [toLower_of_not_isUpper plain, toLower_of_not_isUpper also] at equal

theorem modifiers_eq {first second : Modifiers} (low : first &&& 240#8 = 0#8) (also : second &&& 240#8 = 0#8)
    (shift : first.contains .shift = second.contains .shift) (others : first &&& nonShift = second &&& nonShift) :
    first = second := by
  have parts : ∀ modifiers : Modifiers, modifiers =
      (modifiers &&& 240#8) ||| (if modifiers.contains .shift then 4#8 else 0#8) ||| (modifiers &&& nonShift) := by
    decide
  rw [parts first, parts second, low, also, shift, others]

theorem strokeMatches_cases (matching : strokeMatches stroke event = true) :
    (stroke.modifiers.contains .shift = event.modifiers.contains .shift ∧
      stroke.modifiers &&& nonShift = event.modifiers &&& nonShift) ∧
    (keyEq stroke.key event.key = true ∨ shiftAppliedMatches stroke.key event.shiftApplied = true) := by
  unfold strokeMatches at matching
  split_ifs at matching with shift others plain
  · simp only [bne_iff_ne, ne_eq, Decidable.not_not] at shift others
    exact ⟨⟨shift, others⟩, .inl matching⟩
  · simp only [bne_iff_ne, ne_eq, Decidable.not_not] at shift others
    exact ⟨⟨shift, others⟩, by simpa using matching⟩

theorem isReservedStroke_iff {modifiers : Modifiers} {key : KeySym} :
    isReservedStroke modifiers key = true ↔ ⟨modifiers, key⟩ ∈ reservedStrokes := by
  simp [isReservedStroke, BindingSequence.tryFromStrokes, isReservedSequence]

theorem keyEq_char {key : KeySym} {base : Char} (equal : keyEq key (.char base) = true) :
    ∃ char, key = .char char ∧ char.toLower = base.toLower := by
  cases key with
  | named key => cases equal
  | char char => exact ⟨char, rfl, toLower_eq_of_charsEq equal⟩

theorem shiftAppliedMatches_some {key : KeySym} (equal : shiftAppliedMatches key event.shiftApplied = true) :
    ∃ char actual, key = .char char ∧ event.shiftApplied = some actual ∧ char.toLower = actual.toLower := by
  unfold shiftAppliedMatches at equal
  split at equal
  next expected actual same => exact ⟨expected, actual, rfl, same, toLower_eq_of_charsEq equal⟩
  next => cases equal

theorem key_of_strokeMatches (plain : PlainShift event) (matching : strokeMatches stroke event = true) {base : Char}
    (named : event.key = .char base) : ∃ char, stroke.key = .char char ∧ char.toLower = base.toLower := by
  rcases (strokeMatches_cases matching).2 with same | shifted
  · rw [named] at same
    exact keyEq_char same
  · obtain ⟨char, actual, key, applied, equal⟩ := shiftAppliedMatches_some shifted
    obtain ⟨other, also, agree⟩ := plain actual applied
    cases named.symm.trans also
    exact ⟨char, key, equal.trans (toLower_eq_of_charsEq agree).symm⟩

theorem mem_reservedStrokes_of_strokeMatches (written : stroke.Written) (plain : PlainShift event)
    (reserved : isReservedEvent event = true) (matching : strokeMatches stroke event = true) :
    stroke ∈ reservedStrokes := by
  -- The reserved stroke `⟨event.modifiers, key⟩` is `stroke` as soon as their keys agree.
  have settle : ∀ key, ⟨event.modifiers, key⟩ ∈ reservedStrokes → stroke.key = key → stroke ∈ reservedStrokes := by
    intro key member same
    have modifiers := modifiers_eq written.1 (written_of_mem_reservedStrokes member).1
      (strokeMatches_cases matching).1.1 (strokeMatches_cases matching).1.2
    have equal : stroke = ⟨event.modifiers, key⟩ := by
      cases stroke
      cases modifiers
      cases same
      rfl
    rw [equal]
    exact member
  have settleChar : ∀ char base, ⟨event.modifiers, .char char⟩ ∈ reservedStrokes → event.key = .char base →
      base.toLower = char.toLower → stroke ∈ reservedStrokes := by
    intro char base member named equal
    obtain ⟨own, key, agree⟩ := key_of_strokeMatches plain matching named
    have lower := (written_of_mem_reservedStrokes member).2 char rfl
    have mine := written.2 own (by rw [key])
    exact settle _ member (key.trans (congrArg _ (eq_of_toLower_eq mine lower (agree.trans equal))))
  unfold isReservedEvent at reserved
  rcases Bool.or_eq_true_iff.mp reserved with direct | applied
  · have member := isReservedStroke_iff.mp direct
    cases named : event.key with
    | char base => exact settleChar base base (named ▸ member) named rfl
    | named key =>
        rcases (strokeMatches_cases matching).2 with same | shifted
        · rw [named] at same
          cases own : stroke.key with
          | named mine =>
              rw [own] at same
              exact settle _ member (by rw [own, named, of_decide_eq_true same])
          | char mine =>
              rw [own] at same
              cases same
        · obtain ⟨_, actual, _, present, _⟩ := shiftAppliedMatches_some shifted
          obtain ⟨other, also, _⟩ := plain actual present
          cases named.symm.trans also
  · cases present : event.shiftApplied with
    | none =>
        rw [present] at applied
        cases applied
    | some char =>
        rw [present] at applied
        obtain ⟨base, named, agree⟩ := plain char present
        exact settleChar char base (isReservedStroke_iff.mp applied) named (toLower_eq_of_charsEq agree)

end Reserved

section Routing

variable {table : KeybindingTable} {event : NormalizedStroke} {route : BindingContext} {start : List KeyStroke}

theorem strokeMatches_eq_false (admitted : ∀ binding ∈ table.bindings, Admitted binding.sequence)
    (plain : PlainShift event) (reserved : isReservedEvent event = true) {binding : CompiledBinding}
    (listed : binding ∈ table.bindings) {stroke : KeyStroke} (member : stroke ∈ binding.sequence.strokes) :
    strokeMatches stroke event = false := by
  obtain ⟨free, written⟩ := admitted binding listed
  cases matching : strokeMatches stroke event with
  | false => rfl
  | true =>
      have among := mem_reservedStrokes_of_strokeMatches (written stroke member) plain reserved matching
      rw [← free]
      exact (List.any_eq_true.mpr ⟨stroke, member, by simpa using among⟩).symm

theorem nextStroke_reserved (admitted : ∀ binding ∈ table.bindings, Admitted binding.sequence)
    (plain : PlainShift event) (reserved : isReservedEvent event = true) {binding : CompiledBinding}
    (listed : binding ∈ table.bindings) : nextStroke event route start binding = none := by
  refine Option.eq_none_iff_forall_ne_some.mpr fun last next => ?_
  obtain ⟨_, ⟨rest, strokes⟩, matching⟩ := nextStroke_eq_some.mp next
  have member : last ∈ binding.sequence.strokes := by simp [strokes]
  cases matching.symm.trans (strokeMatches_eq_false admitted plain reserved listed member)

theorem routeClean_reserved {compositionActive : Bool} {now : Nat} (command : event.hasCommand = true)
    (reserved : isReservedEvent event = true) :
    routeClean table event route compositionActive now = (.reservedCommand, none) := by
  simp [routeClean, command, reserved]

theorem routeKeystroke_reserved_iff {compositionActive : Bool} {chord : ChordPrefixState} {now : Nat}
    (indexed : table.chordPrefixIndex = buildChordPrefixIndex table.bindings)
    (command : event.hasCommand = true) (reserved : isReservedEvent event = true) :
    (routeKeystroke table event route compositionActive chord now).1 = .reservedCommand ↔
      ∀ active ∈ chord.expireIfDue now, ∀ binding ∈ table.bindings,
        nextStroke event route active.start.strokes binding = none := by
  unfold routeKeystroke
  cases chord.expireIfDue now with
  | none => simp [routeClean_reserved command reserved]
  | some active =>
      simp only [Option.mem_some_iff, forall_eq', ← extends_none_iff indexed, routeWithActivePrefix]
      cases matchExtendedComplete table event route active.start.strokes with
      | some => simp
      | none =>
          cases matchExtendedPrefix table event route active.start.strokes with
          | some => simp
          | none => simp [routeClean_reserved command reserved]

theorem routeClean_composing {now : Nat} : (routeClean table event route true now).2 = none := by
  unfold routeClean
  split
  next =>
    split
    next => rfl
    next =>
      split
      next => rfl
      next => rfl
  next => rfl

end Routing

/-- For every loaded table, from every chord state: a reserved stroke is left to the host unless a usable binding goes on
    behind the strokes that wait with one that the event matches, which takes a shift-applied character other than the
    base key; composition has every stroke without Command, and no chord is left waiting under it. -/
theorem routing_precedence (root : Option TomlTable) (chord : ChordPrefixState) (call : RouteCall) :
    let routed := routeNormalizedKeystroke (loadKeybindingTable root) chord call
    let goesOn := fun start binding => nextStroke call.stroke
      (routeContextSet call.paletteOpen call.mode call.composerFirstResponder) start binding ≠ none
    (call.stroke.hasCommand = true → isReservedEvent call.stroke = true →
      (routed.outcome = .reservedCommand ∧ routed.dispatched = none ↔ call.compositionActive = true ∨
        ∀ active ∈ chord.expireIfDue call.now, ∀ binding ∈ (loadKeybindingTable root).bindings,
          ¬ goesOn active.start.strokes binding) ∧
      (PlainShift call.stroke → ∀ start, ∀ binding ∈ (loadKeybindingTable root).bindings, ¬ goesOn start binding)) ∧
    (call.compositionActive = true → call.stroke.hasCommand = false →
      routed.outcome = .compositionConsumes ∧ routed.dispatched = none) ∧
    (call.compositionActive = true → routed.chord = none) := by
  have indexed := loadKeybindingTable_indexed root
  refine ⟨fun command reserved => ⟨?_, fun plain start binding listed => ?_⟩, fun composing plain => ?_,
    fun composing => ?_⟩
  · have dispatched : ∀ outcome : RouteOutcome,
        outcome = .reservedCommand ∧ outcome.matchedCommand = none ↔ outcome = .reservedCommand :=
      fun outcome => and_iff_left_of_imp fun same => same ▸ rfl
    simp only [routeNormalizedKeystroke, not_not]
    rw [dispatched, routeKeystroke_reserved_iff indexed command reserved]
    cases call.compositionActive with
    | true => simp [ChordPrefixState.expireIfDue]
    | false => simp
  · exact not_not.mpr (nextStroke_reserved (loadKeybindingTable_admitted root) plain reserved listed)
  · have outcome : ∀ table route, routeClean table call.stroke route true call.now = (.compositionConsumes, none) := by
      intro table route
      simp [routeClean, plain]
    simp [routeNormalizedKeystroke, composing, routeKeystroke, ChordPrefixState.expireIfDue, outcome,
      RouteOutcome.matchedCommand]
  · simp only [routeNormalizedKeystroke, composing, if_true, routeKeystroke, ChordPrefixState.expireIfDue,
      Option.filter_none]
    exact routeClean_composing

def flowBindings (bindings : List (String × String)) : TomlTable :=
  [("keybindings", .array (bindings.map fun binding =>
    .table [("action", .string binding.2), ("context", .array [.string "flow"]), ("keys", .string binding.1)]))]

/-- While `ctrl+b>c` waits for its second stroke, `cmd+shift+3` is left to the host. -/
theorem routing_precedence_waiting :
    (routeNormalizedKeystroke (loadKeybindingTable (some (flowBindings [("ctrl+b>c", "tab.create")])))
      (ChordPrefixState.activate ⟨[⟨.ctrl, .char 'b'⟩], by decide⟩ 0)
      { stroke := ⟨.cmd ||| .shift, .char '3', some '#'⟩, now := 1 }).outcome = .reservedCommand :=
  (((routing_precedence (some (flowBindings [("ctrl+b>c", "tab.create")]))
    (ChordPrefixState.activate ⟨[⟨.ctrl, .char 'b'⟩], by decide⟩ 0)
    { stroke := ⟨.cmd ||| .shift, .char '3', some '#'⟩, now := 1 }).1 (by decide) (by decide +kernel)).1.mpr
      (.inr (by decide +kernel))).1

/-- After the chord prefix `ctrl+b`, the reserved stroke `cmd+shift+3` comes with the character `#` and completes the
    chord `ctrl+b>cmd+shift+#`. -/
theorem reserved_stroke_completes_chord :
    let reserved : NormalizedStroke := ⟨.cmd ||| .shift, .char '3', some '#'⟩
    reserved.hasCommand = true ∧ isReservedEvent reserved = true ∧
    (routeAll (loadKeybindingTable (some (flowBindings [("ctrl+b>cmd+shift+#", "tab.create")]))) none
      [{ stroke := ⟨.ctrl, .char 'b', none⟩, now := 0 }, { stroke := reserved, now := 1 }]).map Routed.outcome =
      [.prefixWait, .matched ⟨.tabCreate, none⟩] := by
  decide +kernel

end Seyal.Client.Keybinding
