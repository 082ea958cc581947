import Seyal.Client.Keybinding.Types
import Seyal.Program.Sift

namespace Seyal.Client.Keybinding

open Program BindingContext

/-! Conflict resolution: later entries take context bits from earlier ones, and shorter chords drop the longer ones that
they are a prefix of. -/

/-- Surviving bind after §7.1 steps 3–6 / §7.3 (still carries keys notation). -/
structure ResolvedBinding where
  sequence : BindingSequence
  keysNotation : String
  action : WorkspaceCommand
  actionLabel : String
  context : BindingContext
  source : BindingSource
  deriving Repr, DecidableEq

open ResolvedBinding

def ResolvedBinding.compiled (binding : ResolvedBinding) : CompiledBinding where
  sequence := binding.sequence
  keysNotation := binding.keysNotation
  action := binding.action
  context := binding.context
  source := binding.source

section Conflicts

def overlapWith (entry : PendingEntry) : Option PendingEntry → BindingContext
  | some prev => if prev.sequence = entry.sequence then prev.context &&& entry.context else 0#8
  | none => 0#8

def takeFrom (entry : PendingEntry) (slot : Option PendingEntry) : Option PendingEntry :=
  if (overlapWith entry slot).isEmpty then slot
  else
    (slot.map fun prev => { prev with context := prev.context.remove (overlapWith entry slot) }).filter
      fun prev => !prev.context.isEmpty

def duplicateSequenceDiag (earlier later : PendingEntry) (transferred : BindingContext) : KeybindingDiagnostic where
  category := .duplicateSequence
  keysNotation := later.keysNotation
  action := later.actionLabel
  source := later.source
  message :=
    "duplicate sequence: later " ++ later.actionLabel ++ " (" ++ later.source.debug ++ ") replaces earlier " ++
      earlier.actionLabel ++ " (" ++ earlier.source.debug ++ ") for [" ++
      ", ".intercalate (transferred.iterBits.filterMap bitName) ++ "]"

def takenDiag (entry : PendingEntry) (slot : Option PendingEntry) : Option KeybindingDiagnostic :=
  if (overlapWith entry slot).isEmpty then none
  else slot.map fun prev => duplicateSequenceDiag prev entry (overlapWith entry slot)

def unbindNoEffectDiag (entry : PendingEntry) : KeybindingDiagnostic where
  category := .unbindNoEffect
  keysNotation := entry.keysNotation
  action := entry.actionLabel
  source := entry.source
  message := "unbind took no context bits from earlier bindings"

def resolveEntry (state : List (Option PendingEntry) × List KeybindingDiagnostic) (entry : PendingEntry) :
    List (Option PendingEntry) × List KeybindingDiagnostic :=
  let taken := (state.1.map (overlapWith entry)).foldl (· ||| ·) 0#8
  let live := state.1.map (takeFrom entry)
  let diagnostics := state.2 ++ state.1.filterMap (takenDiag entry)
  match entry.action with
  | none => (live, if isEmpty taken then diagnostics ++ [unbindNoEffectDiag entry] else diagnostics)
  | some _ => (live ++ [some entry], diagnostics)

def resolvedBinding (entry : PendingEntry) : Option ResolvedBinding :=
  entry.action.map fun action =>
    { sequence := entry.sequence, keysNotation := entry.keysNotation, action, actionLabel := entry.actionLabel
      context := entry.context, source := entry.source }

/-- SPEC-024 §7.1 steps 3–6 and §7.3 unbind tombstones. -/
def resolveConflicts (pending : List PendingEntry) (diagnostics : List KeybindingDiagnostic) :
    List ResolvedBinding × List KeybindingDiagnostic :=
  let resolved := pending.foldl resolveEntry ([], diagnostics)
  ((resolved.1.filterMap id).filterMap resolvedBinding, resolved.2)

end Conflicts

section Shadowing

def isProperPrefix (shorter longer : BindingSequence) : Bool :=
  shorter.strokes.length < longer.strokes.length && shorter.strokes.isPrefixOf longer.strokes

def routeSets : List BindingContext :=
  [ .palette, .app ||| .flow, .app ||| .flow ||| .composer, .app ||| .raw, .app ||| .tui ]

/-- True when some §6.1 route context set intersects both binding contexts. -/
def contextsCanCoOccur (first second : BindingContext) : Bool :=
  routeSets.any fun route => !isEmpty (route &&& first) && !isEmpty (route &&& second)

def shadows (shorter longer : CompiledBinding) : Bool :=
  isProperPrefix shorter.sequence longer.sequence && contextsCanCoOccur shorter.context longer.context

def covers (shorter longer : ResolvedBinding) : Bool := shadows shorter.compiled longer.compiled

def shadowedDiag (shorter longer : ResolvedBinding) : KeybindingDiagnostic where
  category := .chordPrefixShadowed
  keysNotation := longer.keysNotation
  action := longer.actionLabel
  source := longer.source
  message :=
    "chord prefix shadowed: " ++ shorter.actionLabel ++ " (" ++ shorter.source.debug ++ ") is a proper prefix of " ++
      longer.actionLabel ++ " (" ++ longer.source.debug ++
      ") in a co-occurring route context set; shorter keys=" ++ shorter.keysNotation

def shadowedDiags (live : List (Option ResolvedBinding)) (position : Nat) : List KeybindingDiagnostic :=
  match live[position]? with
  | some (some shorter) =>
      live.zipIdx.filterMap fun slot =>
        if slot.2 = position then none else (slot.1.filter (covers shorter)).map (shadowedDiag shorter)
  | _ => []

def shadowFrom (state : List (Option ResolvedBinding) × List KeybindingDiagnostic) (position : Nat) :
    List (Option ResolvedBinding) × List KeybindingDiagnostic :=
  (sift covers state.1 position, state.2 ++ shadowedDiags state.1 position)

def strokeCount (bindings : List ResolvedBinding) (position : Nat) : Nat :=
  (bindings[position]?.map fun binding => binding.sequence.strokes.length).getD (2 ^ 64 - 1)

/-- The positions by the number of strokes, those with as many in the order of the list. -/
def shadowOrder (bindings : List ResolvedBinding) : List Nat :=
  (List.range bindings.length).insertionSort fun first second => strokeCount bindings first ≤ strokeCount bindings second

/-- Proper-prefix shadowing across co-occurring route sets (SPEC-024 §7.1 step 8). -/
def applyPrefixShadowing (bindings : List ResolvedBinding) (diagnostics : List KeybindingDiagnostic) :
    List CompiledBinding × List KeybindingDiagnostic :=
  let shadowed := (shadowOrder bindings).foldl shadowFrom (bindings.map some, diagnostics)
  ((shadowed.1.filterMap id).map compiled, shadowed.2)

end Shadowing

section Index

def NamedKey.rank (key : NamedKey) : Nat := key.ctorIdx

def KeyStroke.rank (stroke : KeyStroke) : Nat × Nat :=
  (stroke.modifiers.toNat,
    match stroke.key with
    | .named key => key.rank
    | .char value => 26 + value.toNat)

def ranks (strokes : List KeyStroke) : List Nat := strokes.flatMap fun stroke => [stroke.rank.1, stroke.rank.2]

def strokesBefore (first second : List KeyStroke) : Bool := ranks first < ranks second

/-- The derived order of `BindingSequence`. -/
def BindingSequence.before (first second : BindingSequence) : Bool := strokesBefore first.strokes second.strokes

def pushIndex (start : BindingSequence) (index : Nat) :
    List (BindingSequence × List Nat) → List (BindingSequence × List Nat)
  | [] => [(start, [index])]
  | (known, indices) :: rest =>
      if start = known then (known, indices ++ [index]) :: rest
      else if start.before known then (start, [index]) :: (known, indices) :: rest
      else (known, indices) :: pushIndex start index rest

def properPrefixes (sequence : BindingSequence) : List BindingSequence :=
  (List.range' 1 (sequence.strokes.length - 1)).filterMap fun len =>
    BindingSequence.tryFromStrokes (sequence.strokes.take len)

def buildChordPrefixIndex (bindings : List CompiledBinding) : List (BindingSequence × List Nat) :=
  bindings.zipIdx.foldl (fun map binding =>
    (properPrefixes binding.1.sequence).foldl (fun map start => pushIndex start binding.2 map) map) []

end Index

def finalize (pending : List PendingEntry) (diagnostics : List KeybindingDiagnostic) : KeybindingTable :=
  let resolved := resolveConflicts pending diagnostics
  let shadowed := applyPrefixShadowing resolved.1 resolved.2
  { bindings := shadowed.1, chordPrefixIndex := buildChordPrefixIndex shadowed.1, diagnostics := shadowed.2 }

section Owners

variable {entry prev : PendingEntry} {pending entries : List PendingEntry} {position bit : Nat}

def Covers (entry : PendingEntry) (sequence : BindingSequence) (bit : Nat) : Prop :=
  entry.sequence = sequence ∧ entry.context.getLsbD bit = true

/-- The entry at the position is the last one of the list that covers the pair. -/
def LastCovering (entries : List PendingEntry) (position : Nat) (sequence : BindingSequence) (bit : Nat) : Prop :=
  (∃ entry, entries[position]? = some entry ∧ Covers entry sequence bit) ∧
    ∀ later entry, position < later → entries[later]? = some entry → ¬Covers entry sequence bit

/-- The binding is what the entry at the position keeps: it owns the pairs which that entry is the last to cover. -/
def BindingOf (entries : List PendingEntry) (position : Nat) (binding : CompiledBinding) : Prop :=
  ∃ entry, entries[position]? = some entry ∧ entry.action = some binding.action ∧
    binding.sequence = entry.sequence ∧ binding.keysNotation = entry.keysNotation ∧ binding.source = entry.source ∧
    (∀ bit, binding.context.getLsbD bit = true ↔ LastCovering entries position entry.sequence bit) ∧
    (binding.context = 0#8 → entry.context = 0#8)

def leftAfter (entries : List PendingEntry) (slot : Option PendingEntry) : Option PendingEntry :=
  entries.foldl (fun slot entry => takeFrom entry slot) slot

theorem leftAfter_none : leftAfter entries none = none := by
  induction entries with
  | nil => rfl
  | cons entry entries ih => exact ih

def slotsOf : List PendingEntry → List (Option PendingEntry)
  | [] => []
  | entry :: rest =>
      match entry.action with
      | none => slotsOf rest
      | some _ => leftAfter rest (some entry) :: slotsOf rest

theorem foldl_resolveEntry (live : List (Option PendingEntry)) (diagnostics : List KeybindingDiagnostic) :
    (entries.foldl resolveEntry (live, diagnostics)).1 = live.map (leftAfter entries) ++ slotsOf entries := by
  induction entries generalizing live diagnostics with
  | nil =>
      have same : leftAfter [] = id := rfl
      simp [slotsOf, same]
  | cons entry entries ih =>
      have through : ∀ slot, leftAfter (entry :: entries) slot = leftAfter entries (takeFrom entry slot) := fun _ => rfl
      rw [List.foldl_cons]
      cases action : entry.action with
      | none | some command =>
          simp only [resolveEntry, action, slotsOf]
          rw [ih]
          simp [through, Function.comp_def]

theorem getLsbD_remove (context other : BindingContext) (bit : Nat) :
    (context.remove (context &&& other)).getLsbD bit = true ↔
      context.getLsbD bit = true ∧ ¬other.getLsbD bit = true := by
  unfold remove
  by_cases small : bit < 8
  · simp only [BitVec.getLsbD_and, BitVec.getLsbD_not, small, decide_true, Bool.true_and]
    cases context.getLsbD bit <;> cases other.getLsbD bit <;> simp
  · simp [BitVec.getLsbD_of_ge _ _ (Nat.le_of_not_lt small)]

theorem isEmpty_iff {context : BindingContext} : context.isEmpty = true ↔ ∀ bit, context.getLsbD bit = false := by
  unfold isEmpty
  rw [beq_iff_eq]
  constructor
  · rintro rfl bit
    exact BitVec.getLsbD_zero
  · intro clear
    exact BitVec.eq_of_getLsbD_eq fun bit _ => by rw [clear, BitVec.getLsbD_zero]

theorem takeFrom_some :
    (∃ context, takeFrom entry (some prev) = some { prev with context } ∧
      (context = 0#8 → prev.context = 0#8) ∧
      ∀ bit, context.getLsbD bit = true ↔ prev.context.getLsbD bit = true ∧ ¬Covers entry prev.sequence bit) ∨
    (takeFrom entry (some prev) = none ∧ prev.context ≠ 0#8 ∧
      ∀ bit, prev.context.getLsbD bit = true → Covers entry prev.sequence bit) := by
  by_cases nothing : (overlapWith entry (some prev)).isEmpty = true
  · refine .inl ⟨prev.context, by simp [takeFrom, nothing], id, fun bit => ⟨fun has => ⟨has, fun covered => ?_⟩, And.left⟩⟩
    have clear := isEmpty_iff.mp nothing bit
    simp [overlapWith, covered.1.symm, has, covered.2] at clear
  · have same : prev.sequence = entry.sequence := by
      by_contra differ
      simp [overlapWith, differ, isEmpty] at nothing
    have bits : ∀ bit, (prev.context.remove (overlapWith entry (some prev))).getLsbD bit = true ↔
        prev.context.getLsbD bit = true ∧ ¬Covers entry prev.sequence bit := by
      intro bit
      rw [overlapWith, if_pos same, getLsbD_remove]
      simp [Covers, same.symm]
    have held : prev.context ≠ 0#8 := by
      intro zero
      simp [overlapWith, zero, isEmpty] at nothing
    by_cases gone : (prev.context.remove (overlapWith entry (some prev))).isEmpty = true
    · refine .inr ⟨by simp [takeFrom, nothing, gone], held, fun bit has => ?_⟩
      by_contra free
      have kept := (bits bit).mpr ⟨has, free⟩
      rw [isEmpty_iff.mp gone bit] at kept
      cases kept
    · refine .inl ⟨_, by simp [takeFrom, nothing, gone], fun zero => ?_, bits⟩
      rw [zero] at gone
      simp [isEmpty] at gone

theorem leftAfter_some :
    (∃ context, leftAfter entries (some prev) = some { prev with context } ∧
      (context = 0#8 → prev.context = 0#8) ∧
      ∀ bit, context.getLsbD bit = true ↔
        prev.context.getLsbD bit = true ∧ ∀ entry ∈ entries, ¬Covers entry prev.sequence bit) ∨
    (leftAfter entries (some prev) = none ∧ prev.context ≠ 0#8 ∧
      ∀ bit, prev.context.getLsbD bit = true → ∃ entry ∈ entries, Covers entry prev.sequence bit) := by
  induction entries generalizing prev with
  | nil => exact .inl ⟨prev.context, rfl, id, fun bit => by simp⟩
  | cons entry entries ih =>
      have through : leftAfter (entry :: entries) (some prev) = leftAfter entries (takeFrom entry (some prev)) := rfl
      rw [through]
      rcases @takeFrom_some entry prev with ⟨context, taken, held, bits⟩ | ⟨taken, held, lost⟩
      · rw [taken]
        rcases @ih { prev with context } with ⟨left, result, still, rest⟩ | ⟨result, still, rest⟩
        · refine .inl ⟨left, result, fun zero => held (still zero), fun bit => ?_⟩
          rw [rest, bits, and_assoc, List.forall_mem_cons]
        · refine .inr ⟨result, fun zero => ?_, fun bit has => ?_⟩
          · apply still
            refine BitVec.eq_of_getLsbD_eq fun bit _ => ?_
            have nothing := bits bit
            simp only [zero, BitVec.getLsbD_zero] at nothing ⊢
            simpa using nothing
          · by_cases covered : Covers entry prev.sequence bit
            · exact ⟨entry, List.mem_cons_self, covered⟩
            · obtain ⟨later, member, covering⟩ := rest bit ((bits bit).mpr ⟨has, covered⟩)
              exact ⟨later, List.mem_cons_of_mem _ member, covering⟩
      · rw [taken, leftAfter_none]
        exact .inr ⟨rfl, held, fun bit has => ⟨entry, List.mem_cons_self, lost bit has⟩⟩

theorem lastCovering_cons_succ {sequence : BindingSequence} :
    LastCovering (entry :: entries) (position + 1) sequence bit ↔ LastCovering entries position sequence bit := by
  unfold LastCovering
  simp only [List.getElem?_cons_succ, and_congr_right_iff]
  intro _
  constructor
  · intro last later other after found
    exact last (later + 1) other (Nat.succ_lt_succ after) (by simpa using found)
  · intro last later other after found
    cases later with
    | zero => exact absurd after (Nat.not_lt_zero _)
    | succ later => exact last later other (Nat.lt_of_succ_lt_succ after) (by simpa using found)

theorem lastCovering_cons_zero {sequence : BindingSequence} :
    LastCovering (entry :: entries) 0 sequence bit ↔
      Covers entry sequence bit ∧ ∀ later ∈ entries, ¬Covers later sequence bit := by
  unfold LastCovering
  simp only [List.getElem?_cons_zero, Option.some.injEq, exists_eq_left', and_congr_right_iff]
  intro _
  constructor
  · intro last later member
    obtain ⟨index, found⟩ := List.mem_iff_getElem?.mp member
    exact last (index + 1) later (Nat.succ_pos _) (by simpa using found)
  · intro last later other after found
    cases later with
    | zero => exact absurd after (Nat.lt_irrefl _)
    | succ later => exact last other (List.mem_of_getElem? (by simpa using found))

theorem bindingOf_cons_succ {binding : CompiledBinding} :
    BindingOf (entry :: entries) (position + 1) binding ↔ BindingOf entries position binding := by
  simp only [BindingOf, List.getElem?_cons_succ, lastCovering_cons_succ]

theorem drawn_slotsOf (pending : List PendingEntry) :
    ∃ origins, Drawn (fun position binding => BindingOf pending position (compiled binding)) origins
      (((slotsOf pending).filterMap id).filterMap resolvedBinding) := by
  induction pending with
  | nil =>
      refine ⟨[], drawn_nil fun position binding owned => ?_⟩
      obtain ⟨entry, found, _⟩ := owned
      simp at found
  | cons entry rest ih =>
      obtain ⟨origins, drawn⟩ := ih
      have shifted : Drawn (fun position binding => BindingOf (entry :: rest) (position + 1)
          (compiled binding)) origins (((slotsOf rest).filterMap id).filterMap resolvedBinding) := by
        simpa only [bindingOf_cons_succ] using drawn
      cases action : entry.action with
      | none =>
          simp only [slotsOf, action]
          refine ⟨_, shifted.skip fun binding owned => ?_⟩
          obtain ⟨_, found, acts, _⟩ := owned
          cases found
          rw [action] at acts
          cases acts
      | some command =>
          simp only [slotsOf, action]
          rcases @leftAfter_some entry rest with ⟨context, result, held, bits⟩ | ⟨result, held, lost⟩
          · rw [result]
            have kept : resolvedBinding { entry with context } =
                some ⟨entry.sequence, entry.keysNotation, command, entry.actionLabel, context, entry.source⟩ := by
              simp [resolvedBinding, action]
            simp only [List.filterMap_cons, id, kept]
            refine ⟨_, shifted.keep ⟨entry, rfl, action, rfl, rfl, rfl, fun bit => ?_, held⟩⟩
            rw [lastCovering_cons_zero]
            simpa [Covers, compiled] using bits bit
          · rw [result]
            simp only [List.filterMap_cons, id]
            refine ⟨_, shifted.skip fun binding owned => ?_⟩
            obtain ⟨_, found, _, _, _, _, bits, empty⟩ := owned
            cases found
            apply held
            apply empty
            refine BitVec.eq_of_getLsbD_eq fun bit _ => ?_
            rw [BitVec.getLsbD_zero, ← Bool.not_eq_true, bits bit, lastCovering_cons_zero]
            rintro ⟨covered, none⟩
            obtain ⟨later, member, covering⟩ := lost bit covered.2
            exact none later member covering

theorem drawn_resolveConflicts (pending : List PendingEntry) (diagnostics : List KeybindingDiagnostic) :
    ∃ origins, Drawn (fun position binding => BindingOf pending position (compiled binding)) origins
      (resolveConflicts pending diagnostics).1 := by
  simpa [resolveConflicts, foldl_resolveEntry] using drawn_slotsOf pending

theorem exists_bindingOf (found : entries[position]? = some entry) (bound : entry.action ≠ none)
    (last : LastCovering entries position entry.sequence bit) : ∃ binding, BindingOf entries position binding := by
  induction entries generalizing position with
  | nil => simp at found
  | cons first rest ih =>
      cases position with
      | succ position =>
          obtain ⟨binding, kept⟩ := ih (by simpa using found) (lastCovering_cons_succ.mp last)
          exact ⟨binding, bindingOf_cons_succ.mpr kept⟩
      | zero =>
          cases found
          obtain ⟨command, action⟩ := Option.ne_none_iff_exists'.mp bound
          obtain ⟨covered, none⟩ := lastCovering_cons_zero.mp last
          rcases @leftAfter_some entry rest with ⟨context, _, held, bits⟩ | ⟨_, _, lost⟩
          · refine ⟨⟨entry.sequence, entry.keysNotation, command, context, entry.source⟩,
              entry, rfl, action, rfl, rfl, rfl, fun bit => ?_, held⟩
            rw [lastCovering_cons_zero, bits]
            simp [Covers]
          · obtain ⟨later, member, covering⟩ := lost bit covered.2
            exact absurd covering (none later member)

theorem LastCovering.unique {other : Nat} {sequence : BindingSequence} (first : LastCovering entries position sequence bit)
    (second : LastCovering entries other sequence bit) : position = other := by
  obtain ⟨⟨entry, found, covering⟩, last⟩ := first
  obtain ⟨⟨rival, present, covers⟩, final⟩ := second
  rcases Nat.lt_trichotomy position other with before | same | after
  · exact absurd covers (last other rival before present)
  · exact same
  · exact absurd covering (final position entry after found)

end Owners

section Survivors

variable {bindings : List ResolvedBinding}

theorem foldl_shadowFrom (order : List Nat) (live : List (Option ResolvedBinding))
    (diagnostics : List KeybindingDiagnostic) :
    (order.foldl shadowFrom (live, diagnostics)).1 = siftAll covers live order := by
  induction order generalizing live diagnostics with
  | nil => rfl
  | cons position order ih => exact ih _ _

theorem pairwise_shadowOrder (bindings : List ResolvedBinding) :
    (shadowOrder bindings).Pairwise fun earlier position => ∀ binding other, bindings[earlier]? = some binding →
      bindings[position]? = some other → binding.sequence.strokes.length ≤ other.sequence.strokes.length := by
  have total : Std.Total fun first second => strokeCount bindings first ≤ strokeCount bindings second :=
    ⟨fun first second => Nat.le_total _ _⟩
  have trans : IsTrans Nat fun first second => strokeCount bindings first ≤ strokeCount bindings second :=
    ⟨fun _ _ _ => Nat.le_trans⟩
  refine (List.pairwise_insertionSort _ _).imp ?_
  intro earlier position below binding other here there
  simpa [strokeCount, here, there] using below

theorem lt_of_covers {shorter longer : ResolvedBinding} (covered : covers shorter longer = true) :
    shorter.sequence.strokes.length < longer.sequence.strokes.length := by
  simp only [covers, shadows, isProperPrefix, Bool.and_eq_true, decide_eq_true_eq] at covered
  exact covered.1.1

def survivors (bindings : List ResolvedBinding) : List (Option ResolvedBinding) :=
  siftAll covers (bindings.map some) (shadowOrder bindings)

theorem sifted_survivors (bindings : List ResolvedBinding) :
    Sifted covers bindings (shadowOrder bindings).reverse (survivors bindings) :=
  sifted_siftAll (fun _ _ => lt_of_covers) (pairwise_shadowOrder bindings)

theorem mem_shadowOrder {position : Nat} : position ∈ shadowOrder bindings ↔ position < bindings.length := by
  simp [shadowOrder]

variable (pending : List PendingEntry) (diagnostics : List KeybindingDiagnostic)

theorem bindings_finalize :
    (finalize pending diagnostics).bindings =
      ((survivors (resolveConflicts pending diagnostics).1).filterMap id).map compiled := by
  simp [finalize, applyPrefixShadowing, foldl_shadowFrom, survivors]

variable {pending diagnostics} in
theorem mem_finalize_of_live {place : Nat} {binding : ResolvedBinding}
    (live : Live (survivors (resolveConflicts pending diagnostics).1) place binding) :
    binding.compiled ∈ (finalize pending diagnostics).bindings := by
  rw [bindings_finalize]
  exact List.mem_map_of_mem (List.mem_filterMap.mpr ⟨_, List.mem_of_getElem? live, rfl⟩)

theorem finalize_apart :
    ∀ shorter ∈ (finalize pending diagnostics).bindings, ∀ longer ∈ (finalize pending diagnostics).bindings,
      shadows shorter longer = false := by
  rw [bindings_finalize]
  have sifted := sifted_survivors (resolveConflicts pending diagnostics).1
  intro shorter short longer long
  obtain ⟨first, among, rfl⟩ := List.mem_map.mp short
  obtain ⟨second, others, rfl⟩ := List.mem_map.mp long
  obtain ⟨place, here⟩ := exists_live_of_mem among
  obtain ⟨other, there⟩ := exists_live_of_mem others
  refine sifted.apart place ?_ first here other second there
  obtain ⟨bounded, _⟩ := List.getElem?_eq_some_iff.mp (sifted.unchanged place first here)
  exact List.mem_reverse.mpr (mem_shadowOrder.mpr bounded)

theorem finalize_owners :
    ∃ origins : List Nat, origins.Pairwise (· < ·) ∧
      List.Forall₂ (BindingOf pending) origins (finalize pending diagnostics).bindings ∧
      ∀ position entry bit, pending[position]? = some entry → entry.action ≠ none →
        LastCovering pending position entry.sequence bit →
          ∃ binding, BindingOf pending position binding ∧ (position ∈ origins ∨
            ∃ shorter ∈ (finalize pending diagnostics).bindings, shadows shorter binding = true) := by
  obtain ⟨sources, resolved⟩ := drawn_resolveConflicts pending diagnostics
  have sifted := sifted_survivors (resolveConflicts pending diagnostics).1
  obtain ⟨places, drawn⟩ := exists_drawn_filterMap_id (survivors (resolveConflicts pending diagnostics).1)
  obtain ⟨ordered, owners⟩ := resolved.compose drawn.ordered
    (drawn.owned.imp fun place binding live => sifted.unchanged place binding live)
  refine ⟨places.filterMap (sources[·]?), ordered, ?_, fun position entry bit found bound last => ?_⟩
  · rw [bindings_finalize]
    exact List.forall₂_map_right_iff.mpr owners
  · obtain ⟨binding, kept⟩ := exists_bindingOf found bound last
    have member := resolved.complete position
      ⟨binding.sequence, binding.keysNotation, binding.action, "", binding.context, binding.source⟩ kept
    obtain ⟨place, here⟩ := List.mem_iff_getElem?.mp member
    obtain ⟨short, rfl⟩ := List.getElem?_eq_some_iff.mp here
    have long : place < (resolveConflicts pending diagnostics).1.length := by rwa [← resolved.owned.length_eq]
    refine ⟨_, (List.forall₂_iff_get.mp resolved.owned).2 place short long, ?_⟩
    by_cases live : Live (survivors (resolveConflicts pending diagnostics).1) place
        (resolveConflicts pending diagnostics).1[place]
    · exact .inl (List.mem_filterMap.mpr ⟨place, drawn.complete place _ live, here⟩)
    · obtain ⟨other, _, shorter, alive, covering⟩ := sifted.covered place _ (List.getElem?_eq_getElem long) live
      exact .inr ⟨shorter.compiled, mem_finalize_of_live alive, covering⟩

variable {pending diagnostics} in
theorem exists_entry_of_mem_finalize {binding : CompiledBinding}
    (member : binding ∈ (finalize pending diagnostics).bindings) :
    ∃ entry ∈ pending, binding.sequence = entry.sequence := by
  obtain ⟨origins, _, owners, _⟩ := finalize_owners pending diagnostics
  obtain ⟨index, inside, rfl⟩ := List.getElem_of_mem member
  obtain ⟨long, each⟩ := List.forall₂_iff_get.mp owners
  obtain ⟨entry, present, _, same, _⟩ := each index (long ▸ inside) inside
  exact ⟨entry, List.mem_of_getElem? present, same⟩

end Survivors

/-- The table of a list of entries. `origins` has the position of the entry of each binding. -/
structure Resolution (pending : List PendingEntry) (table : KeybindingTable) (origins : List Nat) : Prop where
  ordered : origins.Pairwise (· < ·)
  /-- Each binding owns the pairs that its entry, which binds an action, is the last to cover. -/
  owners : List.Forall₂ (BindingOf pending) origins table.bindings
  /-- An entry that binds an action and is the last to cover a pair has its binding in the table, or a binding of the
      table shadows it. -/
  covered : ∀ position entry bit, pending[position]? = some entry → entry.action ≠ none →
    LastCovering pending position entry.sequence bit →
      ∃ binding, BindingOf pending position binding ∧
        (position ∈ origins ∨ ∃ shorter ∈ table.bindings, shadows shorter binding = true)
  single : ∀ (first second : Nat) (binding other : CompiledBinding), table.bindings[first]? = some binding →
    table.bindings[second]? = some other → binding.sequence = other.sequence →
      ∀ bit, binding.context.getLsbD bit = true → other.context.getLsbD bit = true → first = second
  apart : ∀ shorter ∈ table.bindings, ∀ longer ∈ table.bindings, shadows shorter longer = false

/-- Two bindings of one pair have one entry, and so one place. -/
theorem single_of_owners {pending : List PendingEntry} {bindings : List CompiledBinding} {origins : List Nat}
    (ordered : origins.Pairwise (· < ·)) (owners : List.Forall₂ (BindingOf pending) origins bindings)
    {first second : Nat} {binding other : CompiledBinding} (here : bindings[first]? = some binding)
    (there : bindings[second]? = some other) (same : binding.sequence = other.sequence) {bit : Nat}
    (has : binding.context.getLsbD bit = true) (also : other.context.getLsbD bit = true) : first = second := by
  obtain ⟨inside, rfl⟩ := List.getElem?_eq_some_iff.mp here
  obtain ⟨within, rfl⟩ := List.getElem?_eq_some_iff.mp there
  obtain ⟨long, each⟩ := List.forall₂_iff_get.mp owners
  obtain ⟨entry, _, _, sequence, _, _, bits, _⟩ := each first (long ▸ inside) inside
  obtain ⟨rival, _, _, another, _, _, others, _⟩ := each second (long ▸ within) within
  have last := (bits bit).mp has
  have final := (others bit).mp also
  have equal : entry.sequence = rival.sequence := by
    rw [← sequence, ← another]
    exact same
  rw [← equal] at final
  have distinct : origins.Nodup := ordered.imp Nat.ne_of_lt
  exact (List.Nodup.getElem_inj_iff distinct).mp (last.unique final)

theorem finalize_resolution (pending : List PendingEntry) (diagnostics : List KeybindingDiagnostic) :
    ∃ origins, Resolution pending (finalize pending diagnostics) origins := by
  obtain ⟨origins, ordered, owners, covered⟩ := finalize_owners pending diagnostics
  refine ⟨origins, ordered, owners, covered, ?_, finalize_apart pending diagnostics⟩
  exact fun first second binding other here there same bit => single_of_owners ordered owners here there same

end Seyal.Client.Keybinding
