import Seyal.Terminal.Steps.Parsing

namespace Seyal.Terminal

/-! UTF-8 on the way through the parser: what is printed for encoded text, whatever was left unfinished before it. -/

namespace Parser

variable {parser : Parser} {byte : UInt8}

/-- Between two sequences, with no byte put back; a UTF-8 sequence may be pending. -/
structure InGround (parser : Parser) : Prop where
  state : parser.state = .ground
  clear : parser.putback = none

theorem InGround.step (ground : parser.InGround) (byte : UInt8) : parser.step byte = parser.ground byte := by
  unfold Parser.step
  rw [ground.state]

theorem consume_of_step {next : Parser} {actions : List Action} (stepped : parser.step byte = (next, actions))
    (clear : next.putback = none) : parser.consume byte = (next, actions) := by
  simp [consume, stepped, clear]

/-- The parser with its pending sequence given up. -/
def given (parser : Parser) : Parser := { parser with utf8 := [], utf8Needed := 0 }

abbrev IsTail (byte : UInt8) : Prop := 0x80 ≤ byte ∧ byte ≤ 0xbf

theorem ground_tail (pending : parser.utf8Needed ≠ 0) (tail : IsTail byte) :
    parser.ground byte =
      if parser.utf8.length + 1 = parser.utf8Needed then { parser with utf8 := parser.utf8 ++ [byte] }.finishUtf8
      else ({ parser with utf8 := parser.utf8 ++ [byte] }, []) := by
  rw [ground, if_pos pending, if_pos tail]
  simp only [List.length_append, List.length_singleton]

theorem ground_lead (complete : parser.utf8Needed = 0) (high : 0xc2 ≤ byte) :
    parser.ground byte =
      if byte ≤ 0xdf then (parser.startUtf8 byte 2, [])
      else if byte ≤ 0xef then (parser.startUtf8 byte 3, [])
      else if byte ≤ 0xf4 then (parser.startUtf8 byte 4, [])
      else (parser, replacement) := by
  unfold ground isExecuted isCancel
  grind

theorem consumeAll_tails (ground : parser.InGround) {tails : List UInt8} (missing : tails ≠ [])
    (each : ∀ byte ∈ tails, IsTail byte) (room : parser.utf8.length + tails.length = parser.utf8Needed) :
    parser.consumeAll tails = { parser with utf8 := parser.utf8 ++ tails }.finishUtf8 := by
  induction tails generalizing parser with
  | nil => exact absurd rfl missing
  | cons byte rest ih =>
      rw [List.length_cons] at room
      have stepped := (ground.step byte).trans (ground_tail (by omega) (each byte List.mem_cons_self))
      cases rest with
      | nil =>
          rw [if_pos (by simpa using room)] at stepped
          rw [consumeAll, consume_of_step stepped ground.clear]
          simp [consumeAll, finishUtf8]
      | cons next later =>
          rw [List.length_cons] at room
          rw [if_neg (by omega)] at stepped
          have next : InGround { parser with utf8 := parser.utf8 ++ [byte] } := ⟨ground.state, ground.clear⟩
          have rest := ih next (List.cons_ne_nil _ _)
            (List.forall_mem_cons.mp each).2
            (by simp only [List.length_append, List.length_cons, List.length_nil]; omega)
          rw [consumeAll, consume_of_step stepped ground.clear]
          simp [rest]

theorem isTail_ofNat {code : Nat} (low : 0x80 ≤ code) (high : code ≤ 0xbf) : IsTail (UInt8.ofNat code) := by
  simp only [IsTail, UInt8.le_iff_toNat_le, UInt8.toNat_ofNat']
  simp
  omega

theorem ground_ofNat (complete : parser.utf8Needed = 0) {lead : Nat} (count : Nat) (low : 0xc2 ≤ lead)
    (high : lead ≤ 0xf4)
    (tails : count = if lead ≤ 0xdf then 2 else if lead ≤ 0xef then 3 else 4) :
    0xc2 ≤ UInt8.ofNat lead ∧ parser.ground (UInt8.ofNat lead) = (parser.startUtf8 (UInt8.ofNat lead) count, []) := by
  have toNat : (UInt8.ofNat lead).toNat = lead := UInt8.toNat_ofNat_of_lt' (show lead < 256 by omega)
  have starts : 0xc2 ≤ UInt8.ofNat lead := by
    rw [UInt8.le_iff_toNat_le, toNat]
    exact low
  refine ⟨starts, ?_⟩
  rw [ground_lead complete starts]
  simp only [UInt8.le_iff_toNat_le, toNat]
  simp
  grind

theorem utf8EncodeChar_lead {scalar : Char} (beyond : 0x7f < scalar.toNat) (complete : parser.utf8Needed = 0) :
    ∃ lead tails, String.utf8EncodeChar scalar = lead :: tails ∧ tails ≠ [] ∧ (∀ byte ∈ tails, IsTail byte) ∧
      0xc2 ≤ lead ∧ parser.ground lead = (parser.startUtf8 lead (tails.length + 1), []) := by
  have bound : scalar.toNat < 0x110000 := by
    have valid := scalar.valid
    rw [UInt32.isValidChar, Nat.isValidChar] at valid
    change scalar.val.toNat < _
    omega
  have value : scalar.val.toNat = scalar.toNat := rfl
  unfold String.utf8EncodeChar
  rw [value]
  generalize scalar.toNat = code at beyond bound
  dsimp only
  rw [if_neg (by omega)]
  split
  · obtain ⟨starts, begins⟩ := ground_ofNat complete 2 (show 0xc2 ≤ code / 64 % 32 + 192 by omega) (by omega)
      (by rw [if_pos (by omega)])
    refine ⟨_, _, rfl, List.cons_ne_nil _ _, ?_, starts, begins⟩
    simp only [List.mem_singleton, forall_eq]
    exact isTail_ofNat (by omega) (by omega)
  · split
    · obtain ⟨starts, begins⟩ := ground_ofNat complete 3 (show 0xc2 ≤ code / 4096 % 16 + 224 by omega)
        (by omega) (by rw [if_neg (by omega), if_pos (by omega)])
      refine ⟨_, _, rfl, List.cons_ne_nil _ _, ?_, starts, begins⟩
      simp only [List.mem_cons, List.not_mem_nil, or_false, forall_eq_or_imp, forall_eq]
      exact ⟨isTail_ofNat (by omega) (by omega), isTail_ofNat (by omega) (by omega)⟩
    · obtain ⟨starts, begins⟩ := ground_ofNat complete 4 (show 0xc2 ≤ code / 262144 % 8 + 240 by omega)
        (by omega) (by rw [if_neg (by omega), if_neg (by omega)])
      refine ⟨_, _, rfl, List.cons_ne_nil _ _, ?_, starts, begins⟩
      simp only [List.mem_cons, List.not_mem_nil, or_false, forall_eq_or_imp, forall_eq]
      exact ⟨isTail_ofNat (by omega) (by omega), isTail_ofNat (by omega) (by omega),
        isTail_ofNat (by omega) (by omega)⟩

/-- A scalar that is neither a C0 control nor DEL. -/
def IsText (scalar : Char) : Prop := 0x20 ≤ scalar.toNat ∧ scalar.toNat ≠ 0x7f

theorem ground_ascii (complete : parser.utf8Needed = 0) {scalar : Char} (text : IsText scalar)
    (ascii : scalar.toNat ≤ 0x7f) :
    parser.ground (UInt8.ofNat scalar.toNat) = (parser, [.print scalar]) := by
  obtain ⟨low, notDelete⟩ := text
  have toNat : (UInt8.ofNat scalar.toNat).toNat = scalar.toNat :=
    UInt8.toNat_ofNat_of_lt' (show scalar.toNat < 256 by omega)
  have same : Char.ofNat (UInt8.ofNat scalar.toNat).toNat = scalar := by rw [toNat, Char.ofNat_toNat]
  generalize UInt8.ofNat scalar.toNat = byte at toNat same
  have printable : 0x20 ≤ byte ∧ byte ≤ 0x7e := by
    simp only [UInt8.le_iff_toNat_le, toNat]
    simp
    omega
  unfold ground isExecuted isCancel
  grind

theorem consumeAll_scalar (ground : parser.InGround) (complete : parser.utf8Needed = 0) {scalar : Char}
    (text : IsText scalar) :
    ∃ after, parser.consumeAll (String.utf8EncodeChar scalar) = (after, [.print scalar]) ∧ after.InGround ∧
      after.utf8Needed = 0 := by
  by_cases ascii : scalar.toNat ≤ 0x7f
  · have stepped := (ground.step _).trans (ground_ascii complete text ascii)
    refine ⟨parser, ?_, ground, complete⟩
    rw [String.utf8EncodeChar, if_pos (show scalar.val.toNat ≤ 127 from ascii), consumeAll]
    rw [show scalar.val.toNat = scalar.toNat from rfl, consume_of_step stepped ground.clear]
    rfl
  · obtain ⟨lead, tails, encoded, missing, each, _, begins⟩ := utf8EncodeChar_lead (not_le.mp ascii) complete
    have started : (parser.startUtf8 lead (tails.length + 1)).InGround := ⟨ground.state, ground.clear⟩
    have finished := consumeAll_tails started missing each (by simp [startUtf8, Nat.add_comm])
    have decoded : fromUtf8 (lead :: tails) = some [scalar] := by
      rw [← encoded]
      simpa [encodeUtf8] using fromUtf8_encodeUtf8 [scalar]
    rw [encoded, consumeAll, consume_of_step ((ground.step lead).trans begins) ground.clear]
    dsimp only
    rw [finished]
    refine ⟨parser.given, ?_, ⟨ground.state, ground.clear⟩, rfl⟩
    simp only [finishUtf8, startUtf8, List.singleton_append, decoded]
    rfl

theorem consumeAll_text (ground : parser.InGround) (complete : parser.utf8Needed = 0) {text : List Char}
    (plain : ∀ scalar ∈ text, IsText scalar) :
    ∃ after, parser.consumeAll (encodeUtf8 text) = (after, text.map .print) ∧ after.InGround ∧
      after.utf8Needed = 0 := by
  induction text generalizing parser with
  | nil => exact ⟨parser, rfl, ground, complete⟩
  | cons scalar rest ih =>
      obtain ⟨middle, printed, middleGround, middleComplete⟩ :=
        consumeAll_scalar ground complete (plain scalar List.mem_cons_self)
      obtain ⟨after, printedRest, afterGround, afterComplete⟩ :=
        ih middleGround middleComplete (List.forall_mem_cons.mp plain).2
      refine ⟨after, ?_, afterGround, afterComplete⟩
      have split : encodeUtf8 (scalar :: rest) = String.utf8EncodeChar scalar ++ encodeUtf8 rest := List.flatMap_cons
      rw [split, consumeAll_append, printed, printedRest]
      rfl

theorem consume_pending (ground : parser.InGround) (pending : parser.utf8Needed ≠ 0) (other : ¬ IsTail byte) :
    parser.consume byte = ((parser.given.consume byte).1, replacement ++ (parser.given.consume byte).2) := by
  have again : parser.given.InGround := ⟨ground.state, ground.clear⟩
  have kept : (parser.given.step byte).1.putback = none := by
    rw [again.step]
    exact (parser.given.ground_putback byte rfl).trans ground.clear
  have stepped : parser.step byte = ({ parser.given with putback := some byte }, replacement) := by
    rw [ground.step, Parser.ground, if_pos pending, if_neg other]
    rfl
  have same : { parser.given with putback := none } = parser.given := by
    unfold given
    rw [ground.clear]
  have once : parser.given.consume byte = parser.given.step byte := consume_of_step rfl kept
  rw [once, consume, stepped]
  change (({ parser.given with putback := none }.step byte).1,
    replacement ++ ({ parser.given with putback := none }.step byte).2) = _
  rw [same]

theorem encodeUtf8_cons (scalar : Char) (rest : List Char) :
    ∃ first later, encodeUtf8 (scalar :: rest) = first :: later ∧ ¬ IsTail first := by
  have notTail {first : UInt8} (apart : first < 0x80 ∨ 0xc2 ≤ first) : ¬ IsTail first := by
    unfold IsTail
    grind
  by_cases ascii : scalar.toNat ≤ 0x7f
  · refine ⟨UInt8.ofNat scalar.toNat, encodeUtf8 rest, ?_, notTail (.inl ?_)⟩
    · rw [encodeUtf8, List.flatMap_cons, String.utf8EncodeChar, if_pos (show scalar.val.toNat ≤ 127 from ascii)]
      rfl
    · rw [UInt8.lt_iff_toNat_lt, UInt8.toNat_ofNat_of_lt' (show scalar.toNat < 256 by omega)]
      exact Nat.lt_succ_of_le ascii
  · obtain ⟨lead, tails, encoded, _, _, high, _⟩ := utf8EncodeChar_lead (not_le.mp ascii)
      (show Parser.utf8Needed {} = 0 from rfl)
    exact ⟨lead, tails ++ encodeUtf8 rest, by rw [encodeUtf8, List.flatMap_cons, encoded]; rfl, notTail (.inr high)⟩

/-- Encoded text is printed scalar by scalar; a sequence that was pending is replaced first, and takes none of it. -/
theorem feed_encodeUtf8 (state : parser.state = .ground) (clear : parser.putback = none) {text : List Char}
    (some : text ≠ []) (plain : ∀ scalar ∈ text, IsText scalar) :
    ∃ after, parser.feed (encodeUtf8 text) =
        .some (after, (if parser.utf8Needed ≠ 0 then [.malformed, .print replacementChar] else []) ++
          text.map .print) ∧
      after.state = .ground ∧ after.putback = none ∧ after.utf8Needed = 0 := by
  have ground : parser.InGround := ⟨state, clear⟩
  rw [feed_eq clear]
  by_cases complete : parser.utf8Needed = 0
  · obtain ⟨after, printed, afterGround, afterComplete⟩ := consumeAll_text ground complete plain
    exact ⟨after, by rw [printed, if_neg (not_not_intro complete)]; rfl, afterGround.state, afterGround.clear,
      afterComplete⟩
  · obtain ⟨after, printed, afterGround, afterComplete⟩ :=
      consumeAll_text (show parser.given.InGround from ⟨state, clear⟩) rfl plain
    refine ⟨after, ?_, afterGround.state, afterGround.clear, afterComplete⟩
    cases text with
    | nil => exact absurd rfl some
    | cons scalar rest =>
        obtain ⟨first, later, encoded, other⟩ := encodeUtf8_cons scalar rest
        rw [encoded, consumeAll] at printed ⊢
        rw [consume_pending ground complete other, if_pos complete]
        simp only [Prod.mk.injEq] at printed ⊢
        refine congrArg Option.some (Prod.ext printed.1 ?_)
        rw [← printed.2, List.append_assoc]
        rfl

/-- The start of a three-byte sequence, then a letter. -/
theorem feed_encodeUtf8_letter :
    ∃ after, Parser.feed { utf8 := [0xe2, 0x82], utf8Needed := 3 } (encodeUtf8 ['a']) =
      some (after, [.malformed, .print replacementChar, .print 'a']) := by
  have plain : ∀ scalar ∈ ['a'], IsText scalar := by
    intro scalar member
    cases List.mem_singleton.mp member
    exact ⟨by decide, by decide⟩
  obtain ⟨after, fed, _⟩ :=
    @feed_encodeUtf8 { utf8 := [0xe2, 0x82], utf8Needed := 3 } rfl rfl ['a'] (List.cons_ne_nil 'a' []) plain
  exact ⟨after, fed⟩

/-- Nothing is fed, so a pending sequence stays pending and nothing is printed. -/
theorem feed_nothing :
    Parser.feed { utf8 := [0xe2, 0x82], utf8Needed := 3 } (encodeUtf8 []) =
      some ({ utf8 := [0xe2, 0x82], utf8Needed := 3 }, []) := rfl

end Parser

end Seyal.Terminal
