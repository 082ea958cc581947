import Mathlib.Data.Bool.AllAny
import Seyal.Program.ShellWords

namespace Seyal.Runtime.SshSpawn

open Program.ShellWords

/-! The rewriting of an interactive `ssh`, so that the remote shell starts with an
rcfile. The line is read by the local shell, and its last word by the remote one. -/

/-- OpenSSH flags that keep an interactive login session. -/
def flagLetters : List Char := "246ACKMXYagkqtvxy".toList

/-- OpenSSH options that take a value and keep an interactive login session. -/
def valuedLetters : List Char := "BDEFIJLPRSbceilmopw".toList

/-- `-o` keys that decide the remote command or the tty. -/
def sessionKeys : List (List Char) :=
  ["remotecommand".toList, "requesttty".toList, "sessiontype".toList, "stdinnull".toList,
    "forkafterauthentication".toList]

def plainLetter (char : Char) : Bool := char.isAlphanum || "@%+=:,./_~-".toList.contains char

def plainWord (word : List Char) : Bool := word.head? != some '=' && word.all plainLetter

inductive Flags where
  | refused
  | done
  /-- The value is attached, or the next word. -/
  | value (flag : Char) (attached : List Char)

def readFlags : List Char → Flags
  | [] => .done
  | flag :: attached =>
      if flagLetters.contains flag then readFlags attached
      else if valuedLetters.contains flag then .value flag attached
      else .refused

def decidesSession (flag : Char) (value : List Char) : Bool :=
  flag = 'o' && sessionKeys.contains ((value.takeWhile (· ≠ '=')).map Char.toLower)

variable {text : List Char} {args : List (List Char)}

/-- The loop over the arguments: at most one is a destination. -/
def interactive : List (List Char) → Bool → Bool
  | [], destination => destination
  | word :: rest, destination =>
      match word with
      | '-' :: flags =>
          if flags.isEmpty || flags.head? = some '-' then false
          else
            match readFlags flags with
            | .refused => false
            | .done => interactive rest destination
            | .value flag (first :: attached) =>
                if decidesSession flag (first :: attached) then false else interactive rest destination
            | .value flag [] =>
                match rest with
                | [] => false
                | value :: others =>
                    if decidesSession flag value then false else interactive others destination
      | _ => if destination then false else interactive rest true

def parseInteractiveSsh (command : List Char) : Option (List (List Char)) :=
  match pieces command with
  | [] => none
  | first :: args =>
      if first ≠ "ssh".toList then none
      else if args.all plainWord = false then none
      else if interactive args false then some args
      else none

def singleQuote (word : List Char) : List Char :=
  [apostrophe] ++ (word.flatMap fun char =>
    if char = apostrophe then [apostrophe, backslash, apostrophe, apostrophe] else [char]) ++ [apostrophe]

abbrev ShellIntegrationToken := Vector UInt8 16

def hexLetters : List Char := "0123456789abcdef".toList

def writeHex (token : ShellIntegrationToken) : List Char :=
  token.toList.flatMap fun (byte : UInt8) =>
    [hexLetters.getD (byte >>> 4).toNat '0', hexLetters.getD (byte &&& 0xf).toNat '0']

def decimal (value : Nat) : List Char := Nat.toDigits 10 value

def payloadLen : Nat := 512

def trailer : List Char := "#E".toList

def payloadHead : List Char := "unset p\n".toList

def readTimeoutSecs : Nat := 2

def drainLen : Nat := 4096

def remoteTermFallback : List Char := "tput longname >/dev/null 2>&1||export TERM=xterm-256color".toList

def trimEnd (text : List Char) : List Char := (text.reverse.dropWhile Char.isWhitespace).reverse

def rcfileHead : List Char :=
  "[ -r /etc/profile ]&&. /etc/profile;".toList ++
  "if [ -r \"$HOME/.bash_profile\" ];then . \"$HOME/.bash_profile\";".toList ++
  "elif [ -r \"$HOME/.bash_login\" ];then . \"$HOME/.bash_login\";".toList ++
  "elif [ -r \"$HOME/.profile\" ];then . \"$HOME/.profile\";fi;".toList ++
  remoteTermFallback ++
  ";if ((BASH_VERSINFO[0]*100+BASH_VERSINFO[1]>=401));then ".toList ++
  "stty -echo;read -r -t 0.01 -N ".toList ++ decimal drainLen ++ " p;".toList ++
  "printf \"\\033]133;R;%s;b\\007\" ".toList

def rcfileTail : List Char :=
  ";read -r -t ".toList ++ decimal readTimeoutSecs ++ " -N ".toList ++ decimal payloadLen ++ " p;".toList ++
  "case $p in \"".toList ++ trimEnd payloadHead ++ "\"*\"".toList ++ trailer ++ "\"*)eval \"$p\";;".toList ++
  "*)read -r -t ".toList ++ decimal readTimeoutSecs ++ " -N ".toList ++ decimal drainLen ++
  " p;stty echo;unset p;;esac;fi".toList

def find (pattern : List Char) : List Char → Option Nat
  | [] => if pattern.isEmpty then some 0 else none
  | char :: rest => if pattern.isPrefixOf (char :: rest) then some 0 else (find pattern rest).map (· + 1)

inductive RuntimeError where
  | shellIntegration (reason : String)
  deriving Repr, DecidableEq

def inOrder : Option Nat → Option Nat → Option Nat → Bool
  | some echo, some drain, some marker => echo < drain && drain < marker
  | _, _, _ => false

def printable (char : Char) : Bool := 0x20 ≤ char.toNat && char.toNat ≤ 0x7e

def spawnRcfile (challenge : ShellIntegrationToken) : Except RuntimeError (List Char) :=
  let rc := rcfileHead ++ writeHex challenge ++ rcfileTail
  let echoAt := find "stty -echo".toList rc
  let drainAt := find "read -r -t 0.01".toList rc
  let markerAt := find "133;R".toList rc
  if rc.all printable = false ∨
      (rc.any fun char => char = apostrophe || char = '!') = true ∨
      (find [backslash, backslash] rc).isSome = true ∨
      inOrder echoAt drainAt markerAt = false then
    .error (.shellIntegration "spawn rcfile violates the quoting or echo-off rule")
  else .ok rc

def select : List Char :=
  "case $\x7bSHELL##*/\x7d in bash)exec \"$SHELL\" -c \"$3\" \"$SHELL\" \"$1\";;".toList ++
  "zsh)printf \"\\033]133;R;%s;z\\007\" \"$2\";exec \"$SHELL\" -l;;".toList ++
  "*)exec \"$\x7bSHELL:-/bin/sh\x7d\" -l;;esac".toList

def bashExec : List Char := "exec \"$0\" --rcfile <(printf %s \"$1\") -i".toList

def remoteCommand (rcfile k : List Char) : List Char :=
  "exec sh -c ".toList ++ singleQuote select ++ " sh ".toList ++ singleQuote rcfile ++ " ".toList ++ k ++
    " ".toList ++ singleQuote bashExec

def spawnSshLine (args : List (List Char)) (challenge : ShellIntegrationToken) : Except RuntimeError (List Char) := do
  let rcfile ← spawnRcfile challenge
  let remote := remoteCommand rcfile (writeHex challenge)
  return "ssh -t ".toList ++ [' '].intercalate args ++ " ".toList ++ singleQuote remote

attribute [irreducible] rcfileHead rcfileTail select bashExec

/-! The rcfile keeps its rules whatever the challenge is. -/

theorem find_le {pattern : List Char} {position : Nat} (found : find pattern text = some position) :
    pattern.length ≤ text.length := by
  induction text generalizing position with
  | nil =>
      cases pattern with
      | nil => exact Nat.le_refl _
      | cons => cases found
  | cons char text ih =>
      rw [find] at found
      split at found
      next here => exact (List.isPrefixOf_iff_prefix.mp here).length_le
      next =>
        obtain ⟨later, foundLater, _⟩ := Option.map_eq_some_iff.mp found
        exact Nat.le_succ_of_le (ih foundLater)

theorem find_append {pattern : List Char} {position : Nat} (found : find pattern text = some position)
    (rest : List Char) : find pattern (text ++ rest) = some position := by
  induction text generalizing position with
  | nil =>
      cases pattern with
      | nil =>
          cases found
          cases rest <;> rfl
      | cons => cases found
  | cons char text ih =>
      rw [find] at found
      rw [List.cons_append, find]
      split at found
      next here =>
        have longer : pattern <+: (char :: text) ++ rest :=
          (List.isPrefixOf_iff_prefix.mp here).trans (List.prefix_append ..)
        rw [← List.cons_append, if_pos (List.isPrefixOf_iff_prefix.mpr longer)]
        exact found
      next notHere =>
        obtain ⟨later, foundLater, rfl⟩ := Option.map_eq_some_iff.mp found
        -- a match that reached into `rest` would be longer than the text it was found in
        have notLonger : pattern.isPrefixOf (char :: (text ++ rest)) = false := by
          rw [Bool.eq_false_iff]
          intro here
          refine notHere (List.isPrefixOf_iff_prefix.mpr ?_)
          exact List.prefix_of_prefix_length_le (List.isPrefixOf_iff_prefix.mp here) (List.prefix_append ..)
            (Nat.le_succ_of_le (find_le foundLater))
        rw [notLonger, if_neg Bool.false_ne_true, ih foundLater]
        rfl

theorem find_double_append {rest : List Char} (first : find [backslash, backslash] text = none)
    (second : find [backslash, backslash] rest = none) (apart : rest.head? ≠ some backslash) :
    find [backslash, backslash] (text ++ rest) = none := by
  induction text with
  | nil => exact second
  | cons char text ih =>
      rw [find] at first
      split at first
      next => cases first
      next notHere =>
        rw [List.cons_append, find, if_neg, ih (Option.map_eq_none_iff.mp first)]
        · rfl
        intro here
        obtain ⟨same, next⟩ := List.cons_prefix_cons.mp (List.isPrefixOf_iff_prefix.mp here)
        cases text with
        | nil =>
            obtain ⟨after, whole⟩ := next
            exact apart (by rw [← List.nil_append rest, ← whole]; rfl)
        | cons other text =>
            refine notHere (List.isPrefixOf_iff_prefix.mpr (List.cons_prefix_cons.mpr ⟨same, ?_⟩))
            exact List.cons_prefix_cons.mpr ⟨(List.cons_prefix_cons.mp next).1, List.nil_prefix⟩

theorem find_double_of_absent (absent : ∀ char ∈ text, char ≠ backslash) :
    find [backslash, backslash] text = none := by
  induction text with
  | nil => rfl
  | cons char text ih =>
      rw [find, if_neg, ih (List.forall_mem_cons.mp absent).2]
      · rfl
      intro here
      exact absent char List.mem_cons_self (List.cons_prefix_cons.mp (List.isPrefixOf_iff_prefix.mp here)).1.symm

theorem writeHex_mem {challenge : ShellIntegrationToken} {char : Char} (member : char ∈ writeHex challenge) :
    char ∈ hexLetters := by
  have letter (index : Nat) : hexLetters.getD index '0' ∈ hexLetters := by
    rw [List.getD_eq_getElem?_getD]
    cases found : hexLetters[index]? with
    | none => decide
    | some letter => exact List.mem_of_getElem? found
  obtain ⟨byte, _, inByte⟩ := List.mem_flatMap.mp member
  rcases List.mem_pair.mp inByte with rfl | rfl
  · exact letter _
  · exact letter _

theorem writeHex_ne_nil (challenge : ShellIntegrationToken) : writeHex challenge ≠ [] := by
  intro empty
  have length : challenge.toList.length = 16 := by simp
  cases bytes : challenge.toList with
  | nil =>
      rw [bytes] at length
      cases length
  | cons byte rest =>
      rw [writeHex, bytes] at empty
      cases empty

theorem rcfileHead_rules :
    rcfileHead.all printable = true ∧ (rcfileHead.any fun char => char = apostrophe || char = '!') = false ∧
      find [backslash, backslash] rcfileHead = none ∧ find "stty -echo".toList rcfileHead = some 325 ∧
      find "read -r -t 0.01".toList rcfileHead = some 336 ∧ find "133;R".toList rcfileHead = some 375 := by
  decide +kernel

theorem rcfileTail_rules :
    rcfileTail.all printable = true ∧ (rcfileTail.any fun char => char = apostrophe || char = '!') = false ∧
      find [backslash, backslash] rcfileTail = none ∧ rcfileTail.head? ≠ some backslash := by
  decide +kernel

theorem writeHex_rules (challenge : ShellIntegrationToken) :
    (writeHex challenge).all printable = true ∧
      ((writeHex challenge).any fun char => char = apostrophe || char = '!') = false ∧
      ∀ char ∈ writeHex challenge, char ≠ backslash := by
  have digits : ∀ char ∈ hexLetters,
      printable char = true ∧ (char = apostrophe || char = '!') = false ∧ char ≠ backslash :=
    List.all_iff_forall_prop.mp (by decide +kernel)
  refine ⟨List.all_eq_true.mpr fun char member => (digits char (writeHex_mem member)).1,
    List.any_eq_false.mpr fun char member => ?_, fun char member => (digits char (writeHex_mem member)).2.2⟩
  rw [(digits char (writeHex_mem member)).2.1]
  exact Bool.false_ne_true

theorem spawnRcfile_ok (challenge : ShellIntegrationToken) :
    spawnRcfile challenge = .ok (rcfileHead ++ writeHex challenge ++ rcfileTail) := by
  obtain ⟨headPrintable, headUnquoted, headSingle, echoAt, drainAt, markerAt⟩ := rcfileHead_rules
  obtain ⟨tailPrintable, tailUnquoted, tailSingle, tailHead⟩ := rcfileTail_rules
  obtain ⟨hexPrintable, hexUnquoted, hexSingle⟩ := writeHex_rules challenge
  have found {pattern : List Char} {position : Nat} (found : find pattern rcfileHead = some position) :
      find pattern (rcfileHead ++ writeHex challenge ++ rcfileTail) = some position := by
    rw [List.append_assoc]
    exact find_append found _
  have single : find [backslash, backslash] (rcfileHead ++ writeHex challenge ++ rcfileTail) = none := by
    rw [List.append_assoc]
    refine find_double_append headSingle (find_double_append (find_double_of_absent hexSingle) tailSingle tailHead) ?_
    cases hex : writeHex challenge with
    | nil => exact absurd hex (writeHex_ne_nil challenge)
    | cons char more =>
        rw [List.cons_append, List.head?_cons, Ne, Option.some.injEq]
        exact hexSingle char (by rw [hex]; exact List.mem_cons_self)
  have allPrintable : (rcfileHead ++ writeHex challenge ++ rcfileTail).all printable = true := by
    rw [List.all_append, List.all_append, headPrintable, hexPrintable, tailPrintable]
    rfl
  have noneQuoted : ((rcfileHead ++ writeHex challenge ++ rcfileTail).any fun char =>
      char = apostrophe || char = '!') = false := by
    rw [List.any_append, List.any_append, headUnquoted, hexUnquoted, tailUnquoted]
    rfl
  rw [spawnRcfile, found echoAt, found drainAt, found markerAt, single]
  apply if_neg
  rintro (wrong | wrong | wrong | wrong)
  · exact Bool.false_ne_true (wrong.symm.trans allPrintable)
  · exact Bool.false_ne_true (noneQuoted.symm.trans wrong)
  · cases wrong
  · cases wrong

theorem lex_singleQuote (text rest : List Char) :
    lex .single ((text.flatMap fun char =>
      if char = apostrophe then [apostrophe, backslash, apostrophe, apostrophe] else [char]) ++
        apostrophe :: rest) = (lex .bare rest).map (prepend (spelled true text)) := by
  induction text with
  | nil =>
      rw [spelled, List.map_nil, prepend_nil, Option.map_id]
      rfl
  | cons char text ih =>
      have whole : (fun words => prepend [⟨char, true⟩] (prepend (spelled true text) words)) =
          prepend (spelled true (char :: text)) := by
        funext words
        exact prepend_prepend ..
      rw [List.flatMap_cons, List.append_assoc]
      by_cases same : char = apostrophe
      · rw [if_pos same, List.cons_append, List.cons_append, List.cons_append, List.cons_append, List.nil_append,
          lex_single_apostrophe, ih, Option.map_map, ← same]
        exact congrArg (Option.map · _) whole
      · rw [if_neg same, List.singleton_append, lex_single_letter same, ih, Option.map_map]
        exact congrArg (Option.map · _) whole

theorem spells_singleQuote (text : List Char) : Spells (singleQuote text) (spelled true text) where
  bare rest := by
    rw [singleQuote, List.append_assoc, List.append_assoc, List.singleton_append, List.singleton_append]
    exact lex_singleQuote text rest
  between rest := by
    rw [singleQuote, List.append_assoc, List.append_assoc, List.singleton_append, List.singleton_append]
    exact lex_singleQuote text rest

theorem plain_of_plainLetter {char : Char} (letter : plainLetter char = true) :
    Plain char ∧ "*?[".toList.contains char = false := by
  have specials : ∀ special ∈ " \t'\"\\|&;<>()$`\n#*?[".toList, plainLetter special = false :=
    List.all_iff_forall_prop.mp (by decide +kernel)
  have apart {special : Char} (member : special ∈ " \t'\"\\|&;<>()$`\n#*?[".toList) : char ≠ special := by
    rintro rfl
    rw [specials _ member] at letter
    cases letter
  refine ⟨⟨?_, apart (by decide), apart (by decide), apart (by decide), ?_, apart (by decide)⟩, ?_⟩
  · simp only [blank, apart (by decide : ' ' ∈ _), apart (by decide : '\t' ∈ _), decide_false, Bool.or_self]
  · rw [isControl, Bool.eq_false_iff]
    intro contained
    have within : ∀ special ∈ "|&;<>()$`\n".toList, special ∈ " \t'\"\\|&;<>()$`\n#*?[".toList :=
      List.all_iff_forall_prop.mp (by decide)
    exact apart (within char (List.contains_iff_mem.mp contained)) rfl
  · rw [Bool.eq_false_iff]
    intro contained
    have within : ∀ special ∈ "*?[".toList, special ∈ " \t'\"\\|&;<>()$`\n#*?[".toList :=
      List.all_iff_forall_prop.mp (by decide)
    exact apart (within char (List.contains_iff_mem.mp contained)) rfl

theorem remote_intercalate (script rcfile k bash : List Char) :
    "exec sh -c ".toList ++ script ++ " sh ".toList ++ rcfile ++ " ".toList ++ k ++ " ".toList ++ bash =
      [' '].intercalate ["exec".toList, "sh".toList, "-c".toList, script, "sh".toList, rcfile, k, bash] := by
  simp

theorem spells_letters (letters : text.all plainLetter = true) (begun : text ≠ []) :
    Spells text (spelled false text) :=
  spells_plain (fun char member => (plain_of_plainLetter (List.all_eq_true.mp letters char member)).1) begun

def remoteWords (challenge : ShellIntegrationToken) : List Word :=
  [spelled false "exec".toList, spelled false "sh".toList, spelled false "-c".toList, spelled true select,
    spelled false "sh".toList, spelled true (rcfileHead ++ writeHex challenge ++ rcfileTail),
    spelled false (writeHex challenge), spelled true bashExec]

theorem writeHex_letters (challenge : ShellIntegrationToken) : (writeHex challenge).all plainLetter = true := by
  have digits : ∀ char ∈ hexLetters, plainLetter char = true := List.all_iff_forall_prop.mp (by decide +kernel)
  exact List.all_eq_true.mpr fun char member => digits char (writeHex_mem member)

theorem remoteCommand_words (challenge : ShellIntegrationToken) :
    words (remoteCommand (rcfileHead ++ writeHex challenge ++ rcfileTail) (writeHex challenge)) =
      some (remoteWords challenge) := by
  refine (congrArg words (remote_intercalate ..)).trans (words_intercalate ?_)
  have sh : Spells "sh".toList (spelled false "sh".toList) := spells_letters (by decide) (by decide)
  exact .cons (spells_letters (by decide) (by decide)) (.cons sh (.cons (spells_letters (by decide) (by decide))
    (.cons (spells_singleQuote _) (.cons sh (.cons (spells_singleQuote _)
      (.cons (spells_letters (writeHex_letters challenge) (writeHex_ne_nil challenge))
        (.cons (spells_singleQuote _) .nil)))))))

theorem expands_writeHex (challenge : ShellIntegrationToken) :
    Word.expands (spelled false (writeHex challenge)) = false := by
  have digits : ∀ char ∈ hexLetters, char ≠ '~' := List.all_iff_forall_prop.mp (by decide)
  rw [Bool.eq_false_iff]
  intro expands
  have head := head_of_expands (fun char member =>
    (plain_of_plainLetter (List.all_eq_true.mp (writeHex_letters challenge) char member)).2) expands
  exact digits _ (writeHex_mem (List.mem_of_head? head)) rfl

theorem remoteWords_literal (challenge : ShellIntegrationToken) :
    ∀ word ∈ remoteWords challenge, word.expands = false := by
  intro word member
  simp only [remoteWords, List.mem_cons, List.not_mem_nil, or_false] at member
  rcases member with rfl | rfl | rfl | rfl | rfl | rfl | rfl | rfl
  · decide
  · decide
  · decide
  · exact expands_quoted _
  · decide
  · exact expands_quoted _
  · exact expands_writeHex challenge
  · exact expands_quoted _

theorem parseInteractiveSsh_some {command : List Char} (accepted : parseInteractiveSsh command = some args) :
    pieces command = "ssh".toList :: args ∧ args ≠ [] ∧ ∀ word ∈ args, word ≠ [] ∧ word.all plainLetter = true := by
  unfold parseInteractiveSsh at accepted
  split at accepted
  next => cases accepted
  next first rest split =>
    split at accepted
    next => cases accepted
    next ssh =>
      split at accepted
      next => cases accepted
      next plain =>
        split at accepted
        next session =>
          cases accepted
          refine ⟨by rw [split, not_not.mp ssh], ?_, fun word member => ⟨?_, ?_⟩⟩
          · rintro rfl
            cases session
          · have kept : word ∈ pieces command := by
              rw [split]
              exact List.mem_cons_of_mem _ member
            rintro rfl
            cases (List.mem_filter.mp kept).2
          · have all := List.all_eq_true.mp (Bool.not_eq_false _ ▸ plain) word member
            exact (Bool.and_eq_true_iff.mp all).2
        next => cases accepted

theorem line_intercalate (given : args ≠ []) (quoted : List Char) :
    "ssh -t ".toList ++ [' '].intercalate args ++ " ".toList ++ quoted =
      [' '].intercalate ("ssh".toList :: "-t".toList :: (args ++ [quoted])) := by
  have joined : [' '].intercalate args ++ ' ' :: quoted = [' '].intercalate (args ++ [quoted]) := by
    induction args with
    | nil => exact absurd rfl given
    | cons first rest ih =>
        cases rest with
        | nil => simp
        | cons second rest =>
            have later := ih (List.cons_ne_nil _ _)
            simp only [List.cons_append, List.intercalate_cons_cons, List.append_assoc] at later ⊢
            rw [later]
  cases args with
  | nil => exact absurd rfl given
  | cons first rest =>
      rw [List.cons_append, List.intercalate_cons_cons, List.intercalate_cons_cons, ← List.cons_append, ← joined]
      simp

theorem spawnSshLine_words {command : List Char} (accepted : parseInteractiveSsh command = some args)
    (challenge : ShellIntegrationToken) :
    ∃ line, spawnSshLine args challenge = .ok line ∧
      words command = some (spelled false "ssh".toList :: args.map (spelled false)) ∧
      words line = some (spelled false "ssh".toList :: spelled false "-t".toList :: (args.map (spelled false) ++
        [spelled true (remoteCommand (rcfileHead ++ writeHex challenge ++ rcfileTail) (writeHex challenge))])) := by
  obtain ⟨split, given, plain⟩ := parseInteractiveSsh_some accepted
  refine ⟨_, by rw [spawnSshLine, spawnRcfile_ok]; rfl, ?_, ?_⟩
  · have ssh : "ssh".toList.all plainLetter = true := by decide
    rw [words_plain, split, List.map_cons]
    intro piece member char inPiece
    rw [split] at member
    refine (plain_of_plainLetter ?_).1
    rcases List.mem_cons.mp member with rfl | arg
    · exact List.all_eq_true.mp ssh char inPiece
    · exact List.all_eq_true.mp (plain piece arg).2 char inPiece
  · refine (congrArg words (line_intercalate given _)).trans (words_intercalate ?_)
    refine .cons (spells_letters (by decide) (by decide)) (.cons (spells_letters (by decide) (by decide)) ?_)
    refine List.rel_append ?_ (.cons (spells_singleQuote _) .nil)
    rw [List.forall₂_map_right_iff, List.forall₂_same]
    exact fun word member => spells_letters (plain word member).2 (plain word member).1

/-- An accepted command keeps its words. The rewritten line has two more, of which the last is the remote
command, and the remote shell splits that into the words meant for it. Nothing in either line is left for a shell
to replace, but for a tilde at the front of an argument, which is there in the command as well. -/
theorem spawn_keeps_command {command : List Char} {args : List (List Char)}
    (accepted : parseInteractiveSsh command = some args) (challenge : ShellIntegrationToken) :
    ∃ rcfile line remote remoteWords,
      spawnRcfile challenge = .ok rcfile ∧ spawnSshLine args challenge = .ok line ∧
      words command = some (spelled false "ssh".toList :: args.map (spelled false)) ∧
      words line = some (spelled false "ssh".toList :: spelled false "-t".toList ::
        (args.map (spelled false) ++ [spelled true remote])) ∧
      (∀ word ∈ args, Word.expands (spelled false word) = true → word.head? = some '~') ∧
      words remote = some remoteWords ∧
      remoteWords.map Word.text = ["exec".toList, "sh".toList, "-c".toList, select, "sh".toList, rcfile,
        writeHex challenge, bashExec] ∧
      ∀ word ∈ remoteWords, word.expands = false := by
  obtain ⟨line, written, original, rewritten⟩ := spawnSshLine_words accepted challenge
  refine ⟨_, line, _, _, spawnRcfile_ok challenge, written, original, rewritten, fun word member expands => ?_,
    remoteCommand_words challenge, ?_, remoteWords_literal challenge⟩
  · have plain := ((parseInteractiveSsh_some accepted).2.2 word member).2
    exact head_of_expands (fun char inWord => (plain_of_plainLetter (List.all_eq_true.mp plain char inWord)).2) expands
  · simp only [remoteWords, List.map_cons, List.map_nil, text_spelled]

def identityCommand : List Char := "ssh -i ~/.ssh/id host".toList

def identityArgs : List (List Char) := ["-i".toList, "~/.ssh/id".toList, "host".toList]

theorem spawn_keeps_command_identity :
    ∃ line, spawnSshLine identityArgs (Vector.replicate 16 0) = .ok line ∧
      words identityCommand = some (spelled false "ssh".toList :: identityArgs.map (spelled false)) := by
  have accepted : parseInteractiveSsh identityCommand = some identityArgs := by decide +kernel
  obtain ⟨_, line, _, _, _, written, original, _⟩ := spawn_keeps_command accepted (Vector.replicate 16 0)
  exact ⟨line, written, original⟩

/-- The local shell replaces the tilde of an accepted argument. -/
theorem tilde_expanded :
    ∃ line, parseInteractiveSsh identityCommand = some identityArgs ∧
      spawnSshLine identityArgs (Vector.replicate 16 0) = .ok line ∧
      ∃ line_words, words line = some line_words ∧ ∃ word ∈ line_words, word.expands = true := by
  have accepted : parseInteractiveSsh identityCommand = some identityArgs := by decide +kernel
  obtain ⟨line, written, _, rewritten⟩ := spawnSshLine_words accepted (Vector.replicate 16 0)
  refine ⟨line, accepted, written, _, rewritten, spelled false "~/.ssh/id".toList, ?_, by decide⟩
  simp [identityArgs]

end Seyal.Runtime.SshSpawn
