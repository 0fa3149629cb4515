import FrameSorter.Proofs.Scanning

/-!
# Scoreboard commands of a script

A script is read line by line, and the words of a line say which command it is (`Command.ofLine`):
objectives are added, a score is set or counted up, a command may depend on a score, and a function may
be called. Whatever else a line says is none of the scoreboard's business. A command is written in one
way (`Command.written`) and read back from it (`ofLine_written`), so a script is the list of the commands
that were written into it (`commandsOf_script`).
-/

set_option autoImplicit false
set_option relaxedAutoImplicit false

namespace FrameSorter.Scoreboard

/-! ### Commands -/

/-- A holder on an objective, which may have a score. -/
structure Counter where
  holder : String
  objective : String
  deriving DecidableEq, Repr

/-- The scores that a condition accepts. -/
inductive Range
  | exactly (n : Nat)
  | atLeast (n : Nat)
  deriving DecidableEq, Repr

/-- What a line of a script says. -/
inductive Command
  | addObjective (objective : String)
  | set (counter : Counter) (score : Nat)
  | add (counter : Counter) (amount : Nat)
  | guarded (counter : Counter) (range : Range) (command : String)
  | call (function : String)
  | other (line : String)
  deriving DecidableEq, Repr

/-! ### Reading -/

/-- The largest number that a command may have. -/
def numberLimit : Nat := 2147483647

/-- The number that digits spell. -/
def number? (digits : List Char) : Option Nat :=
  if digits ≠ [] ∧ digits.all Char.isDigit ∧ Nat.ofDigitChars 10 digits 0 ≤ numberLimit then
    some (Nat.ofDigitChars 10 digits 0)
  else none

/-- The range that a word spells: a number, or a number and two points if it may be exceeded. -/
def range? (word : List Char) : Option Range :=
  match word.dropWhile Char.isDigit with
  | [] => (number? word).map .exactly
  | ['.', '.'] => (number? (word.takeWhile Char.isDigit)).map .atLeast
  | _ => none

/-- The words of a line, with a blank between them. -/
def words (line : String) : List String :=
  (line.toList.splitOn ' ').map String.ofList

/-- The line that has these parts. -/
def sentence (parts : List String) : String :=
  " ".intercalate parts

/-- The command that words say. Behind a condition stands another command, whatever it is. -/
def Command.ofWords? : List String → Option Command
  | ["scoreboard", "objectives", "add", objective, "dummy"] => some (.addObjective objective)
  | ["scoreboard", "players", "set", holder, objective, score] =>
    (number? score.toList).map (.set ⟨holder, objective⟩)
  | ["scoreboard", "players", "add", holder, objective, amount] =>
    (number? amount.toList).map (.add ⟨holder, objective⟩)
  | "execute" :: "if" :: "score" :: holder :: objective :: "matches" :: range :: "run" :: command =>
    (range? range.toList).map (.guarded ⟨holder, objective⟩ · (sentence command))
  | ["function", function] => some (.call function)
  | _ => none

/-- The command of a line. -/
def Command.ofLine (line : String) : Command :=
  (Command.ofWords? (words line)).getD (.other line)

/-- The commands of a script, one for each line. -/
def commandsOf (script : String) : List Command :=
  (script.toList.splitOn '\n').map fun line ↦ Command.ofLine (String.ofList line)

/-! ### Writing -/

/-- How a range is written. -/
def Range.written : Range → String
  | .exactly n => toString n
  | .atLeast n => toString n ++ ".."

/-- The words of a command before its last part. -/
def Command.front : Command → List String
  | .addObjective objective => ["scoreboard", "objectives", "add", objective]
  | .set counter _ => ["scoreboard", "players", "set", counter.holder, counter.objective]
  | .add counter _ => ["scoreboard", "players", "add", counter.holder, counter.objective]
  | .guarded counter range _ =>
    ["execute", "if", "score", counter.holder, counter.objective, "matches", range.written, "run"]
  | .call _ => ["function"]
  | .other _ => []

/-- The last part of a command. Behind a condition it may be more than a word. -/
def Command.last : Command → String
  | .addObjective _ => "dummy"
  | .set _ score => toString score
  | .add _ amount => toString amount
  | .guarded _ _ command => command
  | .call function => function
  | .other line => line

/-- The line of a command. -/
def Command.written (command : Command) : String :=
  sentence (command.front ++ [command.last])

/-- The script with these commands, each on a line of its own. -/
def script (commands : List Command) : String :=
  String.join (commands.map fun command ↦ command.written ++ "\n")

/-! ### What can be written -/

/-- A name that is one word of a line. -/
def IsOneWord (name : String) : Prop :=
  ' ' ∉ name.toList ∧ '\n' ∉ name.toList

instance : DecidablePred IsOneWord :=
  fun name ↦ inferInstanceAs (Decidable (' ' ∉ name.toList ∧ '\n' ∉ name.toList))

/-- A holder and an objective that are words. -/
def Counter.IsNamed (counter : Counter) : Prop :=
  IsOneWord counter.holder ∧ IsOneWord counter.objective

/-- The number in a range. -/
def Range.bound : Range → Nat
  | .exactly n => n
  | .atLeast n => n

/-- The command fits on a line: its names are words, its numbers are not too large, and a text in it does
not break the line. A line of another kind does not read like a command. -/
def Command.IsReadable : Command → Prop
  | .addObjective objective => IsOneWord objective
  | .set counter score => counter.IsNamed ∧ score ≤ numberLimit
  | .add counter amount => counter.IsNamed ∧ amount ≤ numberLimit
  | .guarded counter range command =>
    counter.IsNamed ∧ range.bound ≤ numberLimit ∧ '\n' ∉ command.toList
  | .call function => IsOneWord function
  | .other line => Command.ofWords? (words line) = none ∧ '\n' ∉ line.toList

/-! ### Numbers -/

/-- A number is read back. -/
theorem number?_toString {n : Nat} (hn : n ≤ numberLimit) :
    number? (toString n).toList = some n := by
  have hdigits : (Nat.toDigits 10 n).all Char.isDigit = true :=
    List.all_eq_true.mpr fun _ ↦ isDigit_of_mem_toDigits
  have hnonempty : Nat.toDigits 10 n ≠ [] := by
    obtain ⟨first, digits, htoDigits, -⟩ := toDigits_eq_cons n
    simp [htoDigits]
  have hword : (toString n).toList = Nat.toDigits 10 n := by simp
  rw [hword, number?, Nat.ofDigitChars_ten_toDigits, if_pos ⟨hnonempty, hdigits, hn⟩]

/-- A range is read back. -/
theorem range?_written {range : Range} (hrange : range.bound ≤ numberLimit) :
    range? range.written.toList = some range := by
  have hdigits (n : Nat) : ∀ c ∈ (toString n).toList, c.isDigit := fun c hc ↦
    isDigit_of_mem_toDigits (n := n) (by simpa using hc)
  cases range with
  | exactly n =>
    have hnumber : number? (toString n).toList = some n := number?_toString hrange
    rw [Range.written, range?, List.dropWhile_eq_nil_iff.mpr (hdigits n), hnumber]
    rfl
  | atLeast n =>
    have hpoint : ∀ c ∈ (['.', '.'] : List Char).head?, ¬ c.isDigit := by
      rintro c ⟨⟩
      decide
    have hpoints : "..".toList = ['.', '.'] := rfl
    have hnumber : number? (toString n).toList = some n := number?_toString hrange
    rw [Range.written, String.toList_append, hpoints, range?,
      dropWhile_append_of_head (hdigits n) hpoint, takeWhile_append_of_head (hdigits n) hpoint, hnumber]
    rfl

/-! ### Words -/

/-- The digits of a number are one word. -/
theorem isOneWord_toString (n : Nat) : IsOneWord (toString n) := by
  have hdigit {c : Char} (hc : c ∈ (toString n).toList) : c.isDigit :=
    isDigit_of_mem_toDigits (n := n) (by simpa using hc)
  exact ⟨fun hblank ↦ absurd (hdigit hblank) (by decide),
    fun hfeed ↦ absurd (hdigit hfeed) (by decide)⟩

/-- Two words without a blank between them are one. -/
theorem isOneWord_append {first second : String} (hfirst : IsOneWord first)
    (hsecond : IsOneWord second) : IsOneWord (first ++ second) := by
  unfold IsOneWord
  rw [String.toList_append, List.mem_append, List.mem_append, not_or, not_or]
  exact ⟨⟨hfirst.1, hsecond.1⟩, hfirst.2, hsecond.2⟩

/-- A range is one word. -/
theorem isOneWord_range (range : Range) : IsOneWord range.written := by
  cases range with
  | exactly n => exact isOneWord_toString n
  | atLeast n => exact isOneWord_append (isOneWord_toString n) (by decide)

/-- A line has its words. -/
theorem sentence_words (line : String) : sentence (words line) = line := by
  rw [← String.toList_inj]
  simp [sentence, words]

/-- One word is no more than that. -/
theorem words_of_isOneWord {word : String} (hword : IsOneWord word) : words word = [word] := by
  unfold words
  rw [List.splitOn_eq_singleton hword.1, List.map_singleton, String.ofList_toList]

/-- A sentence of one part is that part. -/
theorem sentence_singleton (part : String) : sentence [part] = part :=
  String.intercalate_singleton

/-- The first of two parts stands before a blank. -/
theorem sentence_cons_cons (first second : String) (parts : List String) :
    sentence (first :: second :: parts) = first ++ " " ++ sentence (second :: parts) :=
  String.intercalate_cons_cons

/-- What stands behind single words is read by itself. -/
theorem words_sentence_append {parts : List String} (hparts : ∀ part ∈ parts, IsOneWord part)
    (last : String) : words (sentence (parts ++ [last])) = parts ++ words last := by
  induction parts with
  | nil => rw [List.nil_append, sentence_singleton, List.nil_append]
  | cons part parts ih =>
    obtain ⟨hpart, hmore⟩ := List.forall_mem_cons.mp hparts
    have hsentence : (sentence (part :: (parts ++ [last]))).toList =
        part.toList ++ ' ' :: (sentence (parts ++ [last])).toList := by
      unfold sentence
      rw [String.intercalate_cons_of_ne_nil (by simp)]
      simp
    have hwords : words (sentence (part :: (parts ++ [last]))) =
        part :: words (sentence (parts ++ [last])) := by
      unfold words
      rw [hsentence, List.splitOn_append_cons_self_of_not_mem hpart.1, List.map_cons,
        String.ofList_toList]
    rw [List.cons_append, hwords, ih hmore, List.cons_append]

/-- Texts on one line, with something between them, are on one line. -/
theorem lineFeed_notMem_intercalate {separator : String} (hseparator : '\n' ∉ separator.toList)
    {texts : List String} (htexts : ∀ text ∈ texts, '\n' ∉ text.toList) :
    '\n' ∉ (separator.intercalate texts).toList := by
  induction texts with
  | nil => simp
  | cons text texts ih =>
    obtain ⟨htext, hmore⟩ := List.forall_mem_cons.mp htexts
    cases texts with
    | nil => rwa [String.intercalate_singleton]
    | cons next texts =>
      rw [String.intercalate_cons_cons, String.toList_append, String.toList_append, List.mem_append,
        List.mem_append, not_or, not_or]
      exact ⟨⟨htext, hseparator⟩, ih hmore⟩

/-! ### The lines of the commands -/

theorem written_addObjective (objective : String) :
    (Command.addObjective objective).written =
      "scoreboard objectives add " ++ objective ++ " dummy" := by
  have hkind : " dummy" = " " ++ "dummy" := rfl
  simp only [Command.written, Command.front, Command.last, List.cons_append, List.nil_append,
    sentence_cons_cons, sentence_singleton, hkind, ← String.append_assoc]
  rfl

theorem written_set (counter : Counter) (score : Nat) :
    (Command.set counter score).written =
      "scoreboard players set " ++ counter.holder ++ " " ++ counter.objective ++ " " ++
        toString score := by
  simp only [Command.written, Command.front, Command.last, List.cons_append, List.nil_append,
    sentence_cons_cons, sentence_singleton, ← String.append_assoc]
  rfl

theorem written_add (counter : Counter) (amount : Nat) :
    (Command.add counter amount).written =
      "scoreboard players add " ++ counter.holder ++ " " ++ counter.objective ++ " " ++
        toString amount := by
  simp only [Command.written, Command.front, Command.last, List.cons_append, List.nil_append,
    sentence_cons_cons, sentence_singleton, ← String.append_assoc]
  rfl

theorem written_guarded (counter : Counter) (range : Range) (command : String) :
    (Command.guarded counter range command).written =
      "execute if score " ++ counter.holder ++ " " ++ counter.objective ++ " matches " ++
        range.written ++ " run " ++ command := by
  have hmatches : " matches " = " " ++ "matches" ++ " " := rfl
  have hrun : " run " = " " ++ "run" ++ " " := rfl
  simp only [Command.written, Command.front, Command.last, List.cons_append, List.nil_append,
    sentence_cons_cons, sentence_singleton, hmatches, hrun, ← String.append_assoc]
  rfl

theorem written_call (function : String) :
    (Command.call function).written = "function " ++ function := by
  rw [Command.written, Command.front, Command.last, List.singleton_append, sentence_cons_cons,
    sentence_singleton]
  rfl

theorem written_other (line : String) : (Command.other line).written = line :=
  sentence_singleton line

/-! ### Reading commands -/

/-- In front of the last part of a command stand single words. -/
theorem Command.IsReadable.front {command : Command} (hcommand : command.IsReadable) :
    ∀ part ∈ command.front, IsOneWord part := by
  cases command with
  | addObjective objective =>
    simp only [Command.front, List.forall_mem_cons]
    exact ⟨by decide, by decide, by decide, hcommand, nofun⟩
  | set counter score =>
    obtain ⟨⟨hholder, hobjective⟩, -⟩ := hcommand
    simp only [Command.front, List.forall_mem_cons]
    exact ⟨by decide, by decide, by decide, hholder, hobjective, nofun⟩
  | add counter amount =>
    obtain ⟨⟨hholder, hobjective⟩, -⟩ := hcommand
    simp only [Command.front, List.forall_mem_cons]
    exact ⟨by decide, by decide, by decide, hholder, hobjective, nofun⟩
  | guarded counter range command =>
    obtain ⟨⟨hholder, hobjective⟩, -⟩ := hcommand
    simp only [Command.front, List.forall_mem_cons]
    exact ⟨by decide, by decide, by decide, hholder, hobjective, by decide, isOneWord_range range,
      by decide, nofun⟩
  | call function => exact List.forall_mem_singleton.mpr (by decide)
  | other line => nofun

/-- A command that can be read does not break its line. -/
theorem Command.IsReadable.lineFeed_notMem_last {command : Command} (hcommand : command.IsReadable) :
    '\n' ∉ command.last.toList := by
  cases command with
  | addObjective objective => exact (by decide : '\n' ∉ "dummy".toList)
  | set counter score => exact (isOneWord_toString score).2
  | add counter amount => exact (isOneWord_toString amount).2
  | guarded counter range command => exact hcommand.2.2
  | call function => exact hcommand.2
  | other line => exact hcommand.2

/-- The words of a command are those in front of its last part and those of that part. -/
theorem words_written {command : Command} (hcommand : command.IsReadable) :
    words command.written = command.front ++ words command.last :=
  words_sentence_append hcommand.front command.last

/-- The line of a command is one line. -/
theorem lineFeed_notMem_written {command : Command} (hcommand : command.IsReadable) :
    '\n' ∉ command.written.toList := by
  refine lineFeed_notMem_intercalate (by decide) (List.forall_mem_append.mpr ⟨?_, ?_⟩)
  · exact fun part hpart ↦ (hcommand.front part hpart).2
  · exact List.forall_mem_singleton.mpr hcommand.lineFeed_notMem_last

/-- A command is read back from its line. -/
theorem ofLine_written {command : Command} (hcommand : command.IsReadable) :
    Command.ofLine command.written = command := by
  rw [Command.ofLine, words_written hcommand]
  cases command with
  | addObjective objective =>
    rw [Command.last, words_of_isOneWord (by decide)]
    rfl
  | set counter score =>
    rw [Command.last, words_of_isOneWord (isOneWord_toString score)]
    change ((number? (toString score).toList).map (Command.set counter)).getD _ = _
    rw [number?_toString hcommand.2]
    rfl
  | add counter amount =>
    rw [Command.last, words_of_isOneWord (isOneWord_toString amount)]
    change ((number? (toString amount).toList).map (Command.add counter)).getD _ = _
    rw [number?_toString hcommand.2]
    rfl
  | guarded counter range command =>
    change ((range? range.written.toList).map fun range ↦
      Command.guarded counter range (sentence (words command))).getD _ = _
    rw [range?_written hcommand.2.1, sentence_words]
    rfl
  | call function =>
    rw [Command.last, words_of_isOneWord hcommand]
    rfl
  | other line =>
    rw [Command.front, Command.last, List.nil_append, hcommand.1, written_other]
    rfl

/-- Two lists of commands are written one behind the other. -/
theorem script_append (first second : List Command) :
    script (first ++ second) = script first ++ script second := by
  rw [script, List.map_append, String.join_append, script, script]

/-- A script is read as the commands that were written into it. Behind the last one nothing is left to
say. -/
theorem commandsOf_script {commands : List Command} (hcommands : ∀ command ∈ commands, command.IsReadable) :
    commandsOf (script commands) = commands ++ [.other ""] := by
  induction commands with
  | nil => rfl
  | cons command commands ih =>
    obtain ⟨hcommand, hmore⟩ := List.forall_mem_cons.mp hcommands
    have hlines : (script (command :: commands)).toList =
        command.written.toList ++ '\n' :: (script commands).toList := by
      simp [script]
    unfold commandsOf
    rw [hlines, List.splitOn_append_cons_self_of_not_mem (lineFeed_notMem_written hcommand),
      List.map_cons, String.ofList_toList, ofLine_written hcommand]
    exact congrArg (command :: ·) (ih hmore)

/-- A line that starts with a number sign is a comment. -/
theorem isReadable_comment {text : String} (htext : '\n' ∉ text.toList) :
    (Command.other ("# " ++ text)).IsReadable := by
  have hsentence : "# " ++ text = sentence (["#"] ++ [text]) := by
    rw [List.singleton_append, sentence_cons_cons, sentence_singleton]
    rfl
  have hwords : words ("# " ++ text) = "#" :: words text := by
    rw [hsentence, words_sentence_append (List.forall_mem_singleton.mpr (by decide))]
    rfl
  refine ⟨?_, ?_⟩
  · rw [hwords]
    rfl
  · rw [String.toList_append, List.mem_append, not_or]
    exact ⟨by decide, htext⟩

end FrameSorter.Scoreboard
