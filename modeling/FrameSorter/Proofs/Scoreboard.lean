import Mathlib.Logic.Function.Basic
import FrameSorter.Proofs.ScriptCommands

/-!
# Running a script on a scoreboard

A scoreboard (`Board`) has scores of 32 bits for the holders on its objectives. The commands of a script
run one after the other on it (`runScript`). What a called function does, what a condition lets through
and what the other lines are about is up to the surroundings of the script (`Surroundings`). The
functions that are called and the commands that are let through are noted (`Event`). A score that was
set is read back and the other scores are kept (`Board.score_set_self`, `Board.score_set_of_ne`).
-/

set_option autoImplicit false
set_option relaxedAutoImplicit false

namespace FrameSorter.Scoreboard

/-! ### Scoreboards -/

/-- The objectives, and on each of them the scores of its holders. -/
structure Board where
  scores : String → Option (String → Option Int32)

namespace Board

/-- The score of a holder, if the objective exists and the holder has a score on it. -/
def score (board : Board) (counter : Counter) : Option Int32 :=
  (board.scores counter.objective).bind (· counter.holder)

/-- The objective exists. -/
def Has (board : Board) (objective : String) : Prop :=
  (board.scores objective).isSome

/-- Adds an objective on which nobody has a score. An objective that exists stays as it is. -/
def addObjective (board : Board) (objective : String) : Board :=
  match board.scores objective with
  | some _ => board
  | none => { scores := Function.update board.scores objective (some fun _ ↦ none) }

/-- Sets a score, if the objective exists. -/
def set (board : Board) (counter : Counter) (value : Int32) : Board :=
  match board.scores counter.objective with
  | some scores =>
    { scores := Function.update board.scores counter.objective
        (some (Function.update scores counter.holder (some value))) }
  | none => board

/-- Counts a score up, from zero if there is none. -/
def add (board : Board) (counter : Counter) (amount : Int32) : Board :=
  board.set counter ((board.score counter).getD 0 + amount)

variable {board : Board} {counter other : Counter} {objective : String} {value : Int32}

/-- The objective of a score exists. -/
theorem has_of_score (hscore : board.score counter = some value) : board.Has counter.objective := by
  obtain ⟨scores, hscores, -⟩ := Option.bind_eq_some_iff.mp hscore
  exact Option.isSome_iff_exists.mpr ⟨scores, hscores⟩

/-- An objective that was added exists. -/
theorem has_addObjective_self (board : Board) (objective : String) :
    (board.addObjective objective).Has objective := by
  unfold addObjective Has
  split
  next scores hscores => simp [hscores]
  next => simp

/-- An objective stays when another is added. -/
theorem has_addObjective (hobjective : board.Has objective) (added : String) :
    (board.addObjective added).Has objective := by
  by_cases hsame : objective = added
  · exact hsame ▸ has_addObjective_self board objective
  · unfold addObjective Has
    split
    next => exact hobjective
    next => exact (congrArg Option.isSome (Function.update_of_ne hsame _ _)).trans hobjective

/-- An objective stays when a score is set. -/
theorem has_set (hobjective : board.Has objective) (counter : Counter) (value : Int32) :
    (board.set counter value).Has objective := by
  unfold set Has
  split
  next scores _ =>
    by_cases hsame : objective = counter.objective
    · simp [hsame]
    · exact (congrArg Option.isSome (Function.update_of_ne hsame _ _)).trans hobjective
  next => exact hobjective

/-- A score that was set is read back. -/
theorem score_set_self (hobjective : board.Has counter.objective) (value : Int32) :
    (board.set counter value).score counter = some value := by
  obtain ⟨scores, hscores⟩ := Option.isSome_iff_exists.mp hobjective
  simp [set, score, hscores]

/-- The scores of the other counters are kept. -/
theorem score_set_of_ne (hother : other ≠ counter) (value : Int32) :
    (board.set counter value).score other = board.score other := by
  unfold set
  split
  next scores hscores =>
    unfold score
    by_cases hobjective : other.objective = counter.objective
    · have hholder : other.holder ≠ counter.holder := fun hsame ↦
        hother (by cases other; cases counter; simp_all)
      simp [hobjective, hscores, Function.update_of_ne hholder]
    · simp [Function.update_of_ne hobjective]
  next => rfl

end Board

/-! ### Conditions -/

/-- Whether a range accepts a score. -/
def Range.accepts : Range → Int32 → Bool
  | .exactly n, value => value.toInt = n
  | .atLeast n, value => n ≤ value.toInt

/-- A number up to the largest one is a score. -/
theorem toInt_ofNat_of_le {m : Nat} (hm : m ≤ numberLimit) : (Int32.ofNat m).toInt = m :=
  Int32.toInt_ofNat_of_lt (Nat.lt_succ_of_le hm)

/-- An exact number accepts itself. -/
theorem accepts_exactly {m : Nat} (hm : m ≤ numberLimit) (n : Nat) :
    (Range.exactly n).accepts (Int32.ofNat m) = decide (m = n) := by
  rw [Range.accepts, toInt_ofNat_of_le hm]
  exact decide_eq_decide.mpr Nat.cast_inj

/-- A lower bound accepts what it does not exceed. -/
theorem accepts_atLeast {m : Nat} (hm : m ≤ numberLimit) (n : Nat) :
    (Range.atLeast n).accepts (Int32.ofNat m) = decide (n ≤ m) := by
  rw [Range.accepts, toInt_ofNat_of_le hm]
  exact decide_eq_decide.mpr Nat.cast_le

/-! ### Running -/

/-- What is noted: a function was called, or a condition let a command through. -/
inductive Event
  | called (function : String)
  | performed (command : String)
  deriving DecidableEq, Repr

/-- The command that was performed, if that is what happened. -/
def Event.performed? : Event → Option String
  | .called _ => none
  | .performed command => some command

/-- A scoreboard, and what has been noted so far. -/
structure Course where
  board : Board
  events : List Event := []

/-- Notes what happens. -/
def Course.note (course : Course) (event : Event) : Course :=
  { course with events := course.events ++ [event] }

/-- What the commands leave open: what a called function does, what a command does that a condition lets
through, and what the other lines do. -/
structure Surroundings where
  call : String → Course → Course
  behind : String → Course → Course
  other : String → Course → Course

/-- Runs a command. -/
def Command.run (surroundings : Surroundings) : Command → Course → Course
  | .addObjective objective, course => { course with board := course.board.addObjective objective }
  | .set counter score, course =>
    { course with board := course.board.set counter (Int32.ofNat score) }
  | .add counter amount, course =>
    { course with board := course.board.add counter (Int32.ofNat amount) }
  | .guarded counter range command, course =>
    if (course.board.score counter).any range.accepts then surroundings.behind command course
    else course
  | .call function, course => surroundings.call function (course.note (.called function))
  | .other line, course => surroundings.other line course

/-- Runs commands one after the other. -/
def runAll (surroundings : Surroundings) (commands : List Command) (course : Course) : Course :=
  commands.foldl (fun course command ↦ command.run surroundings course) course

/-- Runs a script. -/
def runScript (surroundings : Surroundings) (script : String) (course : Course) : Course :=
  runAll surroundings (commandsOf script) course

/-- To run commands is to run the first and then the others. -/
theorem runAll_cons (surroundings : Surroundings) (command : Command) (commands : List Command)
    (course : Course) :
    runAll surroundings (command :: commands) course =
      runAll surroundings commands (command.run surroundings course) :=
  rfl

/-- To run two lists of commands is to run one after the other. -/
theorem runAll_append (surroundings : Surroundings) (first second : List Command) (course : Course) :
    runAll surroundings (first ++ second) course =
      runAll surroundings second (runAll surroundings first course) :=
  List.foldl_append

/-- A script runs as the commands that were written into it. -/
theorem runScript_script {commands : List Command} (hcommands : ∀ command ∈ commands, command.IsReadable)
    (surroundings : Surroundings) (course : Course) :
    runScript surroundings (script commands) course =
      surroundings.other "" (runAll surroundings commands course) := by
  rw [runScript, commandsOf_script hcommands, runAll_append]
  rfl

end FrameSorter.Scoreboard
