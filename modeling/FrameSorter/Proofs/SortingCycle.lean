import Mathlib.Logic.Function.Iterate
import FrameSorter.Lifecycle
import FrameSorter.Proofs.DispatcherHeader
import FrameSorter.Proofs.Scoreboard

/-!
# The sorting cycle

`init`, `tick` and the header of the dispatcher are lists of scoreboard commands (`initScript_eq_script`,
`tickScript_eq_script`, `dispatcherHeader_eq_script`). The game runs `init` once and then `tick` again
and again (`boardAfter`). It decides how many item entities a run of `sort` meets, each of which runs the
dispatcher, and what the lines do that are not about the timer and the cooldown (`Game`).

A cycle lasts `period` ticks. Between the ticks the timer says how old the cycle is, and a new cycle
starts with the cooldown down (`InCycle`). A tick makes the cycle one tick older or ends it
(`inCycle_tick`), and runs `sort` exactly if the cycle is new. The first item entity that a run of `sort`
meets performs the effects, and the cooldown keeps the others from it (`standsAt_sort`). Hence `sort` runs
once in a cycle, in its first tick, and the effects are performed once in a cycle in which the dispatcher
runs (`sorts_in_cycles`).
-/

set_option autoImplicit false
set_option relaxedAutoImplicit false

namespace FrameSorter

open Scoreboard

/-! ### The scripts as commands -/

/-- The timer of a pack. -/
def timerCounter (options : PackOptions) : Counter :=
  ⟨timerHolder, timerObjective options.packNamespace⟩

/-- The cooldown of a pack. -/
def cooldownCounter (options : PackOptions) : Counter :=
  ⟨cooldownHolder, cooldownObjective options.packNamespace⟩

/-- The number of ticks in a cycle. -/
def period (options : PackOptions) : Nat :=
  max options.interval.toNat 1

/-- The command that runs one of the functions of a pack. -/
def callCommand (options : PackOptions) (name : String) : Command :=
  .call (resourceLocation options.packNamespace name)

/-- The commands of `init`. -/
def initCommands (options : PackOptions) : List Command :=
  [.addObjective (timerObjective options.packNamespace),
    .addObjective (cooldownObjective options.packNamespace),
    .set (timerCounter options) 0,
    .set (cooldownCounter options) 0]

/-- The commands of `tick`. -/
def tickCommands (options : PackOptions) : List Command :=
  [.add (timerCounter options) 1,
    .guarded (timerCounter options) (.exactly 1) (callCommand options sortArtifactName).written,
    .guarded (timerCounter options) (.atLeast (period options))
      (Command.set (cooldownCounter options) 0).written,
    .guarded (timerCounter options) (.atLeast (period options))
      (Command.set (timerCounter options) 0).written]

/-- The two lines of the comment at the beginning of the dispatcher. -/
def commentCommands (config : Configuration) : List Command :=
  [.other ("# " ++ "Item sorter dispatcher"),
    .other ("# " ++ (toString config.groups.length ++ " groups: " ++
      String.intercalate ", " (config.groups.map Group.name)))]

/-- The commands of the effects, and the one that ends the cooldown. -/
def effectCommands (config : Configuration) : List Command :=
  config.effects.map (.guarded (cooldownCounter config.pack) (.exactly 0)) ++
    if config.effects.isEmpty then [] else [.set (cooldownCounter config.pack) 1]

/-- The lines of `init`. -/
theorem initScript_eq_script (options : PackOptions) :
    initScript options = script (initCommands options) := by
  have hkind : " dummy\n" = " dummy" ++ "\n" := rfl
  have hzero : " 0\n" = " " ++ (toString 0 ++ "\n") := rfl
  unfold initScript script initCommands timerCounter cooldownCounter
  simp only [List.map_cons, List.map_nil, String.join_cons, String.join_nil, written_addObjective,
    written_set, String.append_assoc, String.append_empty, hkind, hzero]

/-- The lines of `tick`. -/
theorem tickScript_eq_script (options : PackOptions) :
    tickScript options = script (tickCommands options) := by
  have hone : " 1\n" = " " ++ (toString 1 ++ "\n") := rfl
  have hfirst : " matches 1 run " = " matches " ++ (toString 1 ++ " run ") := rfl
  have hlast : ".. run scoreboard players set " =
      ".." ++ (" run " ++ "scoreboard players set ") := rfl
  have hzero : " 0\n" = " " ++ (toString 0 ++ "\n") := rfl
  have hcounted : "execute if score " = "execute if " ++ "score " := rfl
  unfold tickScript script tickCommands timerCounter cooldownCounter callCommand functionCall period
  simp only [List.map_cons, List.map_nil, String.join_cons, String.join_nil, written_add,
    written_guarded, written_call, written_set, Range.written, String.append_assoc,
    String.append_empty, hone, hfirst, hlast, hzero, hcounted]

/-- The command of an effect lets it through while the cooldown is down. -/
theorem written_effect (config : Configuration) (effect : String) :
    (Command.guarded (cooldownCounter config.pack) (.exactly 0) effect).written =
      effectCommand config effect := by
  have hdown : " matches 0 run " = " matches " ++ (toString 0 ++ " run ") := rfl
  unfold effectCommand
  simp only [written_guarded, cooldownCounter, Range.written, hdown, String.append_assoc]

/-- The command that ends the cooldown sets it. -/
theorem written_cooldown (config : Configuration) :
    (Command.set (cooldownCounter config.pack) 1).written = cooldownCommand config := by
  have hone : " 1" = " " ++ toString 1 := rfl
  unfold cooldownCommand
  simp only [written_set, cooldownCounter, hone, String.append_assoc]

/-- The lines of the dispatcher's header. -/
theorem dispatcherHeader_eq_script (config : Configuration) :
    dispatcherHeader config = script (commentCommands config ++ effectCommands config) := by
  have hcomment : script (commentCommands config) = headerComment config ++ "\n" := by
    have htitle : "# Item sorter dispatcher\n# " =
        "# " ++ ("Item sorter dispatcher" ++ ("\n" ++ "# ")) := rfl
    unfold headerComment script commentCommands
    simp only [List.map_cons, List.map_nil, String.join_cons, String.join_nil, written_other,
      String.append_assoc, String.append_empty, htitle]
  have heffects : script (effectCommands config) =
      String.join ((config.effects.map (effectCommand config) ++
        if config.effects.isEmpty then [] else [cooldownCommand config]).map (· ++ "\n")) := by
    unfold script effectCommands
    split <;> simp [Function.comp_def, written_effect, written_cooldown]
  rw [script_append, hcomment, heffects, dispatcherHeader_eq_join, headerCommands, List.map_cons,
    String.join_cons]

/-! ### The game -/

/-- What the game decides in a tick: how many item entities a run of `sort` meets, and what the scoreboard
is after a line that is about something else. Such a line keeps the timer and the cooldown. -/
structure Game (options : PackOptions) where
  visits : Nat
  meddle : String → Course → Board
  timer_meddle : ∀ line course, (meddle line course).score (timerCounter options) =
    course.board.score (timerCounter options)
  cooldown_meddle : ∀ line course, (meddle line course).score (cooldownCounter options) =
    course.board.score (cooldownCounter options)

variable {options : PackOptions} {config : Configuration}

namespace Game

/-- Runs a line that is about something else. -/
def other (game : Game options) (line : String) (course : Course) : Course :=
  { course with board := game.meddle line course }

/-- Performs a command that a condition let through. -/
def perform (game : Game options) (command : String) (course : Course) : Course :=
  game.other command (course.note (.performed command))

/-- The surroundings of a script that calls no function of the pack. -/
def surroundings (game : Game options) : Surroundings where
  call := game.other
  behind := game.perform
  other := game.other

end Game

/-- An item entity runs the header of the dispatcher. -/
def dispatch (config : Configuration) (game : Game config.pack) (course : Course) : Course :=
  runScript game.surroundings (dispatcherHeader config)
    (course.note (.called (resourceLocation config.pack.packNamespace dispatchArtifactName)))

/-- Each item entity that `sort` meets runs the dispatcher. -/
def sort (config : Configuration) (game : Game config.pack) : Course → Course :=
  (dispatch config game)^[game.visits]

/-- The function of this name runs, if it is `sort`. -/
def callSort (config : Configuration) (game : Game config.pack) (function : String) : Course → Course :=
  if function = resourceLocation config.pack.packNamespace sortArtifactName then sort config game
  else game.other function

/-- The surroundings of `tick`, which has scoreboard commands behind its conditions. -/
def tickSurroundings (config : Configuration) (game : Game config.pack) : Surroundings where
  call := callSort config game
  behind := fun command ↦
    (Command.ofLine command).run { game.surroundings with call := callSort config game }
  other := game.other

/-- The course of a tick. -/
def tick (config : Configuration) (game : Game config.pack) (board : Board) : Course :=
  runScript (tickSurroundings config game) (tickScript config.pack) { board }

/-- The scoreboard after `init`. -/
def init (config : Configuration) (game : Game config.pack) (board : Board) : Board :=
  (runScript game.surroundings (initScript config.pack) { board }).board

/-- The scoreboard after `init` and some ticks. -/
def boardAfter (config : Configuration) (games : Nat → Game config.pack) (start : Board) : Nat → Board
  | 0 => init config (games 0) start
  | ticks + 1 => (tick config (games (ticks + 1)) (boardAfter config games start ticks)).board

/-- What happens in the tick that follows on some ticks. -/
def eventsAfter (config : Configuration) (games : Nat → Game config.pack) (start : Board)
    (ticks : Nat) : List Event :=
  (tick config (games (ticks + 1)) (boardAfter config games start ticks)).events

/-! ### The timer and the cooldown -/

/-- The course has come to these scores, and this has happened. -/
structure StandsAt (options : PackOptions) (course : Course) (timer cooldown : Int32)
    (events : List Event) : Prop where
  timer_eq : course.board.score (timerCounter options) = some timer
  cooldown_eq : course.board.score (cooldownCounter options) = some cooldown
  events_eq : course.events = events

/-- The two counters have different holders. -/
theorem timerCounter_ne_cooldownCounter (options : PackOptions) :
    timerCounter options ≠ cooldownCounter options := fun hsame ↦
  absurd (congrArg Counter.holder hsame) (by decide : timerHolder ≠ cooldownHolder)

namespace StandsAt

variable {course : Course} {timer cooldown : Int32} {events : List Event}

/-- The game keeps the scores. -/
theorem other (hcourse : StandsAt options course timer cooldown events) (game : Game options)
    (line : String) : StandsAt options (game.other line course) timer cooldown events where
  timer_eq := (game.timer_meddle line course).trans hcourse.timer_eq
  cooldown_eq := (game.cooldown_meddle line course).trans hcourse.cooldown_eq
  events_eq := hcourse.events_eq

/-- To note something keeps the scores. -/
theorem note (hcourse : StandsAt options course timer cooldown events) (event : Event) :
    StandsAt options (course.note event) timer cooldown (events ++ [event]) where
  timer_eq := hcourse.timer_eq
  cooldown_eq := hcourse.cooldown_eq
  events_eq := congrArg (· ++ [event]) hcourse.events_eq

/-- A command that is let through keeps the scores and is noted. -/
theorem perform (hcourse : StandsAt options course timer cooldown events) (game : Game options)
    (command : String) :
    StandsAt options (game.perform command course) timer cooldown (events ++ [.performed command]) :=
  (hcourse.note _).other game command

/-- The timer is set. -/
theorem setTimer (hcourse : StandsAt options course timer cooldown events) (value : Int32) :
    StandsAt options { course with board := course.board.set (timerCounter options) value } value
      cooldown events where
  timer_eq := Board.score_set_self (Board.has_of_score hcourse.timer_eq) value
  cooldown_eq :=
    (Board.score_set_of_ne (timerCounter_ne_cooldownCounter options).symm value).trans
      hcourse.cooldown_eq
  events_eq := hcourse.events_eq

/-- The cooldown is set. -/
theorem setCooldown (hcourse : StandsAt options course timer cooldown events) (value : Int32) :
    StandsAt options { course with board := course.board.set (cooldownCounter options) value } timer
      value events where
  timer_eq :=
    (Board.score_set_of_ne (timerCounter_ne_cooldownCounter options) value).trans hcourse.timer_eq
  cooldown_eq := Board.score_set_self (Board.has_of_score hcourse.cooldown_eq) value
  events_eq := hcourse.events_eq

/-- The timer is counted up. -/
theorem addTimer (hcourse : StandsAt options course timer cooldown events)
    (surroundings : Surroundings) (amount : Nat) :
    StandsAt options ((Command.add (timerCounter options) amount).run surroundings course)
      (timer + Int32.ofNat amount) cooldown events := by
  have hadd : course.board.add (timerCounter options) (Int32.ofNat amount) =
      course.board.set (timerCounter options) (timer + Int32.ofNat amount) := by
    rw [Board.add, hcourse.timer_eq, Option.getD_some]
  rw [Command.run, hadd]
  exact hcourse.setTimer _

/-- A condition on the timer. -/
theorem run_guardedTimer (hcourse : StandsAt options course timer cooldown events)
    (surroundings : Surroundings) (range : Range) (command : String) :
    (Command.guarded (timerCounter options) range command).run surroundings course =
      if range.accepts timer then surroundings.behind command course else course := by
  rw [Command.run, hcourse.timer_eq, Option.any_some]

/-- A condition on the cooldown. -/
theorem run_guardedCooldown (hcourse : StandsAt options course timer cooldown events)
    (surroundings : Surroundings) (range : Range) (command : String) :
    (Command.guarded (cooldownCounter options) range command).run surroundings course =
      if range.accepts cooldown then surroundings.behind command course else course := by
  rw [Command.run, hcourse.cooldown_eq, Option.any_some]

end StandsAt

/-! ### Texts that fit into the scripts -/

/-- The namespace is one word, the interval is a number that a command may have, and neither an effect
nor the name of a group breaks a line. -/
structure FitsScripts (config : Configuration) : Prop where
  isOneWord_packNamespace : IsOneWord config.pack.packNamespace
  interval_le : config.pack.interval.toNat ≤ numberLimit
  lineFeed_notMem_effects : ∀ effect ∈ config.effects, '\n' ∉ effect.toList
  lineFeed_notMem_groups : ∀ group ∈ config.groups, '\n' ∉ group.name.toList

namespace FitsScripts

/-- A cycle has a number of ticks that a command may have. -/
theorem period_le (hfits : FitsScripts config) : period config.pack ≤ numberLimit :=
  max_le hfits.interval_le (by decide)

/-- The timer has words for names. -/
theorem isNamed_timerCounter (hfits : FitsScripts config) : (timerCounter config.pack).IsNamed :=
  ⟨(by decide : IsOneWord timerHolder), isOneWord_append hfits.isOneWord_packNamespace (by decide)⟩

/-- The cooldown has words for names. -/
theorem isNamed_cooldownCounter (hfits : FitsScripts config) : (cooldownCounter config.pack).IsNamed :=
  ⟨(by decide : IsOneWord cooldownHolder),
    isOneWord_append hfits.isOneWord_packNamespace (by decide)⟩

/-- The commands that set one of the counters to a small number can be read. -/
theorem isReadable_set {counter : Counter} (hcounter : counter.IsNamed) {score : Nat}
    (hscore : score ≤ 1) : (Command.set counter score).IsReadable :=
  ⟨hcounter, hscore.trans (by decide)⟩

/-- The call of `sort` can be read. -/
theorem isReadable_callCommand (hfits : FitsScripts config) :
    (callCommand config.pack sortArtifactName).IsReadable :=
  isOneWord_append (isOneWord_append hfits.isOneWord_packNamespace (by decide)) (by decide)

/-- `init` can be read. -/
theorem isReadable_initCommands (hfits : FitsScripts config) :
    ∀ command ∈ initCommands config.pack, command.IsReadable := by
  simp only [initCommands, List.forall_mem_cons]
  exact ⟨hfits.isNamed_timerCounter.2, hfits.isNamed_cooldownCounter.2,
    isReadable_set hfits.isNamed_timerCounter (by decide),
    isReadable_set hfits.isNamed_cooldownCounter (by decide), nofun⟩

/-- `tick` can be read. -/
theorem isReadable_tickCommands (hfits : FitsScripts config) :
    ∀ command ∈ tickCommands config.pack, command.IsReadable := by
  simp only [tickCommands, List.forall_mem_cons]
  exact ⟨⟨hfits.isNamed_timerCounter, by decide⟩,
    ⟨hfits.isNamed_timerCounter, by decide, lineFeed_notMem_written hfits.isReadable_callCommand⟩,
    ⟨hfits.isNamed_timerCounter, hfits.period_le,
      lineFeed_notMem_written (isReadable_set hfits.isNamed_cooldownCounter (by decide))⟩,
    ⟨hfits.isNamed_timerCounter, hfits.period_le,
      lineFeed_notMem_written (isReadable_set hfits.isNamed_timerCounter (by decide))⟩, nofun⟩

/-- The comment at the beginning of the dispatcher can be read. -/
theorem isReadable_commentCommands (hfits : FitsScripts config) :
    ∀ command ∈ commentCommands config, command.IsReadable := by
  have hnames : '\n' ∉ (String.intercalate ", " (config.groups.map Group.name)).toList :=
    lineFeed_notMem_intercalate (by decide) (List.forall_mem_map.mpr hfits.lineFeed_notMem_groups)
  have hsummary : '\n' ∉ (toString config.groups.length ++ " groups: " ++
      String.intercalate ", " (config.groups.map Group.name)).toList := by
    rw [String.toList_append, String.toList_append, List.mem_append, List.mem_append, not_or, not_or]
    exact ⟨⟨(isOneWord_toString _).2, by decide⟩, hnames⟩
  exact List.forall_mem_cons.mpr ⟨isReadable_comment (by decide),
    List.forall_mem_singleton.mpr (isReadable_comment hsummary)⟩

/-- The commands of the effects can be read. -/
theorem isReadable_effectCommands (hfits : FitsScripts config) :
    ∀ command ∈ effectCommands config, command.IsReadable := by
  rw [effectCommands, List.forall_mem_append, List.forall_mem_map]
  constructor
  · intro effect heffect
    exact ⟨hfits.isNamed_cooldownCounter, by decide, hfits.lineFeed_notMem_effects effect heffect⟩
  · split
    · nofun
    · exact List.forall_mem_singleton.mpr (isReadable_set hfits.isNamed_cooldownCounter (by decide))

/-- The header of the dispatcher can be read. -/
theorem isReadable_header (hfits : FitsScripts config) :
    ∀ command ∈ commentCommands config ++ effectCommands config, command.IsReadable :=
  List.forall_mem_append.mpr ⟨hfits.isReadable_commentCommands, hfits.isReadable_effectCommands⟩

end FitsScripts

/-! ### A run of the dispatcher -/

section Dispatching

variable (game : Game config.pack) {course : Course} {timer cooldown : Int32} {events : List Event}

/-- The event that an item entity runs the dispatcher. -/
def dispatched (options : PackOptions) : Event :=
  .called (resourceLocation options.packNamespace dispatchArtifactName)

/-- The event that `sort` runs. -/
def sorted (options : PackOptions) : Event :=
  .called (resourceLocation options.packNamespace sortArtifactName)

/-- The cooldown is down if its score is zero. -/
theorem accepts_zero (value : Int32) : (Range.exactly 0).accepts value = decide (value = 0) :=
  decide_eq_decide.mpr (Int32.toInt_inj (y := 0))

/-- The cooldown after the dispatcher. Without effects it does not change. -/
def cooldownAfter (config : Configuration) (cooldown : Int32) : Int32 :=
  if config.effects.isEmpty then cooldown else 1

/-- While the cooldown is down, effects are performed. -/
theorem standsAt_effects_down (hcourse : StandsAt config.pack course timer 0 events)
    (effects : List String) :
    StandsAt config.pack
      (runAll game.surroundings
        (effects.map (.guarded (cooldownCounter config.pack) (.exactly 0))) course)
      timer 0 (events ++ effects.map .performed) := by
  induction effects generalizing course events with
  | nil => simpa [runAll] using hcourse
  | cons effect effects ih =>
    have hlet : (Command.guarded (cooldownCounter config.pack) (.exactly 0) effect).run
        game.surroundings course = game.perform effect course := by
      rw [hcourse.run_guardedCooldown, accepts_zero, if_pos (by decide)]
      rfl
    have heffects := ih (hcourse.perform game effect)
    rwa [List.map_cons, runAll_cons, hlet, List.map_cons, List.append_cons]

/-- While the cooldown is up, effects are kept back. -/
theorem runAll_effects_up (hcourse : StandsAt config.pack course timer cooldown events)
    (hup : cooldown ≠ 0) (effects : List String) :
    runAll game.surroundings
      (effects.map (.guarded (cooldownCounter config.pack) (.exactly 0))) course = course := by
  induction effects with
  | nil => rfl
  | cons effect effects ih =>
    have hkeep : (Command.guarded (cooldownCounter config.pack) (.exactly 0) effect).run
        game.surroundings course = course := by
      rw [hcourse.run_guardedCooldown, accepts_zero, if_neg (by simpa using hup)]
    rw [List.map_cons, runAll_cons, hkeep, ih]

/-- The dispatcher performs the effects if the cooldown is down, and sets it if there are any. -/
theorem standsAt_dispatch (hfits : FitsScripts config)
    (hcourse : StandsAt config.pack course timer cooldown events) :
    StandsAt config.pack (dispatch config game course) timer (cooldownAfter config cooldown)
      (events ++ [dispatched config.pack] ++
        if cooldown = 0 then config.effects.map .performed else []) := by
  have hcomment : StandsAt config.pack
      (runAll game.surroundings (commentCommands config) (course.note (dispatched config.pack)))
      timer cooldown (events ++ [dispatched config.pack]) :=
    ((hcourse.note _).other game _).other game _
  have heffects : StandsAt config.pack
      (runAll game.surroundings
        (config.effects.map (.guarded (cooldownCounter config.pack) (.exactly 0)))
        (runAll game.surroundings (commentCommands config) (course.note (dispatched config.pack))))
      timer cooldown
      (events ++ [dispatched config.pack] ++
        if cooldown = 0 then config.effects.map .performed else []) := by
    by_cases hdown : cooldown = 0
    · rw [if_pos hdown]
      subst hdown
      exact standsAt_effects_down game hcomment config.effects
    · rw [if_neg hdown, runAll_effects_up game hcomment hdown, List.append_nil]
      exact hcomment
  rw [dispatch, dispatcherHeader_eq_script, runScript_script hfits.isReadable_header, runAll_append,
    effectCommands, runAll_append]
  refine StandsAt.other ?_ game ""
  unfold cooldownAfter
  split
  · exact heffects
  · exact heffects.setCooldown 1

/-- What happens in a run of `sort`: the first item entity performs the effects. -/
def sortEvents (config : Configuration) : Nat → List Event
  | 0 => []
  | visits + 1 =>
    dispatched config.pack ::
      (config.effects.map .performed ++ List.replicate visits (dispatched config.pack))

/-- The effects are not to be performed again: the cooldown is up, or there are no effects. -/
def IsSettled (config : Configuration) (cooldown : Int32) : Prop :=
  cooldown ≠ 0 ∨ config.effects = []

/-- After the dispatcher the effects are not to be performed again. -/
theorem isSettled_cooldownAfter (config : Configuration) (cooldown : Int32) :
    IsSettled config (cooldownAfter config cooldown) := by
  unfold IsSettled cooldownAfter
  split
  next hempty => exact Or.inr (List.isEmpty_iff.mp hempty)
  next => exact Or.inl (by decide)

/-- Once the effects are not to be performed again, the other item entities only run the dispatcher. -/
theorem standsAt_dispatches (hfits : FitsScripts config)
    (hcourse : StandsAt config.pack course timer cooldown events)
    (hsettled : IsSettled config cooldown) (visits : Nat) :
    ∃ after, StandsAt config.pack ((dispatch config game)^[visits] course) timer after
      (events ++ List.replicate visits (dispatched config.pack)) := by
  induction visits generalizing course cooldown events with
  | zero => exact ⟨cooldown, by simpa using hcourse⟩
  | succ visits ih =>
    have hnone : (if cooldown = 0 then config.effects.map Event.performed else []) = [] := by
      rcases hsettled with hup | hempty
      · exact if_neg hup
      · simp [hempty]
    have hfirst := standsAt_dispatch game hfits hcourse
    rw [hnone, List.append_nil] at hfirst
    obtain ⟨after, hafter⟩ := ih hfirst (isSettled_cooldownAfter config cooldown)
    refine ⟨after, ?_⟩
    rwa [Function.iterate_succ_apply, List.replicate_succ, List.append_cons]

/-- With the cooldown down, the first item entity that `sort` meets performs the effects, and no other
does. -/
theorem standsAt_sort (hfits : FitsScripts config)
    (hcourse : StandsAt config.pack course timer 0 events) :
    ∃ after, StandsAt config.pack (sort config game course) timer after
      (events ++ sortEvents config game.visits) := by
  unfold sort
  cases game.visits with
  | zero => exact ⟨0, by simpa [sortEvents] using hcourse⟩
  | succ visits =>
    have hfirst := standsAt_dispatch game hfits hcourse
    rw [if_pos rfl] at hfirst
    obtain ⟨after, hafter⟩ :=
      standsAt_dispatches game hfits hfirst (isSettled_cooldownAfter config 0) visits
    refine ⟨after, ?_⟩
    rw [Function.iterate_succ_apply, sortEvents]
    simpa using hafter

end Dispatching

/-! ### A tick -/

/-- Between two ticks the timer says how old the cycle is, and in a new cycle the cooldown is down. -/
structure InCycle (options : PackOptions) (board : Board) (age : Nat) : Prop where
  timer_eq : board.score (timerCounter options) = some (Int32.ofNat age)
  cooldown_eq : ∃ cooldown, board.score (cooldownCounter options) = some cooldown ∧
    (age = 0 → cooldown = 0)

/-- What happens in a tick: a new cycle starts with a run of `sort`. -/
def tickEvents (config : Configuration) (visits age : Nat) : List Event :=
  if age = 0 then sorted config.pack :: sortEvents config visits else []

section Ticking

variable {course : Course} {cooldown : Int32} {events : List Event} {age : Nat}

/-- The second command of `tick` runs `sort` if the tick that was counted is the first of its cycle. -/
theorem standsAt_callSort (hfits : FitsScripts config) (game : Game config.pack)
    (hage : age + 1 ≤ numberLimit) (hnew : age = 0 → cooldown = 0)
    (hcourse : StandsAt config.pack course (Int32.ofNat (age + 1)) cooldown []) :
    ∃ after, StandsAt config.pack
      ((Command.guarded (timerCounter config.pack) (.exactly 1)
        (callCommand config.pack sortArtifactName).written).run (tickSurroundings config game) course)
      (Int32.ofNat (age + 1)) after (tickEvents config game.visits age) := by
  rw [hcourse.run_guardedTimer, accepts_exactly hage]
  unfold tickEvents
  by_cases hfirst : age = 0
  · have hcall : (tickSurroundings config game).behind
        (callCommand config.pack sortArtifactName).written course =
          sort config game (course.note (sorted config.pack)) := by
      change (Command.ofLine _).run _ course = _
      rw [ofLine_written hfits.isReadable_callCommand]
      change callSort config game (resourceLocation config.pack.packNamespace sortArtifactName)
        (course.note (sorted config.pack)) = _
      rw [callSort, if_pos rfl]
    rw [if_pos (by simp [hfirst]), if_pos hfirst, hcall]
    rw [hnew hfirst] at hcourse
    exact standsAt_sort game hfits (hcourse.note _)
  · rw [if_neg (by simp [hfirst]), if_neg hfirst]
    exact ⟨cooldown, hcourse⟩

/-- At the end of a cycle a counter is set to zero. -/
theorem run_reset (game : Game config.pack) (hage : age ≤ numberLimit)
    (hcourse : StandsAt config.pack course (Int32.ofNat age) cooldown events) {counter : Counter}
    (hcounter : counter.IsNamed) :
    (Command.guarded (timerCounter config.pack) (.atLeast (period config.pack))
      (Command.set counter 0).written).run (tickSurroundings config game) course =
      if period config.pack ≤ age then { course with board := course.board.set counter 0 }
      else course := by
  have hset : (tickSurroundings config game).behind (Command.set counter 0).written course =
      { course with board := course.board.set counter 0 } := by
    change (Command.ofLine _).run _ course = _
    rw [ofLine_written (FitsScripts.isReadable_set hcounter (by decide))]
    rfl
  rw [hcourse.run_guardedTimer, accepts_atLeast hage, hset]
  simp only [decide_eq_true_eq]

/-- A tick makes a cycle older or ends it, and a new cycle starts with a run of `sort`. -/
theorem inCycle_tick (hfits : FitsScripts config) (game : Game config.pack) {board : Board}
    (hage : age < period config.pack) (hboard : InCycle config.pack board age) :
    InCycle config.pack (tick config game board).board ((age + 1) % period config.pack) ∧
      (tick config game board).events = tickEvents config game.visits age := by
  obtain ⟨cooldown, hcooldown, hnew⟩ := hboard.cooldown_eq
  have hlimit : age + 1 ≤ numberLimit := (Nat.succ_le_of_lt hage).trans hfits.period_le
  have hstart : StandsAt config.pack { board } (Int32.ofNat age) cooldown [] :=
    ⟨hboard.timer_eq, hcooldown, rfl⟩
  have hcounted := hstart.addTimer (tickSurroundings config game) 1
  rw [← Int32.ofNat_add] at hcounted
  obtain ⟨after, hsorted⟩ := standsAt_callSort hfits game hlimit hnew hcounted
  have htick : tick config game board = game.other ""
      (runAll (tickSurroundings config game) (tickCommands config.pack) { board }) := by
    rw [tick, tickScript_eq_script, runScript_script hfits.isReadable_tickCommands]
    rfl
  rw [htick, tickCommands, runAll_cons, runAll_cons, runAll_cons, runAll_cons,
    run_reset game hlimit hsorted hfits.isNamed_cooldownCounter]
  by_cases hend : period config.pack ≤ age + 1
  · have hreset := hsorted.setCooldown 0
    have hage : (age + 1) % period config.pack = 0 := by
      rw [Nat.le_antisymm hend hage, Nat.mod_self]
    rw [if_pos hend, run_reset game hlimit hreset hfits.isNamed_timerCounter, if_pos hend, hage]
    have hdone := (hreset.setTimer 0).other game ""
    exact ⟨⟨hdone.timer_eq, 0, hdone.cooldown_eq, fun _ ↦ rfl⟩, hdone.events_eq⟩
  · rw [if_neg hend, run_reset game hlimit hsorted hfits.isNamed_timerCounter, if_neg hend,
      Nat.mod_eq_of_lt (Nat.lt_of_not_le hend)]
    have hdone := hsorted.other game ""
    exact ⟨⟨hdone.timer_eq, after, hdone.cooldown_eq, fun hzero ↦ absurd hzero (by omega)⟩,
      hdone.events_eq⟩

/-- After `init` a cycle is new, whatever the scoreboard was before. -/
theorem inCycle_init (hfits : FitsScripts config) (game : Game config.pack) (board : Board) :
    InCycle config.pack (init config game board) 0 := by
  have hinit : init config game board = game.meddle ""
      (runAll game.surroundings (initCommands config.pack) { board }) := by
    rw [init, initScript_eq_script, runScript_script hfits.isReadable_initCommands]
    rfl
  let objectives := (board.addObjective (timerObjective config.pack.packNamespace)).addObjective
    (cooldownObjective config.pack.packNamespace)
  have hrun : runAll game.surroundings (initCommands config.pack) { board } =
      { board := (objectives.set (timerCounter config.pack) 0).set (cooldownCounter config.pack) 0 } :=
    rfl
  have htimer : objectives.Has (timerCounter config.pack).objective :=
    Board.has_addObjective (Board.has_addObjective_self _ _) _
  have hcooldown : objectives.Has (cooldownCounter config.pack).objective :=
    Board.has_addObjective_self _ _
  rw [hinit, hrun]
  constructor
  · rw [game.timer_meddle, Board.score_set_of_ne (timerCounter_ne_cooldownCounter _),
      Board.score_set_self htimer]
    rfl
  · refine ⟨0, ?_, fun _ ↦ rfl⟩
    rw [game.cooldown_meddle, Board.score_set_self (Board.has_set hcooldown _ _)]

end Ticking

/-! ### A run of the pack -/

section Cycles

variable (games : Nat → Game config.pack) (start : Board)

/-- A cycle has a tick. -/
theorem period_pos (options : PackOptions) : 0 < period options :=
  Nat.lt_of_lt_of_le Nat.one_pos (le_max_right _ _)

/-- After some ticks, the last cycle is as old as the ticks behind the full cycles. -/
theorem inCycle_boardAfter (hfits : FitsScripts config) (ticks : Nat) :
    InCycle config.pack (boardAfter config games start ticks) (ticks % period config.pack) := by
  induction ticks with
  | zero =>
    rw [Nat.zero_mod]
    exact inCycle_init hfits (games 0) start
  | succ ticks ih =>
    have hage := Nat.mod_lt ticks (period_pos config.pack)
    rw [← Nat.mod_add_mod]
    exact (inCycle_tick hfits (games (ticks + 1)) hage ih).1

/-- What happens in the tick that follows on some ticks. -/
theorem eventsAfter_eq (hfits : FitsScripts config) (ticks : Nat) :
    eventsAfter config games start ticks =
      tickEvents config (games (ticks + 1)).visits (ticks % period config.pack) :=
  (inCycle_tick hfits (games (ticks + 1)) (Nat.mod_lt ticks (period_pos config.pack))
    (inCycle_boardAfter games start hfits ticks)).2

/-- What happens in a cycle. -/
def cycleEvents (config : Configuration) (games : Nat → Game config.pack) (start : Board)
    (cycle : Nat) : List Event :=
  (List.range (period config.pack)).flatMap fun age ↦
    eventsAfter config games start (cycle * period config.pack + age)

/-- In a cycle, `sort` runs in the first tick and nothing happens in the others. -/
theorem cycleEvents_eq (hfits : FitsScripts config) (cycle : Nat) :
    cycleEvents config games start cycle =
      sorted config.pack :: sortEvents config (games (cycle * period config.pack + 1)).visits := by
  obtain ⟨others, hothers⟩ := Nat.exists_eq_add_of_le' (period_pos config.pack)
  have hevents {age : Nat} (hage : age < period config.pack) :
      eventsAfter config games start (cycle * period config.pack + age) =
        tickEvents config (games (cycle * period config.pack + age + 1)).visits age := by
    rw [eventsAfter_eq games start hfits, Nat.mul_comm, Nat.mul_add_mod, Nat.mod_eq_of_lt hage]
  have hrange : List.range (period config.pack) = 0 :: (List.range others).map (· + 1) := by
    rw [hothers, List.range_succ_eq_map]
  have hlater : ((List.range others).map (· + 1)).flatMap (fun age ↦
      eventsAfter config games start (cycle * period config.pack + age)) = [] := by
    rw [List.flatMap_eq_nil_iff, List.forall_mem_map]
    intro age hage
    rw [hevents (by rw [hothers]; exact Nat.succ_lt_succ (List.mem_range.mp hage))]
    exact if_neg (Nat.succ_ne_zero age)
  unfold cycleEvents
  rw [hrange, List.flatMap_cons, hlater, List.append_nil, hevents (period_pos config.pack)]
  rfl

/-- The effects are performed if an item entity runs the dispatcher. -/
theorem performed_sortEvents (visits : Nat) :
    (sortEvents config visits).filterMap Event.performed? =
      if visits = 0 then [] else config.effects := by
  cases visits with
  | zero => rfl
  | succ visits =>
    have heffects : (config.effects.map Event.performed).filterMap Event.performed? =
        config.effects := by
      rw [List.filterMap_map]
      exact List.filterMap_some
    have hothers : (List.replicate visits (dispatched config.pack)).filterMap Event.performed? = [] :=
      List.filterMap_eq_nil_iff.mpr fun event hevent ↦ by
        rw [List.eq_of_mem_replicate hevent]
        rfl
    rw [if_neg (Nat.succ_ne_zero visits), sortEvents,
      List.filterMap_cons_none rfl, List.filterMap_append, heffects, hothers, List.append_nil]

/-- The runs of `sort` and of the dispatcher are two events. -/
theorem sorted_ne_dispatched (options : PackOptions) : sorted options ≠ dispatched options := by
  unfold sorted dispatched resourceLocation
  rw [Ne, Event.called.injEq, String.append_right_inj]
  decide

/-- Every item entity that a run of `sort` meets runs the dispatcher once. -/
theorem count_dispatched_sortEvents (visits : Nat) :
    (sortEvents config visits).count (dispatched config.pack) = visits := by
  cases visits with
  | zero => rfl
  | succ visits =>
    have heffects : (config.effects.map Event.performed).count (dispatched config.pack) = 0 :=
      List.count_eq_zero.mpr fun hmem ↦ by
        obtain ⟨effect, -, heffect⟩ := List.mem_map.mp hmem
        cases heffect
    rw [sortEvents, List.count_cons_self, List.count_append, heffects, List.count_replicate_self,
      Nat.zero_add]

/-- A run of `sort` does not run `sort`. -/
theorem count_sorted_sortEvents (visits : Nat) :
    (sortEvents config visits).count (sorted config.pack) = 0 := by
  refine List.count_eq_zero.mpr fun hmem ↦ ?_
  cases visits with
  | zero => cases hmem
  | succ visits =>
    rw [sortEvents, List.mem_cons, List.mem_append] at hmem
    rcases hmem with hsame | heffect | hother
    · exact sorted_ne_dispatched config.pack hsame
    · obtain ⟨effect, -, heffect⟩ := List.mem_map.mp heffect
      cases heffect
    · exact sorted_ne_dispatched config.pack (List.eq_of_mem_replicate hother)

/-- How a pack sorts: `sort` runs in the first tick of every cycle and in no other, the timer stays below
the length of a cycle, and in a cycle the effects are performed once and in order if the dispatcher runs,
and not at all otherwise. The dispatcher runs as often as the run of `sort` meets item entities. -/
structure SortsInCycles (config : Configuration) (games : Nat → Game config.pack) (start : Board) :
    Prop where
  count_sorted : ∀ ticks, (eventsAfter config games start ticks).count (sorted config.pack) =
    if ticks % period config.pack = 0 then 1 else 0
  timer_lt : ∀ ticks, ∃ timer,
    (boardAfter config games start (ticks + 1)).score (timerCounter config.pack) = some timer ∧
      0 ≤ timer.toInt ∧ timer.toInt < period config.pack
  performed_eq : ∀ cycle, (cycleEvents config games start cycle).filterMap Event.performed? =
    if dispatched config.pack ∈ cycleEvents config games start cycle then config.effects else []
  count_dispatched : ∀ cycle,
    (cycleEvents config games start cycle).count (dispatched config.pack) =
      (games (cycle * period config.pack + 1)).visits

/-- A pack whose texts fit into the scripts sorts in cycles, whatever the scoreboard was before and
whatever the game does. -/
theorem sorts_in_cycles (hfits : FitsScripts config) : SortsInCycles config games start where
  count_sorted ticks := by
    rw [eventsAfter_eq games start hfits, tickEvents]
    split
    · rw [List.count_cons_self, count_sorted_sortEvents]
    · rfl
  timer_lt ticks := by
    have hage := Nat.mod_lt (ticks + 1) (period_pos config.pack)
    have hvalue := toInt_ofNat_of_le (hage.le.trans hfits.period_le)
    refine ⟨_, (inCycle_boardAfter games start hfits (ticks + 1)).timer_eq, ?_, ?_⟩
    · rw [hvalue]
      exact Int.natCast_nonneg _
    · rw [hvalue]
      exact Int.ofNat_lt.mpr hage
  performed_eq cycle := by
    have hruns : dispatched config.pack ∈ cycleEvents config games start cycle ↔
        (games (cycle * period config.pack + 1)).visits ≠ 0 := by
      rw [cycleEvents_eq games start hfits, List.mem_cons,
        or_iff_right (sorted_ne_dispatched config.pack).symm, ← List.count_pos_iff,
        count_dispatched_sortEvents, Nat.pos_iff_ne_zero]
    simp only [hruns, ite_not]
    rw [cycleEvents_eq games start hfits, List.filterMap_cons_none rfl, performed_sortEvents]
  count_dispatched cycle := by
    rw [cycleEvents_eq games start hfits, List.count_cons_of_ne (sorted_ne_dispatched config.pack),
      count_dispatched_sortEvents]

end Cycles

/-- A configuration with two effects and a cycle of three ticks. -/
def chimingShelf : Configuration where
  groups := [{ name := "Shelf" }]
  effects := ["say sorted", "playsound block.bell.use block @a"]
  pack := { interval := 3 }

/-- Two item entities lie on the sorter, and nothing else happens. -/
def twoVisitors : Game chimingShelf.pack where
  visits := 2
  meddle := fun _ course ↦ course.board
  timer_meddle := fun _ _ ↦ rfl
  cooldown_meddle := fun _ _ ↦ rfl

/-- In every cycle the first of the two item entities performs both effects. -/
theorem sorts_in_cycles_chimingShelf :
    FitsScripts chimingShelf ∧
      SortsInCycles chimingShelf (fun _ ↦ twoVisitors) { scores := fun _ ↦ none } ∧
      ∀ cycle, cycleEvents chimingShelf (fun _ ↦ twoVisitors) { scores := fun _ ↦ none } cycle =
        [.called "sorter:sort", .called "sorter:dispatch", .performed "say sorted",
          .performed "playsound block.bell.use block @a", .called "sorter:dispatch"] := by
  have hfits : FitsScripts chimingShelf :=
    ⟨by decide, by decide, by decide, by decide⟩
  refine ⟨hfits, sorts_in_cycles _ _ hfits, fun cycle ↦ ?_⟩
  rw [cycleEvents_eq _ _ hfits]
  rfl

end FrameSorter
