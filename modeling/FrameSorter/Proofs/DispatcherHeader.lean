import FrameSorter.Proofs.LineFeeds

/-!
# Dispatch lines in the header of the dispatcher

The header of the dispatcher is a comment that lists the declared groups, one command for each effect
and one that ends the cooldown (`headerCommands`, `dispatcherHeader_eq_join`). None of them is meant to
be a dispatch line, and none holds one exactly if no group name, no effect and, where there are effects,
not the namespace has a line feed right before the beginning of a dispatch line
(`dispatchLinesOf_dispatcherHeader_eq_nil_iff`).
-/

set_option autoImplicit false
set_option relaxedAutoImplicit false

namespace FrameSorter

/-! ### Where a text breaks -/

/-- A text breaks into a dispatch line on one side of a character that has no place in the break. -/
theorem breaks_append_singleton_iff {before after : String} {mark : Char}
    (hmark : mark ∉ '\n' :: dispatchLinePrefix.toList) :
    BreaksIntoDispatchLine (before ++ String.singleton mark ++ after) ↔
      BreaksIntoDispatchLine before ∨ BreaksIntoDispatchLine after := by
  have htext : (before ++ String.singleton mark ++ after).toList =
      before.toList ++ mark :: after.toList := by
    simp
  unfold BreaksIntoDispatchLine
  rw [htext]
  exact infix_append_cons_iff hmark (List.cons_ne_nil _ _)

/-- A text breaks into a dispatch line behind what has no line feed. -/
theorem breaks_append_iff_of_notMem {before after : String} (hfeed : '\n' ∉ before.toList) :
    BreaksIntoDispatchLine (before ++ after) ↔ BreaksIntoDispatchLine after := by
  unfold BreaksIntoDispatchLine
  rw [String.toList_append]
  exact infix_append_iff_of_notMem hfeed

/-- What has no line feed does not break. -/
theorem not_breaks_of_notMem {text : String} (hfeed : '\n' ∉ text.toList) :
    ¬ BreaksIntoDispatchLine text := fun hbreaks ↦
  hfeed (hbreaks.subset List.mem_cons_self)

/-- A list of texts breaks into a dispatch line in one of them. -/
theorem breaks_intercalate_iff (texts : List String) :
    BreaksIntoDispatchLine (String.intercalate ", " texts) ↔
      ∃ text ∈ texts, BreaksIntoDispatchLine text := by
  induction texts with
  | nil =>
    have hnone : ¬ BreaksIntoDispatchLine "" := by decide
    simpa using hnone
  | cons text texts ih =>
    cases texts with
    | nil =>
      have hone : String.intercalate ", " [text] = text := by
        rw [← String.toList_inj]
        simp
      simp [hone]
    | cons next texts =>
      have hmore : String.intercalate ", " (text :: next :: texts) =
          text ++ String.singleton ',' ++ (" " ++ String.intercalate ", " (next :: texts)) := by
        rw [← String.toList_inj]
        simp
      rw [hmore, breaks_append_singleton_iff (by decide), breaks_append_iff_of_notMem (by decide), ih]
      simp

/-! ### The lines of the header -/

/-- The comment at the beginning of the dispatcher. -/
def headerComment (config : Configuration) : String :=
  "# Item sorter dispatcher\n# " ++ toString config.groups.length ++ " groups: " ++
    String.intercalate ", " (config.groups.map Group.name)

/-- The command that runs an effect while the cooldown is down. -/
def effectCommand (config : Configuration) (effect : String) : String :=
  "execute if score " ++ cooldownHolder ++ " " ++ cooldownObjective config.pack.packNamespace ++
    " matches 0 run " ++ effect

/-- The command that ends the cooldown. -/
def cooldownCommand (config : Configuration) : String :=
  "scoreboard players set " ++ cooldownHolder ++ " " ++
    cooldownObjective config.pack.packNamespace ++ " 1"

/-- The commands of the header. Without effects there is no cooldown to end. -/
def headerCommands (config : Configuration) : List String :=
  headerComment config :: (config.effects.map (effectCommand config) ++
    if config.effects.isEmpty then [] else [cooldownCommand config])

/-- The command that ends the cooldown, if there is one, as the header has it. -/
theorem join_cooldownCommand (config : Configuration) :
    String.join ((if config.effects.isEmpty then [] else [cooldownCommand config]).map (· ++ "\n")) =
      if config.effects.isEmpty then ""
      else "scoreboard players set " ++ cooldownHolder ++ " " ++
        cooldownObjective config.pack.packNamespace ++ " 1\n" := by
  split
  · rfl
  · have hend : (" 1\n" : String) = " 1" ++ "\n" := rfl
    unfold cooldownCommand
    rw [List.map_singleton, String.join_cons, String.join_nil, String.append_empty, hend,
      ← String.append_assoc]

/-- The header is its commands, each ended by a line feed. -/
theorem dispatcherHeader_eq_join (config : Configuration) :
    dispatcherHeader config = String.join ((headerCommands config).map (· ++ "\n")) := by
  rw [headerCommands, List.map_cons, String.join_cons, List.map_append, String.join_append,
    List.map_map, join_cooldownCommand, ← String.append_assoc]
  rfl

/-! ### Dispatch lines in the header -/

/-- The comment breaks into a dispatch line in the name of a group. -/
theorem breaks_headerComment_iff (config : Configuration) :
    BreaksIntoDispatchLine (headerComment config) ↔
      ∃ group ∈ config.groups, BreaksIntoDispatchLine group.name := by
  have hcomment : headerComment config =
      "# Item sorter dispatcher\n" ++ String.singleton '#' ++
        (" " ++ toString config.groups.length ++ " groups: " ++
          String.intercalate ", " (config.groups.map Group.name)) := by
    unfold headerComment
    rw [← String.toList_inj]
    simp
  have htitle : ¬ BreaksIntoDispatchLine "# Item sorter dispatcher\n" := by decide +kernel
  have hcount : '\n' ∉ (" " ++ toString config.groups.length ++ " groups: ").toList := by
    simp [lineFeed_notMem_toDigits]
  rw [hcomment, breaks_append_singleton_iff (by decide), breaks_append_iff_of_notMem hcount,
    breaks_intercalate_iff]
  simp [htitle]

/-- The command of an effect breaks into a dispatch line in the namespace or in the effect. -/
theorem breaks_effectCommand_iff (config : Configuration) (effect : String) :
    BreaksIntoDispatchLine (effectCommand config effect) ↔
      BreaksIntoDispatchLine config.pack.packNamespace ∨ BreaksIntoDispatchLine effect := by
  have hcommand : effectCommand config effect =
      "execute if score #cooldown " ++ (config.pack.packNamespace ++ String.singleton '_' ++
        ("cooldown matches 0 run " ++ effect)) := by
    unfold effectCommand
    rw [← String.toList_inj]
    simp [cooldownHolder, cooldownObjective]
  rw [hcommand, breaks_append_iff_of_notMem (by simp), breaks_append_singleton_iff (by decide),
    breaks_append_iff_of_notMem (by simp)]

/-- The command that ends the cooldown breaks into a dispatch line in the namespace. -/
theorem breaks_cooldownCommand_iff (config : Configuration) :
    BreaksIntoDispatchLine (cooldownCommand config) ↔
      BreaksIntoDispatchLine config.pack.packNamespace := by
  have hcommand : cooldownCommand config =
      "scoreboard players set #cooldown " ++ (config.pack.packNamespace ++ String.singleton '_' ++
        "cooldown 1") := by
    unfold cooldownCommand
    rw [← String.toList_inj]
    simp [cooldownHolder, cooldownObjective]
  have hend : ¬ BreaksIntoDispatchLine "cooldown 1" := not_breaks_of_notMem (by simp)
  rw [hcommand, breaks_append_iff_of_notMem (by simp), breaks_append_singleton_iff (by decide)]
  simp [hend]

/-- The dispatch lines of a dispatcher are those of its header and those of the lines behind it. -/
theorem dispatchLinesOf_dispatcher (config : Configuration) {lines : List String}
    (hlines : ∀ line ∈ lines, ∃ text, line = text ++ "\n") :
    dispatchLinesOf (dispatcherHeader config ++ String.join lines) =
      dispatchLinesOf (dispatcherHeader config) ++ lines.flatMap dispatchLinesOf := by
  have hcommands := forall_mem_map_lineFeed (headerCommands config)
  rw [dispatcherHeader_eq_join, ← String.join_append, dispatchLinesOf_join, List.flatMap_append,
    dispatchLinesOf_join hcommands]
  exact List.forall_mem_append.mpr ⟨hcommands, hlines⟩

/-- No command of the header begins like a dispatch line. -/
theorem not_prefix_headerCommands {config : Configuration} {command : String}
    (hcommand : command ∈ headerCommands config) :
    ¬ dispatchLinePrefix.toList <+: command.toList := by
  rw [headerCommands, List.mem_cons, List.mem_append] at hcommand
  rcases hcommand with rfl | heffect | hcooldown
  · unfold headerComment
    simp [dispatchLinePrefix]
  · obtain ⟨effect, -, rfl⟩ := List.mem_map.mp heffect
    unfold effectCommand
    simp [dispatchLinePrefix]
  · split at hcooldown
    · cases hcooldown
    · rw [List.mem_singleton.mp hcooldown]
      unfold cooldownCommand
      simp [dispatchLinePrefix]

/-- The header holds no dispatch line exactly if no group name and no effect breaks into one and, where
there are effects, the namespace does not. -/
theorem dispatchLinesOf_dispatcherHeader_eq_nil_iff (config : Configuration) :
    dispatchLinesOf (dispatcherHeader config) = [] ↔
      (∀ group ∈ config.groups, ¬ BreaksIntoDispatchLine group.name) ∧
        ∀ effect ∈ config.effects, ¬ BreaksIntoDispatchLine effect ∧
          ¬ BreaksIntoDispatchLine config.pack.packNamespace := by
  have hcommands : dispatchLinesOf (dispatcherHeader config) = [] ↔
      ∀ command ∈ headerCommands config, ¬ BreaksIntoDispatchLine command := by
    rw [dispatcherHeader_eq_join, dispatchLinesOf_join (forall_mem_map_lineFeed _),
      List.flatMap_eq_nil_iff, List.forall_mem_map]
    refine forall₂_congr fun command hcommand ↦ ?_
    rw [dispatchLinesOf_eq_nil_iff, and_iff_right (not_prefix_headerCommands hcommand)]
  rw [hcommands, headerCommands, List.forall_mem_cons, List.forall_mem_append, List.forall_mem_map,
    breaks_headerComment_iff, not_exists]
  simp only [breaks_effectCommand_iff, not_and, not_or]
  refine and_congr_right fun _ ↦ ⟨?_, ?_⟩
  · rintro ⟨heffects, -⟩ effect heffect
    exact (heffects effect heffect).symm
  · intro heffects
    refine ⟨fun effect heffect ↦ (heffects effect heffect).symm, fun command hcommand ↦ ?_⟩
    cases hlist : config.effects with
    | nil => simp [hlist] at hcommand
    | cons effect effects =>
      have hspace := (heffects effect (by simp [hlist])).2
      rw [hlist, if_neg (by simp), List.mem_singleton] at hcommand
      rwa [hcommand, breaks_cooldownCommand_iff]

end FrameSorter
