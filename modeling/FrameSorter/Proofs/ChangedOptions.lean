import FrameSorter.Proofs.Diagnosis
import FrameSorter.Proofs.FunctionNames

/-!
# What a change of the options changes

Which groups and items are emitted is a matter of the declared groups alone, so configurations with equal
groups compile to the same outline: the same errors, warnings and counts, and functions of the same names
and kinds (`Compilation.HasOutlineOf`). The functions of two such configurations correspond one by one
(`forall₂_artifacts`), and a setting reaches only the functions whose texts name it: the effects the
dispatcher, the names in frames the functions of one kind each, the last resort the functions of the
groups without a fallback, and most options of the pack none (`compile_changed_options`).
-/

set_option autoImplicit false
set_option relaxedAutoImplicit false

namespace FrameSorter

/-! ### Compilations that differ in some texts -/

/-- A compilation reports and counts the same as another one, and has functions of the same names and
kinds in the same order. -/
structure Compilation.HasOutlineOf (first second : Compilation) : Prop where
  errors : first.errors = second.errors
  warnings : first.warnings = second.warnings
  stats : first.stats = second.stats
  functions :
    first.artifacts.map (fun function ↦ (function.name, function.kind)) =
      second.artifacts.map fun function ↦ (function.name, function.kind)

/-- Two functions have one name and one kind, and one text unless they are of the changed kind. -/
structure Artifact.DiffersOnlyIn (changed : ArtifactKind) (first second : Artifact) : Prop where
  name : first.name = second.name
  kind : first.kind = second.kind
  content : first.kind ≠ changed → first.content = second.content

/-- The functions of two compilations correspond one by one, and only texts of functions of the changed
kind differ. -/
def Compilation.DiffersOnlyIn (changed : ArtifactKind) (first second : Compilation) : Prop :=
  List.Forall₂ (Artifact.DiffersOnlyIn changed) first.artifacts second.artifacts

theorem Artifact.DiffersOnlyIn.of_eq (changed : ArtifactKind) {first second : Artifact}
    (hsame : first = second) : first.DiffersOnlyIn changed second := by
  subst hsame
  exact ⟨rfl, rfl, fun _ ↦ rfl⟩

/-- Functions of the changed kind may have any texts. -/
theorem Artifact.DiffersOnlyIn.of_kind {changed : ArtifactKind} {first second : Artifact}
    (hname : first.name = second.name) (hfirst : first.kind = changed) (hsecond : second.kind = changed) :
    first.DiffersOnlyIn changed second :=
  ⟨hname, hfirst.trans hsecond.symm, fun hkind ↦ absurd hfirst hkind⟩

/-! ### Configurations with equal groups -/

section EqualGroups

variable {config other : Configuration} {R : Artifact → Artifact → Prop}

/-- What is planned for the same groups corresponds function by function. -/
theorem forall₂_plannedRoutines
    (hgroup : ∀ group, R (other.groupRoutine group) (config.groupRoutine group))
    (hitem : ∀ owner item, R (other.itemRoutine owner item) (config.itemRoutine owner item))
    (groups : List Group) :
    List.Forall₂ R (other.plannedRoutines groups) (config.plannedRoutines groups) := by
  -- What is planned for a group depends on the groups before it, so the list grows at its end.
  induction groups using List.reverseRecOn with
  | nil => exact .nil
  | append_singleton groups group ih =>
    rw [Configuration.plannedRoutines_concat, Configuration.plannedRoutines_concat]
    refine List.rel_append ih ?_
    split
    · refine .cons (hgroup group) ?_
      rw [List.forall₂_map_left_iff, List.forall₂_map_right_iff, List.forall₂_same]
      exact fun item _ ↦ hitem group item
    · exact .nil

/-- The functions of configurations with equal groups correspond one by one. -/
theorem forall₂_artifacts (hgroups : other.groups = config.groups)
    (hdispatcher : R (compile other).dispatcher (compile config).dispatcher)
    (hgroup : ∀ group, R (other.groupRoutine group) (config.groupRoutine group))
    (hitem : ∀ owner item, R (other.itemRoutine owner item) (config.itemRoutine owner item)) :
    List.Forall₂ R (compile other).artifacts (compile config).artifacts := by
  refine .cons hdispatcher ?_
  rw [routines_compile, routines_compile, hgroups]
  exact forall₂_plannedRoutines hgroup hitem config.groups

/-- Configurations with equal groups compile to the same outline, whatever their options are. -/
theorem hasOutlineOf_of_groups_eq (hgroups : other.groups = config.groups) :
    (compile other).HasOutlineOf (compile config) where
  errors := by
    refine eq_errors_of_forall₂ ?_
    rw [← hgroups]
    exact (ledgerReads_ofGroups other other.groups).errors
  warnings := by rw [warnings_compile, warnings_compile, hgroups]
  stats := by rw [stats_compile, stats_compile, hgroups]
  functions := by
    rw [← List.forall₂_eq_eq_eq, List.forall₂_map_left_iff, List.forall₂_map_right_iff]
    refine forall₂_artifacts hgroups ?_ (fun _ ↦ rfl) fun _ _ ↦ rfl
    rw [dispatcher_compile, dispatcher_compile]

end EqualGroups

/-! ### Changes of single settings -/

variable (config : Configuration)

/-- The effects stand in the dispatcher only. -/
theorem differsOnlyIn_effects (effects : List String) :
    (compile { config with effects }).DiffersOnlyIn .dispatcher (compile config) := by
  refine forall₂_artifacts rfl ?_ ?_ ?_
  · rw [dispatcher_compile, dispatcher_compile]
    exact .of_kind rfl rfl rfl
  · exact fun group ↦ .of_eq .dispatcher rfl
  · exact fun owner item ↦ .of_eq .dispatcher rfl

/-- The name in the frames of the groups and the last resort stand in functions of groups only. -/
theorem differsOnlyIn_groupSettings (name action : Option String) :
    (compile { config with groupNameInFrame := name, finalFallback := action }).DiffersOnlyIn .group
      (compile config) := by
  refine forall₂_artifacts rfl (.of_eq .group ?_) ?_ ?_
  · rw [dispatcher_compile, dispatcher_compile]
    rfl
  · exact fun group ↦ .of_kind rfl rfl rfl
  · exact fun owner item ↦ .of_eq .group rfl

/-- The name in the frames of the items stands in functions of items only. -/
theorem differsOnlyIn_itemNameInFrame (name : Option String) :
    (compile { config with itemNameInFrame := name }).DiffersOnlyIn .item (compile config) := by
  refine forall₂_artifacts rfl (.of_eq .item ?_) ?_ ?_
  · rw [dispatcher_compile, dispatcher_compile]
    rfl
  · exact fun group ↦ .of_eq .item rfl
  · exact fun owner item ↦ .of_kind rfl rfl rfl

/-- The description, the format, the markers and the interval of the pack stand in no compiled
function. -/
theorem artifacts_compile_pack (description markerTop markerBottom : String)
    (packFormat interval : UInt32) :
    (compile { config with pack := { config.pack with
      description, packFormat, markerTop, markerBottom, interval } }).artifacts =
        (compile config).artifacts := by
  rw [← List.forall₂_eq_eq_eq]
  refine forall₂_artifacts rfl ?_ (fun _ ↦ rfl) fun _ _ ↦ rfl
  rw [dispatcher_compile, dispatcher_compile]
  rfl

/-- The function of an emitted group is found by its name. -/
theorem artifact?_groupArtifactName {group : Group} (hgroup : group ∈ emittedGroups config.groups) :
    (compile config).artifact? (groupArtifactName (groupId group.name)) =
      some (config.groupRoutine group) := by
  have hroutine := (group_routine_iff.mpr ⟨group, hgroup, rfl⟩).1
  have hnames := nodup_names_functions config
  rw [Pack.functions, List.map_append] at hnames
  exact find?_eq_some_of_nodup_map (List.nodup_append.mp hnames).1 (List.mem_cons_of_mem _ hroutine)

/-- The last resort does not stand in the function of a group that falls back to a named group. -/
theorem groupRoutine_finalFallback (action : Option String) {group : Group}
    (hfallback : group.fallbackGroup ≠ none) :
    { config with finalFallback := action }.groupRoutine group = config.groupRoutine group := by
  obtain ⟨target, htarget⟩ := Option.ne_none_iff_exists'.mp hfallback
  rw [Configuration.groupRoutine, Configuration.groupRoutine,
    Configuration.fallbackCommand_of_some _ htarget, Configuration.fallbackCommand_of_some _ htarget]

/-- What can come of a change of the settings other than the groups. None of them changes the outline of
the compilation. The effects change the dispatcher only; the name in the frames of the groups and the
last resort change functions of groups only, and the last resort none of a group with a fallback; the
name in the frames of the items changes functions of items only; and the description, the format, the
markers and the interval change no compiled function. -/
theorem compile_changed_options :
    (∀ other : Configuration, other.groups = config.groups →
      (compile other).HasOutlineOf (compile config)) ∧
    (∀ effects, (compile { config with effects }).DiffersOnlyIn .dispatcher (compile config)) ∧
    (∀ name action,
      (compile { config with groupNameInFrame := name, finalFallback := action }).DiffersOnlyIn .group
        (compile config)) ∧
    (∀ action, ∀ group ∈ emittedGroups config.groups, group.fallbackGroup ≠ none →
      ∃ function,
        (compile config).artifact? (groupArtifactName (groupId group.name)) = some function ∧
        (compile { config with finalFallback := action }).artifact?
          (groupArtifactName (groupId group.name)) = some function) ∧
    (∀ name, (compile { config with itemNameInFrame := name }).DiffersOnlyIn .item (compile config)) ∧
    ∀ description packFormat markerTop markerBottom interval,
      (compile { config with pack := { config.pack with
        description, packFormat, markerTop, markerBottom, interval } }).artifacts =
          (compile config).artifacts := by
  refine ⟨fun other hgroups ↦ hasOutlineOf_of_groups_eq hgroups, differsOnlyIn_effects config,
    differsOnlyIn_groupSettings config, fun action group hgroup hfallback ↦ ?_,
    differsOnlyIn_itemNameInFrame config, fun description packFormat markerTop markerBottom interval ↦
      artifacts_compile_pack config description markerTop markerBottom packFormat interval⟩
  refine ⟨config.groupRoutine group, artifact?_groupArtifactName config hgroup, ?_⟩
  rw [← groupRoutine_finalFallback config action hfallback]
  exact artifact?_groupArtifactName { config with finalFallback := action } hgroup

/-- A shelf that falls back to another one. -/
def woodShelf : Group where
  name := "Woods"
  items := ["minecraft:oak_log"]
  itemFrame := some "minecraft:barrel"
  fallback := some "Ores"

/-- Two shelves with default settings. -/
def plainShelves : Configuration where
  groups :=
    [{ name := "Ores", items := ["minecraft:coal"], itemFrame := some "minecraft:chest" }, woodShelf]

/-- The same shelves with other settings. -/
def dressedShelves : Configuration where
  groups := plainShelves.groups
  effects := ["playsound minecraft:block.note_block.chime master @a"]
  finalFallback := some "kill @s"
  groupNameInFrame := some "Shelf"
  itemNameInFrame := some "Box"
  pack := { packNamespace := "stock", packFormat := 48, searchRadius := 8 }

/-- The settings keep the outline, and the last resort alone keeps the function of the second shelf. -/
theorem compile_changed_options_dressedShelves :
    dressedShelves.groups = plainShelves.groups ∧
      (compile dressedShelves).HasOutlineOf (compile plainShelves) ∧
      woodShelf ∈ emittedGroups plainShelves.groups ∧ woodShelf.fallbackGroup ≠ none ∧
      ∃ function, (compile plainShelves).artifact? "group_Woods" = some function ∧
        (compile { plainShelves with finalFallback := some "kill @s" }).artifact? "group_Woods" =
          some function := by
  obtain ⟨houtline, -, -, hfunction, -⟩ := compile_changed_options plainShelves
  have hemitted : woodShelf ∈ emittedGroups plainShelves.groups := by decide +kernel
  have hfallback : woodShelf.fallbackGroup ≠ none := by decide
  have hname : groupArtifactName (groupId woodShelf.name) = "group_Woods" := by decide
  refine ⟨rfl, houtline dressedShelves rfl, hemitted, hfallback, ?_⟩
  rw [← hname]
  exact hfunction (some "kill @s") woodShelf hemitted hfallback

end FrameSorter
