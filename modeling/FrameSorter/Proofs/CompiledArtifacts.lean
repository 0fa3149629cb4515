import FrameSorter.Proofs.LedgerReading

/-!
# The functions of a compiled configuration

`artifacts_compile_eq_planned` gives every function that a configuration compiles to, with its name,
its kind and its text, in terms of the declarations that stand: the dispatcher with one line for each
emitted item after its header, and the functions of the emitted groups, each followed by those of its
emitted items. The counts of the compilation are those of the emitted items and of the declared
groups. Hence the functions of groups and of items, by kind and by name (`group_routine_iff`,
`item_routine_iff`).
-/

set_option autoImplicit false
set_option relaxedAutoImplicit false

namespace FrameSorter

/-- The functions that are compiled are the planned ones. -/
theorem routines_compile (config : Configuration) :
    (compile config).routines = config.plannedRoutines config.groups :=
  (ledgerReads_ofGroups config config.groups).routines

/-- The dispatcher is its header and the planned dispatch lines. -/
theorem dispatcher_compile (config : Configuration) :
    (compile config).dispatcher =
      { name := "dispatch"
        kind := .dispatcher
        content :=
          dispatcherHeader config ++ String.join (config.plannedDispatchLines config.groups) } := by
  rw [← (ledgerReads_ofGroups config config.groups).dispatchLines]
  rfl

/-- Every emitted item and every declared group is counted. -/
theorem stats_compile (config : Configuration) :
    (compile config).stats =
      { totalItems := (emittedItems (itemsOf (emittedGroups config.groups))).length
        totalGroups := config.groups.length } := by
  rw [← (ledgerReads_ofGroups config config.groups).totalItems]
  rfl

/-- All functions of a compiled configuration, in order, and its counts. After the dispatcher come the
emitted groups in the order of their declaration, and each function of a group is followed by those of
the items of the group that are emitted after the items of the emitted groups before it. -/
theorem artifacts_compile_eq_planned (config : Configuration) :
    (compile config).artifacts =
        { name := "dispatch"
          kind := .dispatcher
          content :=
            dispatcherHeader config ++
              String.join ((emittedItems (itemsOf (emittedGroups config.groups))).map
                config.itemDispatchLine) } ::
          (withEarlier [] (emittedGroups config.groups)).flatMap (fun reading ↦
            config.groupRoutine reading.2 ::
              (emittedAmong (itemsOf reading.1) reading.2.items).map
                (config.itemRoutine reading.2)) ∧
      (compile config).stats =
        { totalItems := (emittedItems (itemsOf (emittedGroups config.groups))).length
          totalGroups := config.groups.length } := by
  refine ⟨?_, stats_compile config⟩
  rw [Compilation.artifacts, dispatcher_compile, routines_compile]
  rfl

/-! ### Functions of groups and of items -/

variable {config : Configuration}

/-- The functions of groups are those of the emitted groups. -/
theorem group_routine_iff {routine : Artifact} :
    routine ∈ (compile config).routines ∧ routine.kind = .group ↔
      ∃ group ∈ emittedGroups config.groups, config.groupRoutine group = routine := by
  rw [routines_compile, ← List.mem_map, ← config.filter_group_plannedRoutines, List.mem_filter,
    decide_eq_true_iff]

/-- The functions of groups, in order. -/
theorem artifactsOf_group_compile (config : Configuration) :
    (compile config).artifactsOf .group = (emittedGroups config.groups).map config.groupRoutine := by
  rw [← config.filter_group_plannedRoutines, ← routines_compile]
  rfl

/-- The functions of items are as many as the counted items. -/
theorem length_artifactsOf_item_compile (config : Configuration) :
    ((compile config).artifactsOf .item).length = (compile config).stats.totalItems := by
  have hnames := congrArg List.length (config.map_name_filter_item_plannedRoutines config.groups)
  rw [List.length_map, List.length_map, ← routines_compile] at hnames
  rw [stats_compile, ← hnames]
  rfl

/-- The functions of items have the names of the emitted items. -/
theorem item_routine_iff {name : String} :
    (∃ routine ∈ (compile config).routines, routine.kind = .item ∧ routine.name = name) ↔
      ∃ item ∈ emittedItems (itemsOf (emittedGroups config.groups)),
        itemArtifactName (itemName item) = name := by
  rw [routines_compile, ← List.mem_map, ← config.map_name_filter_item_plannedRoutines]
  simp only [List.mem_map, List.mem_filter, decide_eq_true_iff, and_assoc]

end FrameSorter
