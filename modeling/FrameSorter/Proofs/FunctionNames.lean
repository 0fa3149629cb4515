import FrameSorter.Pack.Writing
import FrameSorter.Proofs.CompiledArtifacts
import FrameSorter.Proofs.Identifiers

/-!
# The names of the functions of a pack

A pack has four fixed functions, one function for each emitted group and one for each emitted item
(`names_functions_perm`). The beginning of a name tells these families apart (`nameFamily`), whatever
the configured texts are, so a key that agrees with the families tells all functions of a pack apart if
it tells the groups apart and the items apart (`nodup_map_names_iff`). The name itself is such a key:
no two functions of a pack have the same name, and a compiled function is found by its name
(`names_distinguish_functions`).
-/

set_option autoImplicit false
set_option relaxedAutoImplicit false

namespace FrameSorter

/-! ### The names -/

/-- The names of the functions that every pack has. -/
def fixedNames : List String :=
  [dispatchArtifactName, initArtifactName, tickArtifactName, sortArtifactName]

/-- The names of the functions of the emitted groups. -/
def Configuration.groupFunctionNames (config : Configuration) : List String :=
  ((emittedGroups config.groups).map (groupId ·.name)).map groupArtifactName

/-- The names of the functions of the emitted items. -/
def Configuration.itemFunctionNames (config : Configuration) : List String :=
  ((emittedItems (itemsOf (emittedGroups config.groups))).map itemName).map itemArtifactName

/-- The compiled functions are those of the emitted groups and those of the emitted items. -/
theorem names_routines_perm (config : Configuration) :
    ((compile config).routines.map Artifact.name).Perm
      (config.groupFunctionNames ++ config.itemFunctionNames) := by
  have hgroups : ((compile config).routines.filter (·.kind = .group)).map Artifact.name =
      config.groupFunctionNames := by
    rw [routines_compile, config.filter_group_plannedRoutines, List.map_map,
      Configuration.groupFunctionNames, List.map_map]
    rfl
  have hitems :
      ((compile config).routines.filter fun routine ↦ !decide (routine.kind = .group)).map
        Artifact.name = config.itemFunctionNames := by
    have hnames := config.map_name_filter_item_plannedRoutines config.groups
    rw [Configuration.itemFunctionNames, List.map_map, routines_compile]
    refine Eq.trans (congrArg _ (List.filter_congr fun routine hroutine ↦ ?_)) hnames
    rcases Configuration.of_mem_plannedRoutines hroutine with
      ⟨group, -, rfl⟩ | ⟨owner, -, item, -, rfl⟩
    · simp [Configuration.groupRoutine]
    · simp [Configuration.itemRoutine]
  rw [← hgroups, ← hitems, ← List.map_append]
  exact ((List.filter_append_perm _ _).map Artifact.name).symm

/-- The functions of a pack are the fixed ones, those of the emitted groups and those of the emitted
items. -/
theorem names_functions_perm (config : Configuration) :
    ((Pack.functions (compile config) config.pack).map Artifact.name).Perm
      (fixedNames ++ (config.groupFunctionNames ++ config.itemFunctionNames)) := by
  have hnames : (Pack.functions (compile config) config.pack).map Artifact.name =
      dispatchArtifactName :: ((compile config).routines.map Artifact.name ++
        [initArtifactName, tickArtifactName, sortArtifactName]) := by
    rw [Pack.functions, Compilation.artifacts, List.map_append, List.map_cons]
    rfl
  rw [hnames]
  exact (List.perm_append_comm.trans ((names_routines_perm config).append_left _)).cons _

/-! ### Families of names -/

/-- The beginning of a function's name. -/
def nameFamily (name : String) : List Char :=
  name.toList.take 4

/-- The beginnings of the names in a pack. -/
def nameFamilies : List (List Char) :=
  fixedNames.map nameFamily ++ [['g', 'r', 'o', 'u'], ['i', 't', 'e', 'm']]

@[simp] theorem nameFamily_groupArtifactName (id : String) :
    nameFamily (groupArtifactName id) = ['g', 'r', 'o', 'u'] := by
  simp [nameFamily, groupArtifactName]

@[simp] theorem nameFamily_itemArtifactName (name : String) :
    nameFamily (itemArtifactName name) = ['i', 't', 'e', 'm'] := by
  simp [nameFamily, itemArtifactName]

/-- Every fixed name is a family of its own, beside those of the groups and of the items. -/
theorem nodup_nameFamilies : nameFamilies.Nodup := by
  decide

variable {config : Configuration} {first second : String}

/-- The name of a group's function begins like all of them. -/
theorem nameFamily_of_mem_groupFunctionNames {name : String}
    (hname : name ∈ config.groupFunctionNames) : nameFamily name = ['g', 'r', 'o', 'u'] := by
  obtain ⟨id, -, rfl⟩ := List.mem_map.mp hname
  exact nameFamily_groupArtifactName id

/-- The name of an item's function begins like all of them. -/
theorem nameFamily_of_mem_itemFunctionNames {name : String}
    (hname : name ∈ config.itemFunctionNames) : nameFamily name = ['i', 't', 'e', 'm'] := by
  obtain ⟨item, -, rfl⟩ := List.mem_map.mp hname
  exact nameFamily_itemArtifactName item

/-- A name in a pack belongs to one of the families. -/
theorem nameFamily_mem_nameFamilies {name : String}
    (hname : name ∈ fixedNames ++ (config.groupFunctionNames ++ config.itemFunctionNames)) :
    nameFamily name ∈ nameFamilies := by
  rw [List.mem_append, List.mem_append] at hname
  rw [nameFamilies, List.mem_append]
  rcases hname with hfixed | hgroup | hitem
  · exact Or.inl (List.mem_map_of_mem hfixed)
  · rw [nameFamily_of_mem_groupFunctionNames hgroup]
    exact Or.inr (by simp)
  · rw [nameFamily_of_mem_itemFunctionNames hitem]
    exact Or.inr (by simp)

/-- The names of the items' functions are those of their family. -/
theorem mem_itemFunctionNames_iff {name : String}
    (hname : name ∈ fixedNames ++ (config.groupFunctionNames ++ config.itemFunctionNames)) :
    name ∈ config.itemFunctionNames ↔ nameFamily name = ['i', 't', 'e', 'm'] := by
  refine ⟨nameFamily_of_mem_itemFunctionNames, fun hfamily ↦ ?_⟩
  rw [List.mem_append, List.mem_append] at hname
  rcases hname with hfixed | hgroup | hitem
  · have hfixedFamilies : ∀ name ∈ fixedNames, nameFamily name ≠ ['i', 't', 'e', 'm'] := by decide
    exact absurd hfamily (hfixedFamilies name hfixed)
  · rw [nameFamily_of_mem_groupFunctionNames hgroup] at hfamily
    exact absurd hfamily (by decide)
  · exact hitem

/-- A key that agrees with the families tells all functions of a pack apart if it tells the groups
apart and the items apart. -/
theorem nodup_map_names_iff {β : Type*} {key : String → β} (config : Configuration)
    (hkey : ∀ {first second : String}, nameFamily first ∈ nameFamilies →
      nameFamily second ∈ nameFamilies → key first = key second →
        nameFamily first = nameFamily second) :
    (((Pack.functions (compile config) config.pack).map Artifact.name).map key).Nodup ↔
      (config.groupFunctionNames.map key).Nodup ∧ (config.itemFunctionNames.map key).Nodup := by
  have happart {first second : String}
      (hfirst : first ∈ fixedNames ++ (config.groupFunctionNames ++ config.itemFunctionNames))
      (hsecond : second ∈ fixedNames ++ (config.groupFunctionNames ++ config.itemFunctionNames))
      (hne : nameFamily first ≠ nameFamily second) : key first ≠ key second := fun hsame ↦
    hne (hkey (nameFamily_mem_nameFamilies hfirst) (nameFamily_mem_nameFamilies hsecond) hsame)
  obtain ⟨hfixedFamilies, -, hothers⟩ := List.nodup_append.mp nodup_nameFamilies
  have hfixed : (fixedNames.map key).Nodup := by
    rw [List.Nodup, List.pairwise_map] at hfixedFamilies ⊢
    refine hfixedFamilies.imp_of_mem fun hfirst hsecond hne ↦ happart ?_ ?_ hne
    · exact List.mem_append_left _ hfirst
    · exact List.mem_append_left _ hsecond
  rw [((names_functions_perm config).map key).nodup_iff, List.map_append, List.map_append,
    List.nodup_append, List.nodup_append]
  simp only [← List.map_append, List.forall_mem_map]
  constructor
  · rintro ⟨-, ⟨hgroups, hitems, -⟩, -⟩
    exact ⟨hgroups, hitems⟩
  · rintro ⟨hgroups, hitems⟩
    refine ⟨hfixed, ⟨hgroups, hitems, ?_⟩, ?_⟩
    · intro first hfirst second hsecond
      refine happart (by simp [hfirst]) (by simp [hsecond]) ?_
      rw [nameFamily_of_mem_groupFunctionNames hfirst, nameFamily_of_mem_itemFunctionNames hsecond]
      decide
    · intro fixed hmember name hname
      refine happart (List.mem_append_left _ hmember) (List.mem_append_right _ hname) ?_
      refine hothers _ (List.mem_map_of_mem hmember) _ ?_
      rcases List.mem_append.mp hname with hgroup | hitem
      · simp [nameFamily_of_mem_groupFunctionNames hgroup]
      · simp [nameFamily_of_mem_itemFunctionNames hitem]

/-! ### Distinct names -/

/-- The emitted groups have functions of distinct names. -/
theorem nodup_groupFunctionNames (config : Configuration) : config.groupFunctionNames.Nodup :=
  (nodup_groupId_emittedGroups config.groups).map fun _ _ ↦ groupArtifactName_inj.mp

/-- The emitted items have functions of distinct names. -/
theorem nodup_itemFunctionNames (config : Configuration) : config.itemFunctionNames.Nodup :=
  (nodup_itemName_emittedItems _).map fun _ _ ↦ itemArtifactName_inj.mp

/-- No two functions of a pack have the same name. -/
theorem nodup_names_functions (config : Configuration) :
    ((Pack.functions (compile config) config.pack).map Artifact.name).Nodup := by
  have hiff : (((Pack.functions (compile config) config.pack).map Artifact.name).map id).Nodup ↔ _ :=
    nodup_map_names_iff config fun _ _ hsame ↦ congrArg nameFamily hsame
  rw [List.map_id, List.map_id, List.map_id] at hiff
  exact hiff.mpr ⟨nodup_groupFunctionNames config, nodup_itemFunctionNames config⟩

/-- No two functions of a pack have the same name, and each compiled function is the one that is found
by its name. -/
theorem names_distinguish_functions (config : Configuration) :
    (((compile config).artifacts ++ lifecycleArtifacts config.pack).map Artifact.name).Nodup ∧
      ∀ artifact ∈ (compile config).artifacts,
        (compile config).artifact? artifact.name = some artifact := by
  have hnames := nodup_names_functions config
  refine ⟨hnames, fun artifact hartifact ↦ ?_⟩
  rw [Pack.functions, List.map_append] at hnames
  exact find?_eq_some_of_nodup_map (List.nodup_append.mp hnames).1 hartifact

end FrameSorter
