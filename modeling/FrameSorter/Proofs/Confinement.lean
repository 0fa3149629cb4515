import FrameSorter.Proofs.ChangedFiles
import FrameSorter.Proofs.FunctionFiles

/-!
# Packs that stay below their directory

A pack is written below a directory, and the namespace and the names of items are parts of the paths
that it is written to. They may have two dots and slashes, so they can lead out of the directory. The
paths of a pack stay below it for exactly those configurations in which the namespace does not begin at
the root and neither it nor an item's name leads above the start (`Configuration.IsConfined`,
`staysBelow_files_iff`). The pack of such a configuration changes no regular file outside the directory,
whatever the file system is and whether or not all files can be written
(`changesOnlyBelow_of_isConfined`). A namespace that leads two directories up puts functions outside
(`not_changesOnlyBelow_stray`).
-/

set_option autoImplicit false
set_option relaxedAutoImplicit false

namespace FrameSorter

/-- Wherever the pack is written, no regular file outside that directory is created, changed or
removed. -/
def Configuration.ChangesOnlyBelow (config : Configuration) : Prop :=
  ∀ (files : FileSystem) (root : Path) (location : Location) (content : ByteArray),
    ¬ resolve files.workingDirectory root.segments <+: location →
      ((Pack.write (compile config) config.pack (FileSystem.disk.directorySink root) files).2.at?
            location = some (.file content) ↔
        files.at? location = some (.file content))

/-- The namespace and the names of the emitted items do not lead out of the directory of the pack. -/
structure Configuration.IsConfined (config : Configuration) : Prop where
  /-- The namespace does not begin at the root. -/
  relative : (Path.mk config.pack.packNamespace).isAbsolute = false
  /-- The namespace begins one directory below that of the pack, and it never leads above that. -/
  space : (depthAfter? 1 (Path.mk config.pack.packNamespace).pieces).isSome
  /-- The file of an item begins one directory below the namespace, and it never leads above that of
  the pack. -/
  items : ∀ item ∈ emittedItems (itemsOf (emittedGroups config.groups)),
    ∀ depth ∈ depthAfter? 1 (Path.mk config.pack.packNamespace).pieces,
      (depthAfter? (depth + 1)
        (Path.mk (itemArtifactName (itemName item) ++ ".mcfunction")).pieces).isSome

/-! ### The paths of a pack -/

variable {config : Configuration} {name : String}

/-- A name without a slash does not lead above its directory. -/
theorem isSome_depthAfter?_of_notMem (hslash : '/' ∉ name.toList) (depth : Nat) :
    (depthAfter? (depth + 1) (Path.mk (name ++ ".mcfunction")).pieces).isSome := by
  have hroot : name ++ ".mcfunction" ≠ Path.rootMark := functionFile_ne (by decide)
  have hdot : name ++ ".mcfunction" ≠ "." := functionFile_ne (by decide)
  have hdots : name ++ ".mcfunction" ≠ ".." := functionFile_ne (by decide)
  rw [pieces_functionFile hslash, depthAfter?, if_neg hroot, if_neg hdot, if_neg hdots]
  rfl

/-- The directory of functions is one below that of the namespace. -/
theorem depthAfter?_functionDirectory (options : PackOptions) (depth : Nat) :
    depthAfter? depth (Pack.functionDirectory options).pieces = some (depth + 1) := by
  have hpieces : (Pack.functionDirectory options).pieces = ["functions"] ∨
      (Pack.functionDirectory options).pieces = ["function"] := by
    unfold Pack.functionDirectory
    split <;> decide
  rcases hpieces with hplural | hsingular
  · rw [hplural]
    rfl
  · rw [hsingular]
    rfl

/-- The path of a function stays below the directory of the pack exactly if neither the namespace nor
the name leads out of it. -/
theorem staysBelow_functionPath_iff (options : PackOptions) (hname : nameFamily name ∈ nameFamilies) :
    (Pack.functionPath options name).StaysBelow ↔
      (Path.mk options.packNamespace).isAbsolute = false ∧
        ∃ depth ∈ depthAfter? 1 (Path.mk options.packNamespace).pieces,
          (depthAfter? (depth + 1) (Path.mk (name ++ ".mcfunction")).pieces).isSome := by
  have hfile := isAbsolute_functionFile hname
  have hdirectory : (Pack.functionDirectory options).isAbsolute = false := by
    unfold Pack.functionDirectory
    split <;> decide
  have hstart : (Pack.functionPath options name).isAbsolute =
      ((Path.mk "data").join ⟨options.packNamespace⟩).isAbsolute :=
    (Path.isAbsolute_join hfile).trans (Path.isAbsolute_join hdirectory)
  rw [Path.StaysBelow, hstart]
  cases hspace : (Path.mk options.packNamespace).isAbsolute with
  | true =>
    have hjoin : (Path.mk "data").join ⟨options.packNamespace⟩ = ⟨options.packNamespace⟩ :=
      if_pos hspace
    simp [hjoin, hspace]
  | false =>
    have hpieces : (Pack.functionPath options name).pieces =
        ["data"] ++ (Path.mk options.packNamespace).pieces ++ (Pack.functionDirectory options).pieces ++
          (Path.mk (name ++ ".mcfunction")).pieces := by
      rw [Pack.functionPath, Path.pieces_join hfile, Path.pieces_join hdirectory,
        Path.pieces_join hspace]
      rfl
    have hdata : (Path.mk "data").isAbsolute = false := by decide
    have hdepth : depthAfter? 0 ["data"] = some 1 := rfl
    rw [Path.isAbsolute_join hspace, hpieces, depthAfter?_append, depthAfter?_append,
      depthAfter?_append, hdepth, Option.bind_some]
    cases depthAfter? 1 (Path.mk options.packNamespace).pieces with
    | none => simp
    | some depth => simp [depthAfter?_functionDirectory, hdata]

/-- The paths of the tags and of the description stay below the directory of the pack. -/
theorem staysBelow_otherFiles (options : PackOptions) :
    ∀ file ∈ Pack.otherFiles options, file.1.StaysBelow := by
  have hpaths : (Pack.otherFiles options).map Prod.fst =
      [Pack.tagPath options "load", Pack.tagPath options "tick", Pack.metadataPath] := rfl
  rw [← List.forall_mem_map (f := Prod.fst) (P := Path.StaysBelow), hpaths]
  unfold Pack.tagPath Pack.functionDirectory
  split <;> decide +kernel

/-- All paths of a pack stay below its directory exactly if those of its functions do. -/
theorem staysBelow_files_iff_functions (config : Configuration) :
    (∀ file ∈ Pack.files (compile config) config.pack, file.1.StaysBelow) ↔
      ∀ name ∈ fixedNames ++ (config.groupFunctionNames ++ config.itemFunctionNames),
        (Pack.functionPath config.pack name).StaysBelow := by
  rw [files_eq, List.forall_mem_append, and_iff_left (staysBelow_otherFiles config.pack),
    List.forall_mem_map, ← List.forall_mem_map (f := Artifact.name)
      (P := fun name ↦ (Pack.functionPath config.pack name).StaysBelow)]
  simp only [(names_functions_perm config).mem_iff]

/-- All paths of a pack stay below its directory exactly if the configuration is confined. -/
theorem staysBelow_files_iff (config : Configuration) :
    (∀ file ∈ Pack.files (compile config) config.pack, file.1.StaysBelow) ↔ config.IsConfined := by
  rw [staysBelow_files_iff_functions]
  constructor
  · intro hbelow
    have hnames {name : String}
        (hname : name ∈ fixedNames ++ (config.groupFunctionNames ++ config.itemFunctionNames)) :=
      (staysBelow_functionPath_iff config.pack (nameFamily_mem_nameFamilies hname)).mp
        (hbelow name hname)
    obtain ⟨hrelative, depth, hdepth, -⟩ := hnames (List.mem_append_left _ List.mem_cons_self)
    refine ⟨hrelative, Option.isSome_of_mem hdepth, fun item hitem depth hdepth ↦ ?_⟩
    have hmember : itemArtifactName (itemName item) ∈ config.itemFunctionNames :=
      List.mem_map_of_mem (List.mem_map_of_mem hitem)
    obtain ⟨-, own, hown, hsome⟩ :=
      hnames (List.mem_append_right _ (List.mem_append_right _ hmember))
    rwa [Option.mem_unique hdepth hown]
  · intro hconfined name hname
    obtain ⟨depth, hdepth⟩ := Option.isSome_iff_exists.mp hconfined.space
    refine (staysBelow_functionPath_iff config.pack (nameFamily_mem_nameFamilies hname)).mpr
      ⟨hconfined.relative, depth, hdepth, ?_⟩
    -- Only names of items have slashes, and so pieces that can lead up.
    by_cases hfamily : nameFamily name = ['i', 't', 'e', 'm']
    · have hmember := (mem_itemFunctionNames_iff hname).mpr hfamily
      obtain ⟨own, hown, rfl⟩ := List.mem_map.mp hmember
      obtain ⟨item, hitem, rfl⟩ := List.mem_map.mp hown
      exact hconfined.items item hitem depth hdepth
    · exact isSome_depthAfter?_of_notMem (slash_notMem_of_nameFamily_ne hname hfamily) depth

/-! ### Confined configurations -/

/-- The pack of a confined configuration changes no regular file outside its directory. -/
theorem changesOnlyBelow_of_isConfined (config : Configuration) (hconfined : config.IsConfined) :
    config.ChangesOnlyBelow := by
  intro files root location content houtside
  have hpaths := (staysBelow_files_iff config).mpr hconfined
  have hchanges : FileSystem.ChangesOnly (resolve files.workingDirectory root.segments <+: ·) files
      (Pack.write (compile config) config.pack (FileSystem.disk.directorySink root) files).2 :=
    changesOnly_write (compile config) config.pack fun file hfile ↦
      prefix_resolve_join (hpaths file hfile) files.workingDirectory
  exact hchanges.file_iff location houtside content

/-- Two dots in the namespace and in the name of an item that lead no further up than they may. -/
def nestedConfiguration : Configuration where
  groups := [{ name := "Ores", items := ["mod:deep/../coal"], itemFrame := some "minecraft:chest" }]
  pack := { packNamespace := "mods/../sorter" }

/-- They keep the pack in its directory. -/
theorem changesOnlyBelow_nested :
    nestedConfiguration.IsConfined ∧ nestedConfiguration.ChangesOnlyBelow := by
  have hitems : emittedItems (itemsOf (emittedGroups nestedConfiguration.groups)) =
      ["mod:deep/../coal"] := by
    decide +kernel
  have hconfined : nestedConfiguration.IsConfined := by
    refine ⟨by decide, by decide, ?_⟩
    rw [hitems]
    decide +kernel
  exact ⟨hconfined, changesOnlyBelow_of_isConfined nestedConfiguration hconfined⟩

/-- A namespace that leads two directories up. -/
def strayConfiguration : Configuration where
  pack := { packNamespace := "../../stray" }

/-- The functions are written beside the directory of the pack. -/
theorem not_changesOnlyBelow_stray : ¬ strayConfiguration.ChangesOnlyBelow := by
  intro hbelow
  have hentry : ((Pack.write (compile strayConfiguration) strayConfiguration.pack
      (FileSystem.disk.directorySink ⟨"out"⟩) {}).2.at?
        ["stray", "functions", "dispatch.mcfunction"]).any (!·.isDirectory) := by
    decide +kernel
  obtain ⟨entry, hstray, hfile⟩ := (Option.any_eq_true _ _).mp hentry
  cases entry with
  | directory => cases hfile
  | file content =>
    have hold := (hbelow {} ⟨"out"⟩ _ _ (by decide)).mp hstray
    cases hold

end FrameSorter
