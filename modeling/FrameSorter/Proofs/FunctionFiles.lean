import FrameSorter.Proofs.FunctionNames
import FrameSorter.Proofs.JoinedPaths
import FrameSorter.Proofs.MemoryWrites
import FrameSorter.Proofs.TakenFiles

/-!
# The files of the functions of a pack

The file of a function is told apart from the others by the pieces of the function's name between
slashes (`filePieces`, `components_functionPath`), and no other file of a pack is in the place of a
function. Names of items may have slashes, and names that differ can have the same pieces. So a pack
loses no file in memory (`Configuration.KeepsFiles`) exactly if the names of its emitted items have
different pieces (`keepsFiles_iff`), and two items whose names differ in the number of slashes are
enough to lose one (`not_keepsFiles_twoDoors`). The functions of groups are never lost
(`get?_written_of_kind_ne_item`).
-/

set_option autoImplicit false
set_option relaxedAutoImplicit false

namespace FrameSorter

open MemorySink (placeOf)

/-- The pieces of the file of a function, below the directory of the functions. -/
def filePieces (name : String) : List String :=
  (Path.mk (name ++ ".mcfunction")).pieces.filter (· != ".")

/-- The memory sink has an entry for each file that was written, and every function of the pack is read
back from it. -/
def Configuration.KeepsFiles (config : Configuration) : Prop :=
  ∃ summary final,
    Pack.write (compile config) config.pack MemorySink.sink {} = (.ok summary, final) ∧
      final.size = summary.filesWritten ∧
      ∀ function ∈ Pack.functions (compile config) config.pack,
        final.get? (Pack.functionPath config.pack function.name) = some function.content

/-! ### The file of a function -/

section Names

variable {name first second : String}

/-- Every family of names has four characters, and none of them is a slash. -/
theorem nameFamilies_fourCharacters :
    ∀ family ∈ nameFamilies, family.length = 4 ∧ '/' ∉ family := by
  decide

/-- The first of the pieces begins with the family of the name. -/
theorem filePieces_of_nameFamily (hname : nameFamily name ∈ nameFamilies) :
    ∃ rest others, filePieces name = String.ofList (nameFamily name ++ rest) :: others := by
  obtain ⟨hlength, hslash⟩ := nameFamilies_fourCharacters _ hname
  have htext : nameFamily name <+: (name ++ ".mcfunction").toList := by
    rw [String.toList_append]
    exact (List.take_prefix 4 _).trans (List.prefix_append _ _)
  have hnonempty : nameFamily name ≠ [] := List.ne_nil_of_length_pos (by omega)
  obtain ⟨rest, others, hpieces⟩ := Path.pieces_of_beginning hslash hnonempty htext
  have hdot : String.ofList (nameFamily name ++ rest) ≠ "." := by
    intro hdot
    have hone := congrArg (·.toList.length) hdot
    simp only [String.toList_ofList, List.length_append, hlength] at hone
    have hdotLength : ".".toList.length = 1 := rfl
    omega
  rw [filePieces, hpieces, List.filter_cons_of_pos (by simpa using hdot)]
  exact ⟨rest, _, rfl⟩

/-- Pieces determine the family of a name. -/
theorem nameFamily_eq_of_filePieces_eq (hfirst : nameFamily first ∈ nameFamilies)
    (hsecond : nameFamily second ∈ nameFamilies) (hsame : filePieces first = filePieces second) :
    nameFamily first = nameFamily second := by
  obtain ⟨rest, others, hpieces⟩ := filePieces_of_nameFamily hfirst
  obtain ⟨rest', others', hpieces'⟩ := filePieces_of_nameFamily hsecond
  rw [hpieces, hpieces', List.cons.injEq, String.ofList_inj] at hsame
  refine (List.append_inj hsame.1 ?_).1
  rw [(nameFamilies_fourCharacters _ hfirst).1, (nameFamilies_fourCharacters _ hsecond).1]

/-- The name of a function's file is no short text. -/
theorem functionFile_ne {text : String} (hshort : text.toList.length < 11) :
    name ++ ".mcfunction" ≠ text := by
  rintro rfl
  have hending : ".mcfunction".toList.length = 11 := rfl
  rw [String.toList_append, List.length_append, hending] at hshort
  omega

/-- A name without a slash gives a file of one piece. -/
theorem pieces_functionFile (hslash : '/' ∉ name.toList) :
    (Path.mk (name ++ ".mcfunction")).pieces = [name ++ ".mcfunction"] :=
  Path.pieces_of_notMem (by simp [hslash]) (functionFile_ne (by decide))

/-- A name without a slash is one piece. -/
theorem filePieces_of_notMem (hslash : '/' ∉ name.toList) :
    filePieces name = [name ++ ".mcfunction"] := by
  have hdot : name ++ ".mcfunction" ≠ "." := functionFile_ne (by decide)
  rw [filePieces, pieces_functionFile hslash, List.filter_cons_of_pos (by simpa using hdot),
    List.filter_nil]

/-- Whether a place is that of a file whose name ends like those of functions. -/
def endsLikeFunction (place : List String) : Bool :=
  place.getLast?.any fun last ↦ ".mcfunction".toList.isSuffixOf last.toList

/-- The last piece ends like every function's file. -/
theorem endsLikeFunction_append_filePieces (directory : List String) (name : String) :
    endsLikeFunction (directory ++ filePieces name) := by
  have htext : ".mcfunction".toList <:+ (name ++ ".mcfunction").toList := by
    rw [String.toList_append]
    exact List.suffix_append _ _
  obtain ⟨others, last, hpieces⟩ := Path.pieces_of_ending (by decide) (by decide) htext
  have hdot : String.ofList (last ++ ".mcfunction".toList) ≠ "." := by
    intro hdot
    have hone := congrArg (·.toList.length) hdot
    simp at hone
  rw [filePieces, hpieces, List.filter_append, List.filter_cons_of_pos (by simpa using hdot),
    List.filter_nil, ← List.append_assoc, endsLikeFunction, List.getLast?_concat]
  simp

/-- The file of a function is not sought at the root. -/
theorem isAbsolute_functionFile (hname : nameFamily name ∈ nameFamilies) :
    (Path.mk (name ++ ".mcfunction")).isAbsolute = false := by
  obtain ⟨hlength, hslash⟩ := nameFamilies_fourCharacters _ hname
  cases hchars : name.toList with
  | nil => simp [nameFamily, hchars] at hlength
  | cons first rest =>
    simp only [nameFamily, hchars, List.take_succ_cons, List.mem_cons, not_or] at hslash
    simpa [Path.isAbsolute, hchars] using Ne.symm hslash.1

/-- The directory of the functions of a pack. -/
def functionsPath (options : PackOptions) : Path :=
  ((Path.mk "data").join ⟨options.packNamespace⟩).join (Pack.functionDirectory options)

/-- The file of a function is at its pieces below the directory of the functions. -/
theorem components_functionPath (options : PackOptions) (hname : nameFamily name ∈ nameFamilies) :
    (Pack.functionPath options name).components =
      (functionsPath options).components ++ filePieces name := by
  have hdirectory : (Pack.functionDirectory options).isAbsolute = false ∧
      (Pack.functionDirectory options).pieces ≠ [] := by
    unfold Pack.functionDirectory
    split <;> decide
  have hsegments : (functionsPath options).segments ≠ [] := by
    rw [functionsPath, Path.segments_join hdirectory.1]
    exact List.append_ne_nil_of_right_ne_nil _ hdirectory.2
  exact Path.components_join (isAbsolute_functionFile hname) hsegments

end Names

/-! ### The files of a pack -/

variable {config : Configuration}

/-- Every function of a pack has one of the names. -/
theorem name_mem_of_mem_functions {function : Artifact}
    (hfunction : function ∈ Pack.functions (compile config) config.pack) :
    function.name ∈ fixedNames ++ (config.groupFunctionNames ++ config.itemFunctionNames) :=
  (names_functions_perm config).mem_iff.mp (List.mem_map_of_mem hfunction)

/-- Only functions of items are named like them. -/
theorem nameFamily_ne_of_kind_ne_item {function : Artifact}
    (hfunction : function ∈ Pack.functions (compile config) config.pack)
    (hkind : function.kind ≠ .item) : nameFamily function.name ≠ ['i', 't', 'e', 'm'] := by
  rcases List.mem_append.mp hfunction with hcompiled | hlifecycle
  · rcases List.mem_cons.mp hcompiled with rfl | hroutine
    · have hdispatch : nameFamily dispatchArtifactName ≠ ['i', 't', 'e', 'm'] := by decide
      exact hdispatch
    · rw [routines_compile] at hroutine
      rcases Configuration.of_mem_plannedRoutines hroutine with
        ⟨group, -, rfl⟩ | ⟨owner, -, item, -, rfl⟩
      · rw [Configuration.groupRoutine, nameFamily_groupArtifactName]
        decide
      · exact absurd rfl hkind
  · have hall : ∀ name ∈ [initArtifactName, tickArtifactName, sortArtifactName],
        nameFamily name ≠ ['i', 't', 'e', 'm'] := by
      decide
    exact hall _ (List.mem_map_of_mem (f := Artifact.name) hlifecycle)

/-- The place of a function. -/
theorem placeOf_function {function : Artifact}
    (hfunction : function ∈ Pack.functions (compile config) config.pack) :
    placeOf (Pack.functionPath config.pack function.name, function.content) =
      (functionsPath config.pack).components ++ filePieces function.name :=
  components_functionPath config.pack
    (nameFamily_mem_nameFamilies (name_mem_of_mem_functions hfunction))

/-- The files of a pack beside those of functions. -/
def Pack.otherFiles (options : PackOptions) : List (Path × String) :=
  ((Pack.tags options).map fun (tag, listed) ↦ (Pack.tagPath options tag, Pack.tagDocument listed)) ++
    [(Pack.metadataPath, Pack.metadataDocument options)]

/-- The other files have places of their own, and none of them ends like a function. -/
theorem places_otherFiles (options : PackOptions) :
    ((Pack.otherFiles options).map placeOf).Nodup ∧
      ∀ file ∈ Pack.otherFiles options, endsLikeFunction (placeOf file) = false := by
  have hplaces : (Pack.otherFiles options).map placeOf =
      [(Pack.tagPath options "load").components, (Pack.tagPath options "tick").components,
        Pack.metadataPath.components] := rfl
  rw [← List.forall_mem_map (f := placeOf) (P := fun place ↦ endsLikeFunction place = false), hplaces]
  unfold Pack.tagPath Pack.functionDirectory
  split <;> decide +kernel

/-- The files of a pack are those of its functions and the others. -/
theorem files_eq (config : Configuration) :
    Pack.files (compile config) config.pack =
      (Pack.functions (compile config) config.pack).map (fun function ↦
        (Pack.functionPath config.pack function.name, function.content)) ++
          Pack.otherFiles config.pack :=
  List.append_assoc _ _ _

/-- The places of the functions are told apart by the pieces of their names. -/
theorem map_placeOf_functions (config : Configuration) :
    ((Pack.functions (compile config) config.pack).map fun function ↦
        (Pack.functionPath config.pack function.name, function.content)).map placeOf =
      (((Pack.functions (compile config) config.pack).map Artifact.name).map filePieces).map
        ((functionsPath config.pack).components ++ ·) := by
  rw [List.map_map, List.map_map, List.map_map]
  exact List.map_congr_left fun function hfunction ↦ placeOf_function hfunction

/-- Only the name of an item's function can have a slash. -/
theorem slash_notMem_of_nameFamily_ne {name : String}
    (hname : name ∈ fixedNames ++ (config.groupFunctionNames ++ config.itemFunctionNames))
    (hfamily : nameFamily name ≠ ['i', 't', 'e', 'm']) : '/' ∉ name.toList := by
  rw [List.mem_append, List.mem_append] at hname
  rcases hname with hfixed | hgroup | hitem
  · have hall : ∀ name ∈ fixedNames, '/' ∉ name.toList := by decide
    exact hall name hfixed
  · obtain ⟨id, hid, rfl⟩ := List.mem_map.mp hgroup
    obtain ⟨group, -, rfl⟩ := List.mem_map.mp hid
    have hslash := notMem_groupId (c := '/') (by decide) group.name
    simp [groupArtifactName, hslash]
  · exact absurd (nameFamily_of_mem_itemFunctionNames hitem) hfamily

/-- A function that is not that of an item shares its pieces with no other. -/
theorem name_eq_of_filePieces_eq {first second : String}
    (hfirst : first ∈ fixedNames ++ (config.groupFunctionNames ++ config.itemFunctionNames))
    (hsecond : second ∈ fixedNames ++ (config.groupFunctionNames ++ config.itemFunctionNames))
    (hfamily : nameFamily first ≠ ['i', 't', 'e', 'm'])
    (hsame : filePieces first = filePieces second) : first = second := by
  have hfamilies : nameFamily first = nameFamily second :=
    nameFamily_eq_of_filePieces_eq (nameFamily_mem_nameFamilies hfirst)
      (nameFamily_mem_nameFamilies hsecond) hsame
  rw [filePieces_of_notMem (slash_notMem_of_nameFamily_ne hfirst hfamily),
    filePieces_of_notMem (slash_notMem_of_nameFamily_ne hsecond (hfamilies ▸ hfamily)),
    List.cons.injEq, String.append_left_inj] at hsame
  exact hsame.1

/-- The files of a pack are in places of their own exactly if the emitted items have names of different
pieces. -/
theorem nodup_placeOf_files_iff (config : Configuration) :
    ((Pack.files (compile config) config.pack).map placeOf).Nodup ↔
      (config.itemFunctionNames.map filePieces).Nodup := by
  obtain ⟨hothers, hends⟩ := places_otherFiles config.pack
  have hgroups : (config.groupFunctionNames.map filePieces).Nodup := by
    refine (nodup_groupFunctionNames config).map_on fun first hfirst second hsecond hsame ↦ ?_
    have hmember {name : String} (hname : name ∈ config.groupFunctionNames) :
        name ∈ fixedNames ++ (config.groupFunctionNames ++ config.itemFunctionNames) :=
      List.mem_append_right _ (List.mem_append_left _ hname)
    refine name_eq_of_filePieces_eq (hmember hfirst) (hmember hsecond) ?_ hsame
    rw [nameFamily_of_mem_groupFunctionNames hfirst]
    decide
  have happart : ∀ place ∈ (((Pack.functions (compile config) config.pack).map Artifact.name).map
      filePieces).map ((functionsPath config.pack).components ++ ·),
      ∀ other ∈ (Pack.otherFiles config.pack).map placeOf, place ≠ other := by
    rintro place hplace other hother rfl
    obtain ⟨pieces, hpieces, rfl⟩ := List.mem_map.mp hplace
    obtain ⟨name, -, rfl⟩ := List.mem_map.mp hpieces
    obtain ⟨file, hfile, hsame⟩ := List.mem_map.mp hother
    have hfunction := endsLikeFunction_append_filePieces (functionsPath config.pack).components name
    rw [← hsame, hends file hfile] at hfunction
    cases hfunction
  rw [files_eq, List.map_append, map_placeOf_functions, List.nodup_append,
    List.nodup_map_iff (List.append_right_injective _),
    nodup_map_names_iff config nameFamily_eq_of_filePieces_eq]
  exact ⟨fun h ↦ h.1.2, fun h ↦ ⟨⟨hgroups, h⟩, hothers, happart⟩⟩

/-! ### Functions in memory -/

/-- Whatever the items are, every function that is not that of an item is read back. -/
theorem get?_written_of_kind_ne_item {function : Artifact}
    (hfunction : function ∈ Pack.functions (compile config) config.pack)
    (hkind : function.kind ≠ .item) :
    (Pack.write (compile config) config.pack MemorySink.sink {}).2.get?
      (Pack.functionPath config.pack function.name) = some function.content := by
  rw [write_memory]
  refine MemorySink.get?_writeAll (function_mem_files hfunction) fun file hfile hplace ↦ ?_
  have hown := (placeOf_function hfunction).symm.trans hplace.symm
  rw [files_eq, List.mem_append] at hfile
  rcases hfile with hsibling | hdocument
  · obtain ⟨other, hother, rfl⟩ := List.mem_map.mp hsibling
    rw [placeOf_function hother, List.append_cancel_left_eq] at hown
    have hname := name_eq_of_filePieces_eq (name_mem_of_mem_functions hfunction)
      (name_mem_of_mem_functions hother) (nameFamily_ne_of_kind_ne_item hfunction hkind) hown
    rw [List.inj_on_of_nodup_map (nodup_names_functions config) hfunction hother hname]
  · have hends := endsLikeFunction_append_filePieces (functionsPath config.pack).components
      function.name
    rw [hown, (places_otherFiles config.pack).2 file hdocument] at hends
    cases hends

/-- No file is lost exactly if the names of the emitted items have different pieces. -/
theorem keepsFiles_iff (config : Configuration) :
    config.KeepsFiles ↔ (config.itemFunctionNames.map filePieces).Nodup := by
  rw [← nodup_placeOf_files_iff]
  constructor
  · rintro ⟨summary, final, hwrite, hsize, -⟩
    rw [write_memory] at hwrite
    cases hwrite
    exact (MemorySink.size_writeAll _).2.mp hsize
  · intro hnodup
    refine ⟨_, _, write_memory _ _ _, (MemorySink.size_writeAll _).2.mpr hnodup, ?_⟩
    intro function hfunction
    refine MemorySink.get?_writeAll (function_mem_files hfunction) fun file hfile hplace ↦ ?_
    rw [List.inj_on_of_nodup_map hnodup hfile (function_mem_files hfunction) hplace]

/-- Two items whose names differ in the number of slashes. -/
def twoDoors : Configuration where
  groups :=
    [{ name := "Doors", items := ["minecraft:door/oak", "minecraft:door//oak"]
       itemFrame := some "minecraft:chest" }]

/-- The functions of the two items are written to one place. -/
theorem not_keepsFiles_twoDoors : ¬ twoDoors.KeepsFiles := by
  rintro ⟨summary, final, hwrite, hsize, -⟩
  rw [write_memory] at hwrite
  cases hwrite
  have hfiles := (MemorySink.size_writeAll _).2.mp hsize
  have hpieces : ¬ (twoDoors.itemFunctionNames.map filePieces).Nodup := by decide +kernel
  exact hpieces ((nodup_placeOf_files_iff twoDoors).mp hfiles)

end FrameSorter
