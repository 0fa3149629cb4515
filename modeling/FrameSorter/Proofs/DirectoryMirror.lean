import FrameSorter.Proofs.ChangedFiles
import FrameSorter.Proofs.FunctionFiles
import FrameSorter.Proofs.OfferedFiles

/-!
# A directory and a memory sink

What a memory sink tells apart, a directory does: from the directory that a path is joined to, the
components of the path are the names that lead to its file, provided that the path begins with a name
and has no two dots (`Path.IsPlain`, `Path.IsPlain.resolve_join`). So if the regular files below a
directory are the entries of a memory sink (`FileSystem.Mirrors`) and both take one more file, they still
are, whether or not the file was there before (`mirrors_store`, `mirrors_of_takes`). The relative paths
of a pack begin with names (`isPlain_of_mem_files`). A pack that can be written below a directory without
files is therefore written to an empty memory sink with the same summary, and the directory holds the
files of the sink and no others (`mirrors_of_write`). A directory that is empty or does not exist has no
files (`isFreeOfFiles_of_isVacant`).
-/

set_option autoImplicit false
set_option relaxedAutoImplicit false

namespace FrameSorter

open MemorySink (placeOf)

/-! ### Plain paths -/

/-- A path that begins with a name and has no two dots. -/
structure Path.IsPlain (path : Path) : Prop where
  relative : path.isAbsolute = false
  beginning : path.pieces.head? ≠ some "."
  noDots : ".." ∉ path.components

namespace Path

variable {path other : Path}

/-- The components of a plain path are its pieces that are no dots. -/
theorem IsPlain.components_eq (hplain : path.IsPlain) :
    path.components = path.pieces.filter (· != ".") := by
  have hsegments : path.segments = path.pieces := if_neg (by simp [hplain.relative])
  have hbeginning := hplain.beginning
  rw [components, hsegments]
  cases hpieces : path.pieces with
  | nil => rfl
  | cons first rest =>
    rw [hpieces, List.head?_cons] at hbeginning
    have hfirst : first ≠ "." := fun hdot ↦ hbeginning (congrArg some hdot)
    rw [List.filter_cons_of_pos (by simpa using hfirst)]

/-- From the directory that a plain path is joined to, its components lead to its file. -/
theorem IsPlain.resolve_join {root : Path} (hplain : path.IsPlain) (here : Location) :
    resolve here (root.join path).segments = resolve here root.segments ++ path.components := by
  have hdots : ".." ∉ path.pieces := by
    intro hpiece
    refine hplain.noDots ?_
    rw [hplain.components_eq]
    exact List.mem_filter.mpr ⟨hpiece, by decide⟩
  rw [segments_join hplain.relative, resolve_append,
    resolve_eq_append path.rootMark_notMem_pieces hdots, hplain.components_eq]

/-- Only relative paths are joined to a relative one. -/
theorem isAbsolute_of_join (hrelative : (path.join other).isAbsolute = false) :
    path.isAbsolute = false ∧ other.isAbsolute = false := by
  cases hother : other.isAbsolute with
  | true =>
    have hjoin : path.join other = other := if_pos hother
    rw [hjoin, hother] at hrelative
    cases hrelative
  | false => exact ⟨(isAbsolute_join hother).symm.trans hrelative, rfl⟩

/-- A relative path that is joined begins with the name that the first path begins with. -/
theorem head?_pieces_join {first : String} (hrelative : (path.join other).isAbsolute = false)
    (hfirst : path.pieces.head? = some first) : (path.join other).pieces.head? = some first := by
  rw [pieces_join (isAbsolute_of_join hrelative).2, List.head?_append, hfirst]
  rfl

end Path

/-- The relative paths of functions begin with the name of one directory. -/
theorem head?_pieces_functionPath {options : PackOptions} {name : String}
    (hrelative : (Pack.functionPath options name).isAbsolute = false) :
    (Pack.functionPath options name).pieces.head? = some "data" := by
  have hdirectory := (Path.isAbsolute_of_join hrelative).1
  have hspace := (Path.isAbsolute_of_join hdirectory).1
  have hdata : (Path.mk "data").pieces.head? = some "data" := by decide
  exact Path.head?_pieces_join hrelative
    (Path.head?_pieces_join hdirectory (Path.head?_pieces_join hspace hdata))

/-- The paths of the other files begin with names. -/
theorem head?_pieces_otherFiles (options : PackOptions) :
    ∀ file ∈ Pack.otherFiles options, file.1.pieces.head? ≠ some "." := by
  have hpaths : (Pack.otherFiles options).map Prod.fst =
      [Pack.tagPath options "load", Pack.tagPath options "tick", Pack.metadataPath] := rfl
  rw [← List.forall_mem_map (f := Prod.fst) (P := fun path : Path ↦ path.pieces.head? ≠ some "."),
    hpaths]
  unfold Pack.tagPath Pack.functionDirectory
  split <;> decide +kernel

/-- A relative path of a pack is plain if it has no two dots. -/
theorem isPlain_of_mem_files {compilation : Compilation} {options : PackOptions}
    {file : Path × String} (hfile : file ∈ Pack.files compilation options)
    (hrelative : file.1.isAbsolute = false) (hdots : ".." ∉ file.1.components) :
    file.1.IsPlain := by
  refine ⟨hrelative, ?_, hdots⟩
  rw [Pack.files, List.append_assoc] at hfile
  rcases List.mem_append.mp hfile with hfunction | hother
  · obtain ⟨function, -, rfl⟩ := List.mem_map.mp hfunction
    rw [head?_pieces_functionPath hrelative]
    decide
  · exact head?_pieces_otherFiles options file hother

/-! ### One file -/

/-- The regular files below a location are the entries of a memory sink: there is one entry for the
components that lead to a file, and its content is that of the file. -/
structure FileSystem.Mirrors (files : FileSystem) (base : Location) (memory : MemorySink) : Prop where
  nodup : (memory.entries.map placeOf).Nodup
  file_iff : ∀ below content,
    files.at? (base ++ below) = some (.file content) ↔
      ∃ entry ∈ memory.entries, entry.1.components = below ∧ entry.2.toUTF8 = content

section Writes

variable {files next final : FileSystem} {root path : Path} {memory : MemorySink}
variable {content : String}

/-- Both take one file, and the directory still holds what the memory sink does. -/
theorem mirrors_store (hmirrors : files.Mirrors (resolve files.workingDirectory root.segments) memory)
    (hplain : path.IsPlain) (hstored : files.store root path content = (.ok (), next)) :
    next.Mirrors (resolve files.workingDirectory root.segments) (memory.write path content) := by
  have hput := FileSystem.at?_of_store hstored
  have hchanges : FileSystem.ChangesOnly
      (· = resolve files.workingDirectory (root.join path).segments) files
      (files.store root path content).2 :=
    FileSystem.changesOnly_store content rfl
  have hnodup : ((memory.write path content).entries.map placeOf).Nodup :=
    MemorySink.nodup_map_placeOf_writeEntries hmirrors.nodup
  rw [hplain.resolve_join] at hput hchanges
  rw [hstored] at hchanges
  refine ⟨hnodup, fun below bytes ↦ ?_⟩
  by_cases hbelow : below = path.components
  · -- At the place of the file there is one entry, that of the write.
    obtain ⟨written, hwritten, hplace, htext⟩ :=
      MemorySink.exists_mem_writeEntries path content memory.entries
    rw [hbelow, hput, Option.some.injEq, Entry.file.injEq]
    constructor
    · rintro rfl
      exact ⟨written, hwritten, hplace, congrArg String.toUTF8 htext⟩
    · rintro ⟨entry, hentry, hsame, rfl⟩
      rw [List.inj_on_of_nodup_map hnodup hentry hwritten (hsame.trans hplace.symm), htext]
  · rw [hchanges.file_iff _ (fun hsame ↦ hbelow (List.append_cancel_left hsame)), hmirrors.file_iff]
    refine exists_congr fun entry ↦ and_congr_left ?_
    rintro ⟨hplace, -⟩
    have hne : placeOf entry ≠ path.components := fun hsame ↦ hbelow (hplace.symm.trans hsame)
    exact (MemorySink.mem_writeEntries_iff_of_ne hne).symm

/-! ### All files -/

/-- Both take all files, and the directory still holds what the memory sink does. -/
theorem mirrors_of_takes {written : List (Path × String)}
    (hmirrors : files.Mirrors (resolve files.workingDirectory root.segments) memory)
    (hplain : ∀ file ∈ written, file.1.IsPlain)
    (htakes : (FileSystem.disk.directorySink root).Takes files written final) :
    final.Mirrors (resolve files.workingDirectory root.segments) (memory.writeAll written) := by
  induction htakes generalizing memory with
  | nil files => exact hmirrors
  | @cons files next final path content rest hwrite hrest ih =>
    have hstored := (directorySink_write root path content files).symm.trans hwrite
    have hchanges : FileSystem.ChangesOnly (fun _ ↦ True) files (files.store root path content).2 :=
      FileSystem.changesOnly_store content trivial
    have hworking : next.workingDirectory = files.workingDirectory := by
      rw [hstored] at hchanges
      exact hchanges.workingDirectory
    have hstep := mirrors_store hmirrors (hplain (path, content) List.mem_cons_self) hstored
    rw [← hworking] at hstep ⊢
    exact ih hstep fun file hfile ↦ hplain file (List.mem_cons_of_mem _ hfile)

end Writes

/-! ### Packs -/

namespace FileSystem

/-- There is no regular file at a location or below it. -/
def IsFreeOfFiles (files : FileSystem) (location : Location) : Prop :=
  ∀ below content, files.at? (location ++ below) ≠ some (.file content)

/-- There is nothing at a location, or a directory that holds nothing. -/
def IsVacant (files : FileSystem) (location : Location) : Prop :=
  files.at? location = none ∨
    files.at? location = some .directory ∧ ∀ name, files.at? (location ++ [name]) = none

/-- Whatever there is, is in a directory. -/
def IsWellFormed (files : FileSystem) : Prop :=
  ∀ location name entry, files.at? (location ++ [name]) = some entry →
    files.at? location = some .directory

variable {files : FileSystem} {location : Location}

/-- There is nothing below a vacant location. -/
theorem at?_eq_none_of_isVacant (hwellFormed : files.IsWellFormed) (hvacant : files.IsVacant location)
    {below : Location} (hbelow : below ≠ []) : files.at? (location ++ below) = none := by
  induction below using List.reverseRecOn with
  | nil => exact absurd rfl hbelow
  | append_singleton below name ih =>
    rw [← List.append_assoc]
    cases hentry : files.at? (location ++ below ++ [name]) with
    | none => rfl
    | some entry =>
      have hdirectory := hwellFormed _ name entry hentry
      by_cases hempty : below = []
      · rw [hempty, List.append_nil] at hentry hdirectory
        rcases hvacant with hmissing | ⟨-, hnames⟩
        · rw [hmissing] at hdirectory
          cases hdirectory
        · rw [hnames name] at hentry
          cases hentry
      · rw [ih hempty] at hdirectory
        cases hdirectory

/-- What is vacant is free of files. -/
theorem isFreeOfFiles_of_isVacant (hwellFormed : files.IsWellFormed)
    (hvacant : files.IsVacant location) : files.IsFreeOfFiles location := by
  intro below content hfile
  by_cases hbelow : below = []
  · rw [hbelow, List.append_nil] at hfile
    rcases hvacant with hmissing | ⟨hdirectory, -⟩
    · rw [hmissing] at hfile
      cases hfile
    · rw [hdirectory] at hfile
      cases hfile
  · rw [at?_eq_none_of_isVacant hwellFormed hvacant hbelow] at hfile
    cases hfile

end FileSystem

/-- If a pack whose paths are relative and have no two dots is written below a root that leads to a
location without files, it is written to an empty memory sink with the same summary, and the regular
files below that location are the entries of the sink. -/
theorem mirrors_of_write (compilation : Compilation) (options : PackOptions) (root : Path)
    (files final : FileSystem) (summary : PackSummary)
    (hfree : files.IsFreeOfFiles (resolve files.workingDirectory root.segments))
    (hpaths : ∀ file ∈ Pack.files compilation options,
      file.1.isAbsolute = false ∧ ".." ∉ file.1.components)
    (hwrite : Pack.write compilation options (FileSystem.disk.directorySink root) files =
      (.ok summary, final)) :
    ∃ memory, Pack.write compilation options MemorySink.sink {} = (.ok summary, memory) ∧
      final.Mirrors (resolve files.workingDirectory root.segments) memory := by
  have hempty : files.Mirrors (resolve files.workingDirectory root.segments) {} := by
    refine ⟨List.nodup_nil, fun below content ↦ iff_of_false (hfree below content) ?_⟩
    rintro ⟨entry, hentry, -⟩
    cases hentry
  have hplain : ∀ file ∈ Pack.files compilation options, file.1.IsPlain := fun file hfile ↦
    isPlain_of_mem_files hfile (hpaths file hfile).1 (hpaths file hfile).2
  rcases takes_or_refusesAt (FileSystem.disk.directorySink root) files
    (Pack.files compilation options) with ⟨last, htakes⟩ | ⟨index, failure, last, hrefuses⟩
  · rw [(comesTo_of_takes htakes).write] at hwrite
    cases hwrite
    exact ⟨_, write_memory compilation options {}, mirrors_of_takes hempty hplain htakes⟩
  · rw [(comesTo_of_refusesAt hrefuses).write] at hwrite
    cases hwrite

/-- Below a directory that does not exist, the functions of two items go to one file, as they go to one
entry. -/
theorem mirrors_of_write_twoDoors :
    ∃ summary final, FileSystem.IsFreeOfFiles {} (resolve [] (Path.mk "out").segments) ∧
      (∀ file ∈ Pack.files (compile twoDoors) twoDoors.pack,
        file.1.isAbsolute = false ∧ ".." ∉ file.1.components) ∧
      Pack.write (compile twoDoors) twoDoors.pack (FileSystem.disk.directorySink ⟨"out"⟩) {} =
        (.ok summary, final) ∧
      ∃ memory,
        Pack.write (compile twoDoors) twoDoors.pack MemorySink.sink {} = (.ok summary, memory) ∧
          final.Mirrors (resolve [] (Path.mk "out").segments) memory := by
  have hwellFormed : FileSystem.IsWellFormed {} := by
    intro location name entry hentry
    simp [FileSystem.at?] at hentry
  have hfree : FileSystem.IsFreeOfFiles {} (resolve [] (Path.mk "out").segments) :=
    FileSystem.isFreeOfFiles_of_isVacant hwellFormed (Or.inl (by decide))
  have hpaths : ∀ file ∈ Pack.files (compile twoDoors) twoDoors.pack,
      file.1.isAbsolute = false ∧ ".." ∉ file.1.components := by
    decide +kernel
  have hok : (Pack.write (compile twoDoors) twoDoors.pack
      (FileSystem.disk.directorySink ⟨"out"⟩) {}).1.toBool := by
    decide +kernel
  cases hwrite : Pack.write (compile twoDoors) twoDoors.pack
      (FileSystem.disk.directorySink ⟨"out"⟩) {} with
  | mk outcome final =>
    rw [hwrite] at hok
    cases outcome with
    | error failure => cases hok
    | ok summary =>
      exact ⟨summary, final, hfree, hpaths, rfl,
        mirrors_of_write (compile twoDoors) twoDoors.pack ⟨"out"⟩ {} final summary hfree hpaths hwrite⟩

end FrameSorter
