import FrameSorter.Loading
import FrameSorter.Proofs.DirectoryEntries
import FrameSorter.Proofs.Simulation

/-!
# What loading decides

Whether a configuration is loaded from a path, which one, and the error otherwise are all a matter of what
the file system has there (`DecidesLoading`). A path that is no directory is itself the file: its extension
gives the format, or the path is refused before anything is looked up. In a directory the three files with
the default name are looked for, and what they are does not matter then: none and more than one are errors,
and a single one is loaded as if it had been given, so that a directory under such a name is an error, too.
A file in a directory exists if the directory has an entry with its name, as long as the path to it is not
beyond the length limit of all paths (`HasCandidate`).
-/

set_option autoImplicit false
set_option relaxedAutoImplicit false

namespace FrameSorter

/-! ### Formats of files -/

section Formats

variable {path directory : Path} {format : Format}

/-- The format of a file is the one that has its extension. -/
theorem ofPath?_eq_some_iff :
    Format.ofPath? path = some format ↔ path.extension? = some format.extension := by
  unfold Format.ofPath?
  cases path.extension? with
  | none => simp
  | some extension =>
    rw [Option.bind_some, Option.some.injEq]
    constructor
    · intro hfound
      have hextension := List.find?_some hfound
      exact (beq_iff_eq.mp hextension).symm
    · rintro rfl
      cases format <;> rfl

/-- A file has no format if no format has its extension. -/
theorem ofPath?_eq_none_iff :
    Format.ofPath? path = none ↔ ∀ format : Format, path.extension? ≠ some format.extension := by
  simp only [Option.eq_none_iff_forall_ne_some, ne_eq, ofPath?_eq_some_iff]

/-- The files that are looked for have the default name and an extension. -/
theorem isFileName_candidate (format : Format) :
    IsFileName (defaultConfigName ++ "." ++ format.extension) := by
  cases format <;> exact ⟨by decide, by decide, by decide, by decide, by decide⟩

/-- They have the format that they are looked for in. -/
theorem ofPath?_candidate (hdirectory : directory.segments ≠ []) (format : Format) :
    Format.ofPath? (candidate directory defaultConfigName format) = some format := by
  have hname := isFileName_candidate format
  have hdot : defaultConfigName ++ "." ++ format.extension ≠ "." := by
    cases format <;> decide
  have hcomponents : (candidate directory defaultConfigName format).components =
      directory.components ++ [defaultConfigName ++ "." ++ format.extension] := by
    rw [candidate, Path.components_join (Path.isAbsolute_of_notMem hname.slash) hdirectory,
      Path.pieces_of_notMem hname.slash hname.nonempty, List.filter_cons_of_pos (by simpa using hdot),
      List.filter_nil]
  have hfile : (candidate directory defaultConfigName format).fileName? =
      some (defaultConfigName ++ "." ++ format.extension) := by
    rw [Path.fileName?, hcomponents, List.getLast?_concat]
    cases format <;> decide
  rw [ofPath?_eq_some_iff, Path.extension?, hfile]
  cases format <;> decide

end Formats

/-! ### Files of a directory -/

namespace FileSystem

variable {files : FileSystem} {directory : Path}

/-- Where a directory has its file with the default name for a format, if it has one. -/
def candidateLocation (files : FileSystem) (directory : Path) (format : Format) : Location :=
  resolve files.workingDirectory directory.segments ++ [defaultConfigName ++ "." ++ format.extension]

/-- A directory has an entry with the default name for a format, and the path to it is within the limit. -/
def HasCandidate (files : FileSystem) (directory : Path) (format : Format) : Prop :=
  (candidate directory defaultConfigName format).text.utf8ByteSize ≤ pathLimit ∧
    (files.at? (files.candidateLocation directory format)).isSome

instance (files : FileSystem) (directory : Path) : DecidablePred (files.HasCandidate directory) :=
  fun _ ↦ inferInstanceAs (Decidable (_ ∧ _))

/-- The formats for which a directory has an entry with the default name, in their order. -/
def candidates (files : FileSystem) (directory : Path) : List Format :=
  Format.all.filter (files.HasCandidate directory ·)

/-- What a file with the default name is, is told by the directory. -/
theorem entry?_candidate (hdirectory : files.isDirectory directory = true) (format : Format) :
    files.entry? (candidate directory defaultConfigName format) =
      if pathLimit < (candidate directory defaultConfigName format).text.utf8ByteSize then
        .error .nameTooLong
      else
        match files.at? (files.candidateLocation directory format) with
        | none => .error .notFound
        | some entry => .ok entry :=
  entry?_join hdirectory (isFileName_candidate format)

/-- A file with the default name is present if the directory has it. -/
theorem isPresent_candidate_iff (hdirectory : files.isDirectory directory = true) (format : Format) :
    files.isPresent (candidate directory defaultConfigName format) = true ↔
      files.HasCandidate directory format := by
  rw [isPresent, entry?_candidate hdirectory, HasCandidate]
  split_ifs with hlimit
  · simp [Except.toBool, Nat.not_le.mpr hlimit]
  · rw [and_iff_right (Nat.not_lt.mp hlimit)]
    split <;> simp_all [Except.toBool]

/-- The files that are present are those that the directory has. -/
theorem filter_isPresent (hdirectory : files.isDirectory directory = true) :
    (Format.all.filter fun format ↦ files.isPresent (candidate directory defaultConfigName format)) =
      files.candidates directory := by
  refine List.filter_congr fun format _ ↦ Bool.eq_iff_iff.mpr ?_
  rw [isPresent_candidate_iff hdirectory, decide_eq_true_iff]

/-- A file that the directory has is itself a directory if that is the entry under its name. -/
theorem isDirectory_candidate (hdirectory : files.isDirectory directory = true) {format : Format}
    (hcandidate : files.HasCandidate directory format)
    (hentry : files.at? (files.candidateLocation directory format) = some .directory) :
    files.isDirectory (candidate directory defaultConfigName format) = true := by
  rw [isDirectory_iff, entry?_candidate hdirectory, if_neg (Nat.not_lt.mpr hcandidate.1), hentry]

/-- Every format is looked for. -/
theorem mem_candidates_iff {format : Format} :
    format ∈ files.candidates directory ↔ files.HasCandidate directory format := by
  have hall : format ∈ Format.all := by cases format <;> decide
  simp [candidates, hall]

/-- A directory has a file for a single format if it has that one and none for another. -/
theorem candidates_eq_singleton_iff {format : Format} :
    files.candidates directory = [format] ↔
      ∀ other, files.HasCandidate directory other ↔ other = format := by
  constructor
  · intro hsole other
    rw [← mem_candidates_iff, hsole, List.mem_singleton]
  · intro hsole
    have hcandidate : ∀ other ∈ Format.all,
        decide (files.HasCandidate directory other) = decide (other = format) :=
      fun other _ ↦ decide_eq_decide.mpr (hsole other)
    rw [candidates, List.filter_congr hcandidate]
    cases format <;> rfl

end FileSystem

/-! ### Loading from a file system -/

section Equations

/-- A path that is present is found. -/
theorem presentPaths_disk (paths : List Path) (files : FileSystem) :
    presentPaths FileSystem.disk paths files = (paths.filter files.isPresent, files) := by
  induction paths with
  | nil => rfl
  | cons path paths ih =>
    have hpresent : FileSystem.disk.isPresent path files = (files.isPresent path, files) := rfl
    simp only [presentPaths, bind, StateT.bind, hpresent, ih, List.filter_cons]
    rfl

/-- In a directory a single file is found, and more than one is a conflict of the first two. -/
theorem findConfigFile_disk {files : FileSystem} {directory : Path}
    (hdirectory : files.isDirectory directory = true) :
    findConfigFile FileSystem.disk directory defaultConfigName files =
      (match files.candidates directory with
        | [] => .ok none
        | [format] => .ok (some (candidate directory defaultConfigName format))
        | first :: second :: _ =>
          .error (.conflictingFormats (candidate directory defaultConfigName first)
            (candidate directory defaultConfigName second)), files) := by
  have hpresent : presentPaths FileSystem.disk
      (Format.all.map (candidate directory defaultConfigName)) files =
        ((files.candidates directory).map (candidate directory defaultConfigName), files) := by
    rw [presentPaths_disk, List.filter_map, ← FileSystem.filter_isPresent hdirectory]
    rfl
  simp only [findConfigFile, bind, StateT.bind, hpresent]
  match files.candidates directory with
  | [] => rfl
  | [_] => rfl
  | _ :: _ :: _ => rfl

/-- A path stands for itself if it is no directory, and a directory for its single file. -/
theorem configFile_disk (files : FileSystem) (path : Path) :
    configFile FileSystem.disk path files =
      (if files.isDirectory path then
        match files.candidates path with
        | [] => .error (.missingConfig defaultConfigName path)
        | [format] => .ok (candidate path defaultConfigName format)
        | first :: second :: _ =>
          .error (.conflictingFormats (candidate path defaultConfigName first)
            (candidate path defaultConfigName second))
      else .ok path, files) := by
  have hlooked : FileSystem.disk.isDirectory path files = (files.isDirectory path, files) := rfl
  simp only [configFile, bind, StateT.bind, hlooked]
  cases hdirectory : files.isDirectory path with
  | false => rfl
  | true =>
    simp only [if_true, requireConfigFile, bind, StateT.bind, findConfigFile_disk hdirectory]
    match files.candidates path with
    | [] => rfl
    | [_] => rfl
    | _ :: _ :: _ => rfl

/-- A file is read in the format that its extension names. -/
theorem loadFile_disk (files : FileSystem) (file : Path) :
    loadFile FileSystem.disk file files =
      (match Format.ofPath? file with
        | none => .error (.unsupportedFormat file)
        | some format =>
          match files.readText file with
          | .error failure => .error (.io failure)
          | .ok content => parseConfig content format file, files) := by
  unfold loadFile detectFormat
  cases Format.ofPath? file with
  | none => rfl
  | some format =>
    have hread : FileSystem.disk.readText file files = (files.readText file, files) := rfl
    simp only [bind, StateT.bind, hread]
    cases files.readText file <;> rfl

/-- A configuration is loaded from the file that its path stands for. -/
theorem loadConfig_of_configFile {files : FileSystem} {path : Path} {found : Except LoadError Path} :
    configFile FileSystem.disk path files = (found, files) →
      loadConfig FileSystem.disk path files =
        match found with
        | .error error => (.error error, files)
        | .ok file => loadFile FileSystem.disk file files := by
  intro hfile
  simp only [loadConfig, bind, StateT.bind, hfile]
  cases found <;> rfl

end Equations

/-! ### What is loaded -/

namespace FileSystem

/-- What loading a path comes to. -/
def loaded (files : FileSystem) (path : Path) : Except LoadError Configuration :=
  (loadConfig disk path files).1

/-- A path names a regular file whose content is a text that is this configuration in this format. -/
def Holds (files : FileSystem) (file : Path) (format : Format) (config : Configuration) : Prop :=
  ∃ content text, files.entry? file = .ok (.file content) ∧ String.fromUTF8? content = some text ∧
    parseConfig text format file = .ok config

/-- A directory has a file with the default name for this format, and for no other one. -/
def HasOnly (files : FileSystem) (directory : Path) (format : Format) : Prop :=
  ∀ other, files.HasCandidate directory other ↔ other = format

variable {files : FileSystem} {path file : Path} {format : Format} {config : Configuration}

/-- A file holds a configuration if its text is read and parsed as the configuration. -/
theorem holds_iff :
    files.Holds file format config ↔
      ∃ text, files.readText file = .ok text ∧ parseConfig text format file = .ok config := by
  unfold Holds readText
  cases files.entry? file with
  | error failure => simp
  | ok entry =>
    cases entry with
    | directory => simp
    | file content => cases htext : String.fromUTF8? content <;> simp [htext]

/-- A file is loaded if it holds a configuration in the format of its extension. -/
theorem loadFile_eq_ok_iff :
    (loadFile disk file files).1 = .ok config ↔
      ∃ format, Format.ofPath? file = some format ∧ files.Holds file format config := by
  rw [loadFile_disk]
  cases Format.ofPath? file with
  | none => simp
  | some format =>
    simp only [Option.some.injEq, exists_eq_left', holds_iff]
    cases files.readText file <;> simp

/-- A file that is a directory is not loaded. -/
theorem loadFile_of_isDirectory (hformat : Format.ofPath? file = some format)
    (hdirectory : files.isDirectory file = true) :
    (loadFile disk file files).1 = .error (.io .isDirectory) := by
  have hread : files.readText file = .error .isDirectory := by
    rw [readText, isDirectory_iff.mp hdirectory]
  rw [loadFile_disk, hformat]
  simp only [hread]

/-- A path that is no directory is loaded as the file itself. -/
theorem loaded_of_not_directory (hfile : files.isDirectory path = false) :
    files.loaded path = (loadFile disk path files).1 := by
  have hfound := configFile_disk files path
  rw [hfile, if_neg Bool.false_ne_true] at hfound
  rw [loaded, loadConfig_of_configFile hfound]

/-- A directory is loaded as its single file, if it has just one. -/
theorem loaded_of_directory (hdirectory : files.isDirectory path = true) :
    files.loaded path =
      match files.candidates path with
      | [] => .error (.missingConfig defaultConfigName path)
      | [format] => (loadFile disk (candidate path defaultConfigName format) files).1
      | first :: second :: _ =>
        .error (.conflictingFormats (candidate path defaultConfigName first)
          (candidate path defaultConfigName second)) := by
  have hfound := configFile_disk files path
  rw [hdirectory, if_pos rfl] at hfound
  rw [loaded, loadConfig_of_configFile hfound]
  match files.candidates path with
  | [] => rfl
  | [_] => rfl
  | _ :: _ :: _ => rfl

/-- What loading a path comes to. A configuration is loaded from a file with a known extension, or from the
only file with the default name in a directory, and in no other case. More than one such file in a
directory is a conflict, which names the first two, whatever they are and whatever is in them; none at all
is an error as well, and so is one that is a directory. A path with another extension is refused even where
it names nothing. -/
structure DecidesLoading (files : FileSystem) (path : Path) : Prop where
  ok_iff : ∀ config, files.loaded path = .ok config ↔
    (files.isDirectory path = false ∧
      ∃ format : Format, path.extension? = some format.extension ∧ files.Holds path format config) ∨
    (files.isDirectory path = true ∧
      ∃ format, files.HasOnly path format ∧
        files.Holds (candidate path defaultConfigName format) format config)
  conflicting : files.isDirectory path = true → ∀ first second others,
    files.candidates path = first :: second :: others →
      files.loaded path = .error (.conflictingFormats (candidate path defaultConfigName first)
        (candidate path defaultConfigName second))
  missing : files.isDirectory path = true →
    (∀ format, ¬ files.HasCandidate path format) →
      files.loaded path = .error (.missingConfig defaultConfigName path)
  directory : files.isDirectory path = true → ∀ format, files.HasOnly path format →
    files.at? (files.candidateLocation path format) = some .directory →
      files.loaded path = .error (.io .isDirectory)
  unsupported : files.isDirectory path = false →
    (∀ format : Format, path.extension? ≠ some format.extension) →
      files.loaded path = .error (.unsupportedFormat path)

/-- A directory is loaded as a configuration if it has a single file and this holds the configuration. -/
theorem loaded_directory_eq_ok_iff (hdirectory : files.isDirectory path = true) :
    files.loaded path = .ok config ↔
      ∃ format, files.HasOnly path format ∧
        files.Holds (candidate path defaultConfigName format) format config := by
  obtain ⟨-, hsegments, -⟩ := exists_walk_of_isDirectory hdirectory
  simp only [HasOnly, ← candidates_eq_singleton_iff]
  rw [loaded_of_directory hdirectory]
  match files.candidates path with
  | [] => simp
  | [format] =>
    simp only [loadFile_eq_ok_iff, ofPath?_candidate hsegments, Option.some.injEq, exists_eq_left',
      List.cons.injEq, and_true]
  | _ :: _ :: _ => simp

/-- Loading decides for every file system and every path. -/
theorem decidesLoading (files : FileSystem) (path : Path) : files.DecidesLoading path where
  ok_iff config := by
    cases hdirectory : files.isDirectory path with
    | false =>
      simp only [loaded_of_not_directory hdirectory, loadFile_eq_ok_iff, ofPath?_eq_some_iff, true_and,
        Bool.false_eq_true, false_and, or_false]
    | true =>
      simp only [loaded_directory_eq_ok_iff hdirectory, Bool.true_eq_false, false_and, false_or, true_and]
  conflicting hdirectory first second others hcandidates := by
    rw [loaded_of_directory hdirectory, hcandidates]
  missing hdirectory hnone := by
    have hcandidates : files.candidates path = [] :=
      List.eq_nil_iff_forall_not_mem.mpr fun format ↦ mt mem_candidates_iff.mp (hnone format)
    rw [loaded_of_directory hdirectory, hcandidates]
  directory hdirectory format honly hentry := by
    obtain ⟨-, hsegments, -⟩ := exists_walk_of_isDirectory hdirectory
    have hcandidate := isDirectory_candidate hdirectory ((honly format).mpr rfl) hentry
    rw [loaded_of_directory hdirectory, candidates_eq_singleton_iff.mpr honly]
    exact loadFile_of_isDirectory (ofPath?_candidate hsegments format) hcandidate
  unsupported hfile hextension := by
    rw [loaded_of_not_directory hfile, loadFile_disk, ofPath?_eq_none_iff.mpr hextension]

example :
    loaded
        { entries := [(["sorter.ron"], .directory), (["sorter.json"], .file "\x7b\x7d".toUTF8)] } ⟨"."⟩ =
      .error (.conflictingFormats ⟨"./sorter.ron"⟩ ⟨"./sorter.json"⟩) := by
  decide +kernel

end FileSystem

end FrameSorter
