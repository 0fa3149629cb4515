import Mathlib.Data.List.Basic
import FrameSorter.Proofs.ChangedFiles

/-!
# What a file system keeps

No operation removes anything: a directory stays a directory, and a file stays a file, whatever is written
to it (`Keeps`). So segments that led somewhere lead there ever after (`walk_of_keeps`,
`locateFile_of_keeps`), directories that were created once are there (`isDirectory_of_makeDirectories`)
and are not created again (`makeDirectories_again`). A file that was stored once can be stored again at any
later time, and then nothing changes but its content (`store_again`). Between two file systems of one
shape, the contents of files are all that may differ (`HasShapeOf`).
-/

set_option autoImplicit false
set_option relaxedAutoImplicit false

namespace FrameSorter

namespace FileSystem

variable {files made before after third : FileSystem} {here location : Location}

/-! ### Directories and files that stay -/

/-- Every directory is still one, and every file is still one. -/
structure Keeps (before after : FileSystem) : Prop where
  workingDirectory : after.workingDirectory = before.workingDirectory
  directory : ∀ location, before.at? location = some .directory →
    after.at? location = some .directory
  file : ∀ location content, before.at? location = some (.file content) →
    ∃ later, after.at? location = some (.file later)

theorem Keeps.refl (files : FileSystem) : files.Keeps files :=
  ⟨rfl, fun _ hdirectory ↦ hdirectory, fun _ content hfile ↦ ⟨content, hfile⟩⟩

theorem Keeps.trans (hfirst : before.Keeps after) (hsecond : after.Keeps third) :
    before.Keeps third where
  workingDirectory := hsecond.workingDirectory.trans hfirst.workingDirectory
  directory location hdirectory := hsecond.directory location (hfirst.directory location hdirectory)
  file location content hfile := by
    obtain ⟨later, hlater⟩ := hfirst.file location content hfile
    exact hsecond.file location later hlater

/-- A new directory takes the place of nothing. -/
theorem keeps_put_directory (hfree : files.at? location = none) :
    files.Keeps (files.put location .directory) := by
  have hne {other : Location} {entry : Entry} (hentry : files.at? other = some entry) :
      other ≠ location := by
    rintro rfl
    rw [hfree] at hentry
    cases hentry
  refine ⟨rfl, fun other hdirectory ↦ ?_, fun other content hfile ↦ ⟨content, ?_⟩⟩
  · rwa [at?_put_of_ne files _ (hne hdirectory)]
  · rwa [at?_put_of_ne files _ (hne hfile)]

/-- A file takes the place of no directory. -/
theorem keeps_put_file (hplace : files.at? location ≠ some .directory) (content : ByteArray) :
    files.Keeps (files.put location (.file content)) := by
  have hput := at?_put_self files (.file content) (ne_nil_of_not_directory hplace)
  refine ⟨rfl, fun other hdirectory ↦ ?_, fun other old hfile ↦ ?_⟩
  · have hne : other ≠ location := fun hsame ↦ hplace (hsame ▸ hdirectory)
    rwa [at?_put_of_ne files _ hne]
  · by_cases hsame : other = location
    · exact ⟨content, hsame ▸ hput⟩
    · exact ⟨old, by rwa [at?_put_of_ne files _ hsame]⟩

/-- Creating directories keeps everything. -/
theorem keeps_makeDirectories (files : FileSystem) (paths : List Path) :
    files.Keeps (files.makeDirectories paths).2 :=
  makeDirectories_induction (fun _ _ hkeeps hfree ↦ hkeeps.trans (keeps_put_directory hfree))
    (Keeps.refl files) paths

/-! ### Ways that stay -/

/-- A segment that could be followed can be followed. -/
theorem follow_of_keeps (hkeeps : before.Keeps after) {segment : String}
    (hfollow : before.follow here segment = .ok location) :
    after.follow here segment = .ok location := by
  unfold follow at hfollow ⊢
  split_ifs at hfollow ⊢
  · exact hfollow
  · exact hfollow
  · exact hfollow
  · split at hfollow
    · rename_i hdirectory
      simpa only [hkeeps.directory here hdirectory] using hfollow
    · cases hfollow
  · split at hfollow <;> cases hfollow

/-- One segment is walked if it can be followed to a directory. -/
theorem walk_cons_eq_ok_iff {segment : String} {rest : List String} :
    files.walk here (segment :: rest) = .ok location ↔
      ∃ next, files.follow here segment = .ok next ∧ files.at? next = some .directory ∧
        files.walk next rest = .ok location := by
  rw [walk]
  cases files.follow here segment with
  | error failure => simp
  | ok next =>
    cases hnext : files.at? next with
    | none => simp [hnext]
    | some entry => cases entry <;> simp [hnext]

/-- Segments that could be walked can be walked. -/
theorem walk_of_keeps (hkeeps : before.Keeps after) {segments : List String}
    (hwalk : before.walk here segments = .ok location) :
    after.walk here segments = .ok location := by
  induction segments generalizing here with
  | nil => exact hwalk
  | cons segment rest ih =>
    obtain ⟨next, hfollow, hdirectory, hrest⟩ := walk_cons_eq_ok_iff.mp hwalk
    exact walk_cons_eq_ok_iff.mpr
      ⟨next, follow_of_keeps hkeeps hfollow, hkeeps.directory next hdirectory, ih hrest⟩

/-- The last of some segments is followed from where the others lead. -/
theorem walk_concat_eq_ok_iff {segments : List String} {last : String} :
    files.walk here (segments ++ [last]) = .ok location ↔
      ∃ next, files.walk here segments = .ok next ∧ files.follow next last = .ok location ∧
        files.at? location = some .directory := by
  induction segments generalizing here with
  | nil =>
    rw [List.nil_append, walk_cons_eq_ok_iff]
    simp only [walk, Except.ok.injEq, exists_eq_left']
    constructor
    · rintro ⟨next, hfollow, hdirectory, rfl⟩
      exact ⟨hfollow, hdirectory⟩
    · rintro ⟨hfollow, hdirectory⟩
      exact ⟨location, hfollow, hdirectory, rfl⟩
  | cons segment rest ih =>
    rw [List.cons_append, walk_cons_eq_ok_iff]
    simp only [walk_cons_eq_ok_iff, ih]
    constructor
    · rintro ⟨next, hfollow, hdirectory, front, hrest, hlast⟩
      exact ⟨front, ⟨next, hfollow, hdirectory, hrest⟩, hlast⟩
    · rintro ⟨front, ⟨next, hfollow, hdirectory, hrest⟩, hlast⟩
      exact ⟨next, hfollow, hdirectory, front, hrest, hlast⟩

/-- Segments are located by their last one, from where the others lead. -/
theorem locate_concat_eq_ok_iff {segments : List String} {last : String} :
    files.locate (segments ++ [last]) = .ok location ↔
      ∃ next, files.walk files.workingDirectory segments = .ok next ∧
        files.follow next last = .ok location := by
  rw [locate, List.getLast?_concat, List.dropLast_concat]
  cases files.walk files.workingDirectory segments with
  | error failure => simp
  | ok next => simp

/-- Where a path can be written to is where it could be written to. -/
theorem locateFile_of_keeps (hkeeps : before.Keeps after) {path : Path}
    (hlocate : before.locateFile path = .ok location) : after.locateFile path = .ok location := by
  unfold locateFile at hlocate ⊢
  cases hcheck : checkText path with
  | error failure =>
    rw [hcheck] at hlocate
    cases hlocate
  | ok checked =>
    simp only [hcheck, bind, Except.bind] at hlocate ⊢
    split at hlocate
    · cases hlocate
    · cases hwalk : before.walk before.workingDirectory path.segments.dropLast with
      | error failure =>
        rw [hwalk] at hlocate
        cases hlocate
      | ok next =>
        rw [hkeeps.workingDirectory, walk_of_keeps hkeeps hwalk]
        simp only [hwalk] at hlocate ⊢
        split at hlocate
        · cases hlocate
        · rename_i hname
          rw [if_neg hname]
          exact follow_of_keeps hkeeps hlocate

/-- What segments lead to is found where it was found. -/
theorem locate_of_keeps (hkeeps : before.Keeps after) {segments : List String}
    (hlocate : before.locate segments = .ok location) : after.locate segments = .ok location := by
  rcases List.eq_nil_or_concat' segments with rfl | ⟨front, last, rfl⟩
  · cases hlocate
  · obtain ⟨next, hwalk, hfollow⟩ := locate_concat_eq_ok_iff.mp hlocate
    rw [locate_concat_eq_ok_iff, hkeeps.workingDirectory]
    exact ⟨next, walk_of_keeps hkeeps hwalk, follow_of_keeps hkeeps hfollow⟩

/-! ### Directories that were created -/

section Directories

variable {path : Path} {above : List Path}

/-- A path names a directory if it can be taken and leads to one. -/
theorem isDirectory_iff_locate :
    files.isDirectory path = true ↔
      checkText path = .ok () ∧
        ∃ location, files.locate path.segments = .ok location ∧
          files.at? location = some .directory := by
  unfold isDirectory entry?
  cases checkText path with
  | error failure => simp [bind, Except.bind]
  | ok checked =>
    cases files.locate path.segments with
    | error failure => simp [bind, Except.bind]
    | ok location =>
      cases hentry : files.at? location with
      | none => simp [bind, Except.bind, hentry]
      | some entry =>
        cases entry with
        | directory => simp [bind, Except.bind, hentry, Entry.isDirectory]
        | file content =>
          simp only [bind, Except.bind, hentry]
          split_ifs <;> simp [Entry.isDirectory, hentry]

/-- What named a directory names one. -/
theorem isDirectory_of_keeps (hkeeps : before.Keeps after) (hdirectory : before.isDirectory path = true) :
    after.isDirectory path = true := by
  obtain ⟨hcheck, location, hlocate, hplace⟩ := isDirectory_iff_locate.mp hdirectory
  exact isDirectory_iff_locate.mpr
    ⟨hcheck, location, locate_of_keeps hkeeps hlocate, hkeeps.directory location hplace⟩

/-- A directory that was created is there. -/
theorem isDirectory_of_makeDirectory (hmade : files.makeDirectory path = .ok made) :
    made.isDirectory path = true := by
  obtain ⟨hcheck, location, hlocate, hfree, rfl⟩ := eq_put_of_makeDirectory hmade
  have hplace : location ≠ [] := by
    rintro rfl
    cases hfree
  exact isDirectory_iff_locate.mpr
    ⟨hcheck, location, locate_of_keeps (keeps_put_directory hfree) hlocate,
      at?_put_self files .directory hplace⟩

/-- The directory that is created with those above it is there. -/
theorem isDirectory_of_makeDirectories
    (hmade : files.makeDirectories (path :: above) = (.ok (), made)) :
    made.isDirectory path = true := by
  rw [makeDirectories] at hmade
  -- The directory itself is made first, then behind those above it, or it was there.
  split at hmade
  · rename_i hfirst
    cases hmade
    exact isDirectory_of_makeDirectory hfirst
  · split at hmade
    · cases hmade
    · split at hmade
      · rename_i hlast
        cases hmade
        exact isDirectory_of_makeDirectory hlast
      · split at hmade
        · rename_i hdirectory
          cases hmade
          exact hdirectory
        · cases hmade
  · split at hmade
    · rename_i hdirectory
      cases hmade
      exact hdirectory
    · cases hmade

/-- A directory that is there is not created again. -/
theorem makeDirectories_of_isDirectory (hdirectory : files.isDirectory path = true) :
    files.makeDirectories (path :: above) = (.ok (), files) := by
  obtain ⟨hcheck, location, hlocate, hplace⟩ := isDirectory_iff_locate.mp hdirectory
  have hexists : files.makeDirectory path = .error .alreadyExists := by
    simp only [makeDirectory, hcheck, hlocate, hplace, bind, Except.bind]
  simp only [makeDirectories, hexists, hdirectory, if_true]

/-- Directories that were created once are not created again. -/
theorem makeDirectories_again {paths : List Path} (hmade : files.makeDirectories paths = (.ok (), made))
    (hkeeps : made.Keeps after) : after.makeDirectories paths = (.ok (), after) := by
  cases paths with
  | nil => rfl
  | cons path above =>
    exact makeDirectories_of_isDirectory
      (isDirectory_of_keeps hkeeps (isDirectory_of_makeDirectories hmade))

end Directories

/-! ### Files that were stored -/

section Stores

variable {root path : Path} {content : String}

/-- A stored file was written after the directories above it had been created. -/
theorem exists_made_of_store (hstored : files.store root path content = (.ok (), after)) :
    ∃ made, files.makeDirectories (root.join path).ancestors.tail = (.ok (), made) ∧
      files.Keeps made ∧ made.writeText (root.join path) content = .ok after := by
  unfold store at hstored
  dsimp only at hstored
  split at hstored
  · cases hstored
  · rename_i made hmade
    have hkeeps := keeps_makeDirectories files (root.join path).ancestors.tail
    rw [hmade] at hkeeps
    unfold store.write at hstored
    split at hstored
    · rename_i hwritten
      cases hstored
      exact ⟨made, hmade, hkeeps, hwritten⟩
    · cases hstored

/-- Storing a file keeps everything. -/
theorem keeps_store (hstored : files.store root path content = (.ok (), after)) :
    files.Keeps after := by
  obtain ⟨made, -, hkeeps, hwritten⟩ := exists_made_of_store hstored
  obtain ⟨location, -, hplace, rfl⟩ := exists_location_of_writeText hwritten
  exact hkeeps.trans (keeps_put_file hplace _)

/-- What was stored once can be stored again later, with any content. Then all that happens is that the
file gets this content. -/
theorem store_again (hstored : files.store root path content = (.ok (), after))
    (hkeeps : after.Keeps third) (other : String) :
    ∃ location old, third.at? location = some (.file old) ∧
      third.store root path other = (.ok (), third.put location (.file other.toUTF8)) := by
  obtain ⟨made, hmade, -, hwritten⟩ := exists_made_of_store hstored
  obtain ⟨location, hlocate, hplace, rfl⟩ := exists_location_of_writeText hwritten
  have hthird : made.Keeps third := (keeps_put_file hplace _).trans hkeeps
  obtain ⟨old, hold⟩ := hkeeps.file location _
    (at?_put_self made (.file content.toUTF8) (ne_nil_of_not_directory hplace))
  have hagain : store.write other third (root.join path) =
      (.ok (), third.put location (.file other.toUTF8)) := by
    unfold store.write writeText
    simp only [locateFile_of_keeps hthird hlocate, bind, Except.bind, hold]
  refine ⟨location, old, hold, ?_⟩
  unfold store
  dsimp only
  rw [makeDirectories_again hmade hthird]
  exact hagain

end Stores

/-! ### File systems of one shape -/

/-- The directories and the files are at the same locations. -/
structure HasShapeOf (after before : FileSystem) : Prop where
  workingDirectory : after.workingDirectory = before.workingDirectory
  isDirectory : ∀ location,
    (after.at? location).map Entry.isDirectory = (before.at? location).map Entry.isDirectory

theorem HasShapeOf.refl (files : FileSystem) : files.HasShapeOf files :=
  ⟨rfl, fun _ ↦ rfl⟩

theorem HasShapeOf.trans (hfirst : after.HasShapeOf before) (hsecond : third.HasShapeOf after) :
    third.HasShapeOf before where
  workingDirectory := hsecond.workingDirectory.trans hfirst.workingDirectory
  isDirectory location := (hsecond.isDirectory location).trans (hfirst.isDirectory location)

/-- Whether a location holds a directory, a file or nothing is told by the shape. -/
theorem HasShapeOf.keeps (hshape : after.HasShapeOf before) : before.Keeps after := by
  refine ⟨hshape.workingDirectory, fun location hdirectory ↦ ?_, fun location content hfile ↦ ?_⟩
  · have hkind := hshape.isDirectory location
    rw [hdirectory] at hkind
    cases hentry : after.at? location with
    | none => simp [hentry] at hkind
    | some entry => cases entry <;> simp_all [Entry.isDirectory]
  · have hkind := hshape.isDirectory location
    rw [hfile] at hkind
    cases hentry : after.at? location with
    | none => simp [hentry] at hkind
    | some entry => cases entry <;> simp_all [Entry.isDirectory]

/-- A file that gets another content leaves the shape. -/
theorem hasShapeOf_put_file {old : ByteArray} (hfile : files.at? location = some (.file old))
    (content : ByteArray) : (files.put location (.file content)).HasShapeOf files := by
  have hplace : files.at? location ≠ some .directory := by simp [hfile]
  refine ⟨rfl, fun other ↦ ?_⟩
  by_cases hsame : other = location
  · rw [hsame, at?_put_self files _ (ne_nil_of_not_directory hplace), hfile]
    rfl
  · rw [at?_put_of_ne files _ hsame]

end FileSystem

end FrameSorter
