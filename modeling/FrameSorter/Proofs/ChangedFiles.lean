import FrameSorter.Disk
import FrameSorter.Pack.Writing
import FrameSorter.Proofs.Resolution

/-!
# What a directory sink changes

Creating directories changes no regular file, and writing a text changes the file that its path names
and no other (`ChangesOnly`), which then has the text as its content (`at?_of_store`). So a pack that is
written below a directory changes no other regular files than those that the paths of the pack name from
there, whether all of it is written or not (`changesOnly_write`).
-/

set_option autoImplicit false
set_option relaxedAutoImplicit false

namespace FrameSorter

namespace FileSystem

variable {touched : Location → Prop} {files made : FileSystem} {location other : Location}

/-! ### Single entries -/

/-- An entry that is put elsewhere is not seen. -/
theorem at?_put_of_ne (files : FileSystem) (entry : Entry) (hne : other ≠ location) :
    (files.put location entry).at? other = files.at? other := by
  have hbeq : (other == location) = false := beq_eq_false_iff_ne.mpr hne
  have hlookup (entries : List (Location × Entry)) :
      (entries.filter (·.1 != location)).lookup other = entries.lookup other := by
    induction entries with
    | nil => rfl
    | cons first entries ih =>
      by_cases hfirst : first.1 = location
      · rw [List.filter_cons_of_neg (by simp [hfirst]), ih, List.lookup_cons, hfirst, hbeq]
      · rw [List.filter_cons_of_pos (by simpa using hfirst), List.lookup_cons, List.lookup_cons, ih]
  unfold at? put
  split
  · rfl
  · rw [List.lookup_cons, hbeq, hlookup]

/-- An entry that is put elsewhere than at the root is there. -/
theorem at?_put_self (files : FileSystem) (entry : Entry) (hlocation : location ≠ []) :
    (files.put location entry).at? location = some entry := by
  unfold at? put
  rw [if_neg hlocation, List.lookup_cons_self]

/-- The regular files of two file systems are the same, those at some locations apart, and so is the
working directory. -/
structure ChangesOnly (touched : Location → Prop) (before after : FileSystem) : Prop where
  workingDirectory : after.workingDirectory = before.workingDirectory
  file_iff : ∀ location, ¬ touched location → ∀ content,
    after.at? location = some (.file content) ↔ before.at? location = some (.file content)

theorem ChangesOnly.refl (touched : Location → Prop) (files : FileSystem) :
    ChangesOnly touched files files :=
  ⟨rfl, fun _ _ _ ↦ Iff.rfl⟩

theorem ChangesOnly.trans {first second third : FileSystem} (hfirst : ChangesOnly touched first second)
    (hsecond : ChangesOnly touched second third) : ChangesOnly touched first third where
  workingDirectory := hsecond.workingDirectory.trans hfirst.workingDirectory
  file_iff location hlocation content :=
    (hsecond.file_iff location hlocation content).trans (hfirst.file_iff location hlocation content)

/-- A new directory is no file, and neither is what it replaces. -/
theorem changesOnly_put_directory (hfree : files.at? location = none) :
    ChangesOnly touched files (files.put location .directory) := by
  refine ⟨rfl, fun other _ content ↦ ?_⟩
  by_cases hsame : other = location
  · have hput : (files.put location .directory).at? location = some .directory := by
      unfold at? put
      split
      · rfl
      · simp
    rw [hsame, hput, hfree]
    simp
  · rw [at?_put_of_ne files .directory hsame]

/-- A put entry changes its location. -/
theorem changesOnly_put (entry : Entry) (hlocation : touched location) :
    ChangesOnly touched files (files.put location entry) := by
  refine ⟨rfl, fun other hother content ↦ ?_⟩
  have hne : other ≠ location := by
    rintro rfl
    exact hother hlocation
  rw [at?_put_of_ne files entry hne]

/-! ### Directories -/

/-- Creating a directory puts one where the path leads to nothing. -/
theorem eq_put_of_makeDirectory {path : Path} (hmade : files.makeDirectory path = .ok made) :
    checkText path = .ok () ∧ ∃ location, files.locate path.segments = .ok location ∧
      files.at? location = none ∧ made = files.put location .directory := by
  unfold makeDirectory at hmade
  cases hcheck : checkText path with
  | error failure =>
    rw [hcheck] at hmade
    cases hmade
  | ok checked =>
    cases hlocate : files.locate path.segments with
    | error failure =>
      simp only [hcheck, hlocate, bind, Except.bind] at hmade
      cases hmade
    | ok location =>
      simp only [hcheck, hlocate, bind, Except.bind] at hmade
      split at hmade
      · cases hmade
      · rename_i hfree
        cases hmade
        exact ⟨rfl, location, rfl, hfree, rfl⟩

/-- What a new directory keeps true stays true when directories are created with those above them. -/
theorem makeDirectories_induction {motive : FileSystem → Prop}
    (hput : ∀ files location, motive files → files.at? location = none →
      motive (files.put location .directory))
    (hfiles : motive files) (paths : List Path) : motive (files.makeDirectories paths).2 := by
  have hmake {start next : FileSystem} {path : Path} (hstart : motive start)
      (hnext : start.makeDirectory path = .ok next) : motive next := by
    obtain ⟨-, location, -, hfree, rfl⟩ := eq_put_of_makeDirectory hnext
    exact hput start location hstart hfree
  -- Whatever fails, all that happened until then is that directories were made.
  induction paths with
  | nil => exact hfiles
  | cons path above ih =>
    rw [makeDirectories]
    split
    · rename_i hmade
      exact hmake hfiles hmade
    · split
      · rename_i habove
        rwa [habove] at ih
      · rename_i habove
        rw [habove] at ih
        split
        · rename_i hcomplete
          exact hmake ih hcomplete
        · split <;> exact ih
    · split <;> exact hfiles

/-- Creating directories changes no file. -/
theorem changesOnly_makeDirectories (files : FileSystem) (paths : List Path) :
    ChangesOnly touched files (files.makeDirectories paths).2 :=
  makeDirectories_induction (fun _ _ hchanges hfree ↦ hchanges.trans (changesOnly_put_directory hfree))
    (ChangesOnly.refl touched files) paths

/-! ### Texts -/

/-- A location that holds no directory is not the root. -/
theorem ne_nil_of_not_directory (hplace : files.at? location ≠ some .directory) : location ≠ [] := by
  rintro rfl
  exact hplace rfl

/-- A text is written to a place that holds no directory. -/
theorem exists_location_of_writeText {target : Path} {content : String}
    (hwritten : files.writeText target content = .ok made) :
    ∃ location, files.locateFile target = .ok location ∧
      files.at? location ≠ some .directory ∧
        made = files.put location (.file content.toUTF8) := by
  unfold writeText at hwritten
  cases hlocate : files.locateFile target with
  | error failure =>
    rw [hlocate] at hwritten
    cases hwritten
  | ok location =>
    simp only [hlocate, bind, Except.bind] at hwritten
    split at hwritten
    · cases hwritten
    · rename_i hplace
      cases hwritten
      exact ⟨location, rfl, hplace, rfl⟩

/-- A text that is written is put where its path leads, and that is not the root. -/
theorem eq_put_of_writeText {target : Path} {content : String}
    (hwritten : files.writeText target content = .ok made) :
    resolve files.workingDirectory target.segments ≠ [] ∧
      made =
        files.put (resolve files.workingDirectory target.segments) (.file content.toUTF8) := by
  obtain ⟨location, hlocate, hplace, rfl⟩ := exists_location_of_writeText hwritten
  rw [← locateFile_eq_resolve hlocate]
  exact ⟨ne_nil_of_not_directory hplace, rfl⟩

/-- Writing a text changes the file that its path names. -/
theorem changesOnly_storeWrite {content : String} {target : Path}
    (htarget : touched (resolve files.workingDirectory target.segments)) :
    ChangesOnly touched files (store.write content files target).2 := by
  unfold store.write
  split
  · rename_i hwritten
    obtain ⟨-, rfl⟩ := eq_put_of_writeText hwritten
    exact changesOnly_put _ htarget
  · exact ChangesOnly.refl touched files

/-- A text that is written is the content of the file that its path names. -/
theorem at?_of_storeWrite {content : String} {target : Path}
    (hstored : store.write content files target = (.ok (), made)) :
    made.at? (resolve files.workingDirectory target.segments) = some (.file content.toUTF8) := by
  unfold store.write at hstored
  split at hstored
  · rename_i hwritten
    obtain ⟨hroot, rfl⟩ := eq_put_of_writeText hwritten
    cases hstored
    exact at?_put_self files _ hroot
  · cases hstored

/-- Storing a text changes the file that its path names from the root. -/
theorem changesOnly_store {root path : Path} (content : String)
    (htarget : touched (resolve files.workingDirectory (root.join path).segments)) :
    ChangesOnly touched files (files.store root path content).2 := by
  have hmade : ChangesOnly touched files
      (files.makeDirectories (root.join path).ancestors.tail).2 :=
    changesOnly_makeDirectories files _
  unfold store
  dsimp only
  split
  · rename_i hfailed
    rwa [hfailed] at hmade
  · rename_i made hcreated
    rw [hcreated] at hmade
    refine hmade.trans (changesOnly_storeWrite ?_)
    rwa [hmade.workingDirectory]

/-- A text that is stored is the content of the file that its path names from the root. -/
theorem at?_of_store {root path : Path} {content : String}
    (hstored : files.store root path content = (.ok (), made)) :
    made.at? (resolve files.workingDirectory (root.join path).segments) =
      some (.file content.toUTF8) := by
  have hmade : ChangesOnly (fun _ ↦ True) files
      (files.makeDirectories (root.join path).ancestors.tail).2 :=
    changesOnly_makeDirectories files _
  unfold store at hstored
  dsimp only at hstored
  split at hstored
  · cases hstored
  · rename_i between hcreated
    rw [hcreated] at hmade
    rw [← hmade.workingDirectory]
    exact at?_of_storeWrite hstored

end FileSystem

/-! ### Packs -/

/-- The sink of a directory stores its files from there. -/
theorem directorySink_write (root path : Path) (content : String) (files : FileSystem) :
    (FileSystem.disk.directorySink root).write path content files = files.store root path content := by
  unfold Disk.directorySink FileSystem.disk
  rfl

/-- Writing a list of files changes the files that their paths name from the root. -/
theorem changesOnly_writeFiles {touched : Location → Prop} {root : Path} {written : List (Path × String)}
    {files : FileSystem}
    (htouched : ∀ file ∈ written,
      touched (resolve files.workingDirectory (root.join file.1).segments)) :
    FileSystem.ChangesOnly touched files
      (Pack.writeFiles (FileSystem.disk.directorySink root) written files).2 := by
  induction written generalizing files with
  | nil => exact FileSystem.ChangesOnly.refl touched files
  | cons file written ih =>
    obtain ⟨path, content⟩ := file
    have hstored := FileSystem.changesOnly_store content (htouched _ List.mem_cons_self)
    rw [← directorySink_write] at hstored
    cases hwrite : (FileSystem.disk.directorySink root).write path content files with
    | mk outcome next =>
      rw [hwrite] at hstored
      simp only [Pack.writeFiles, bind, StateT.bind, hwrite]
      cases outcome with
      | error cause => exact hstored
      | ok stored =>
        refine hstored.trans (ih fun file hfile ↦ ?_)
        rw [hstored.workingDirectory]
        exact htouched file (List.mem_cons_of_mem _ hfile)

/-- Writing a pack changes the files that the paths of the pack name from the root. -/
theorem changesOnly_write {touched : Location → Prop} (compilation : Compilation)
    (options : PackOptions) {root : Path} {files : FileSystem}
    (htouched : ∀ file ∈ Pack.files compilation options,
      touched (resolve files.workingDirectory (root.join file.1).segments)) :
    FileSystem.ChangesOnly touched files
      (Pack.write compilation options (FileSystem.disk.directorySink root) files).2 := by
  have hchanges := changesOnly_writeFiles htouched
  cases hfiles : Pack.writeFiles (FileSystem.disk.directorySink root)
      (Pack.files compilation options) files with
  | mk outcome next =>
    rw [hfiles] at hchanges
    simp only [Pack.write, bind, StateT.bind, hfiles]
    cases outcome <;> exact hchanges

end FrameSorter
