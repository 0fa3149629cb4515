import FrameSorter.Proofs.FunctionFiles
import FrameSorter.Proofs.KeptEntries
import FrameSorter.Proofs.OfferedFiles

/-!
# Building a pack again

A pack that was written is written again to the same place with the same summary, and then the place is as
it was (`write_again`). The files of a pack may go to one place several times, so it is not enough that
each of them can be written twice. For a memory sink, an earlier write to a place is lost in a later one,
and writes to different places can be exchanged, so the second run ends with the contents that the first
one ended with (`MemorySink.writeAll_writeAll`). For a directory, the second run only rewrites files
(`takes_again`), and where a run writes, what it leaves does not depend on what it found
(`agree_of_takes`).
-/

set_option autoImplicit false
set_option relaxedAutoImplicit false

namespace FrameSorter

namespace MemorySink

variable {memory : MemorySink} {first second : Path} {old content : String}

/-! ### Writes to a memory sink, exchanged and repeated -/

/-- Of two writes to an entry only the second one is seen. -/
theorem writeEntries_writeEntries_of_mem {entries : List (Path × String)}
    (hsame : first.components = second.components) (hplace : first.components ∈ entries.map placeOf) :
    writeEntries second content (writeEntries first old entries) =
      writeEntries second content entries := by
  induction entries with
  | nil => cases hplace
  | cons entry entries ih =>
    obtain ⟨known, text⟩ := entry
    by_cases hknown : known.components = first.components
    · simp only [writeEntries, if_pos hknown, if_pos (hknown.trans hsame)]
    · have hrest := ih (List.mem_of_ne_of_mem (Ne.symm hknown) hplace)
      rw [hsame] at hknown
      simp only [writeEntries, hsame, if_neg hknown, hrest]

/-- A write is repeated by the same path with any content. -/
theorem writeEntries_writeEntries_self (path : Path) (entries : List (Path × String)) :
    writeEntries path content (writeEntries path old entries) = writeEntries path content entries := by
  induction entries with
  | nil => simp [writeEntries]
  | cons entry entries ih =>
    obtain ⟨known, text⟩ := entry
    by_cases hknown : known.components = path.components
    · simp only [writeEntries, if_pos hknown]
    · simp only [writeEntries, if_neg hknown, ih]

/-- A write to an entry and a write to another place can be exchanged. -/
theorem writeEntries_comm {entries : List (Path × String)}
    (hne : first.components ≠ second.components) (hplace : second.components ∈ entries.map placeOf) :
    writeEntries second content (writeEntries first old entries) =
      writeEntries first old (writeEntries second content entries) := by
  induction entries with
  | nil => cases hplace
  | cons entry entries ih =>
    obtain ⟨known, text⟩ := entry
    by_cases hfirst : known.components = first.components
    · have hsecond : known.components ≠ second.components := fun hsame ↦
        hne (hfirst.symm.trans hsame)
      simp only [writeEntries, if_pos hfirst, if_neg hsecond]
    · by_cases hsecond : known.components = second.components
      · simp only [writeEntries, if_neg hfirst, if_pos hsecond]
      · have hrest := ih (List.mem_of_ne_of_mem (Ne.symm hsecond) hplace)
        simp only [writeEntries, if_neg hfirst, if_neg hsecond, hrest]

/-- A write in front of others is lost if it is repeated behind them and all of them go to entries. -/
theorem write_writeAll_write {files : List (Path × String)} (path : Path) (text : String)
    (hplaces : ∀ file ∈ files, placeOf file ∈ memory.entries.map placeOf) :
    ((memory.write path text).writeAll files).write path text =
      (memory.writeAll files).write path text := by
  induction files generalizing memory with
  | nil => exact congrArg MemorySink.mk (writeEntries_writeEntries_self path memory.entries)
  | cons file files ih =>
    obtain ⟨other, content⟩ := file
    have hother : other.components ∈ memory.entries.map placeOf :=
      hplaces (other, content) List.mem_cons_self
    have hrest : ∀ file ∈ files, placeOf file ∈ (memory.write other content).entries.map placeOf :=
      fun file hfile ↦
        mem_map_placeOf_write_iff.mpr (Or.inl (hplaces file (List.mem_cons_of_mem _ hfile)))
    have hstep (start : MemorySink) :
        start.writeAll ((other, content) :: files) = (start.write other content).writeAll files :=
      rfl
    rw [hstep, hstep]
    by_cases hsame : path.components = other.components
    · have hlost : (memory.write path text).write other content = memory.write other content :=
        congrArg MemorySink.mk (writeEntries_writeEntries_of_mem hsame (hsame ▸ hother))
      rw [hlost]
    · have hcomm : (memory.write path text).write other content =
          (memory.write other content).write path text :=
        congrArg MemorySink.mk (writeEntries_comm hsame hother)
      rw [hcomm, ih hrest]

/-- A list of files that was written can be written again without a change. -/
theorem writeAll_writeAll (memory : MemorySink) (files : List (Path × String)) :
    (memory.writeAll files).writeAll files = memory.writeAll files := by
  induction files using List.reverseRecOn with
  | nil => rfl
  | append_singleton files file ih =>
    have hplaces : ∀ other ∈ files, placeOf other ∈ (memory.writeAll files).entries.map placeOf :=
      fun other hother ↦ mem_places_writeAll_iff.mpr (Or.inr (List.mem_map_of_mem hother))
    rw [writeAll_concat, writeAll_concat, write_writeAll_write file.1 file.2 hplaces, ih]

end MemorySink

/-! ### Files written to a directory again -/

section Directories

variable {root : Path} {written : List (Path × String)}
variable {files final later first second firstFinal secondFinal : FileSystem}

/-- The locations that files are written to below a root. -/
def targets (root : Path) (here : Location) (written : List (Path × String)) : List Location :=
  written.map fun file ↦ resolve here (root.join file.1).segments

/-- Writing files keeps everything. -/
theorem keeps_of_takes (htakes : (FileSystem.disk.directorySink root).Takes files written final) :
    files.Keeps final := by
  induction htakes with
  | nil files => exact FileSystem.Keeps.refl files
  | cons hwrite _ ih =>
    rw [directorySink_write] at hwrite
    exact (FileSystem.keeps_store hwrite).trans ih

/-- Files that were written can be written again at any later time, and then no file and no directory is
added. -/
theorem takes_again (htakes : (FileSystem.disk.directorySink root).Takes files written final)
    (hkeeps : final.Keeps later) :
    ∃ again, (FileSystem.disk.directorySink root).Takes later written again ∧
      again.HasShapeOf later := by
  induction htakes generalizing later with
  | nil files => exact ⟨later, .nil later, FileSystem.HasShapeOf.refl later⟩
  | @cons files next final path content rest hwrite hrest ih =>
    rw [directorySink_write] at hwrite
    obtain ⟨location, old, hold, hstored⟩ :=
      FileSystem.store_again hwrite ((keeps_of_takes hrest).trans hkeeps) content
    have hshape := FileSystem.hasShapeOf_put_file hold content.toUTF8
    obtain ⟨again, hagain, hsame⟩ := ih (hkeeps.trans hshape.keeps)
    rw [← directorySink_write] at hstored
    exact ⟨again, .cons hstored hagain, hshape.trans hsame⟩

/-- Two file systems have a file with one content at a location. -/
def HaveSameFile (first second : FileSystem) (location : Location) : Prop :=
  ∃ content, first.at? location = some (.file content) ∧ second.at? location = some (.file content)

/-- Where two file systems have the same file they still have it when both take a file. -/
theorem haveSameFile_store {path : Path} {content : String} {location : Location}
    (hfirst : first.store root path content = (.ok (), firstFinal))
    (hsecond : second.store root path content = (.ok (), secondFinal))
    (hworking : second.workingDirectory = first.workingDirectory)
    (hplace : HaveSameFile first second location ∨
      location = resolve first.workingDirectory (root.join path).segments) :
    HaveSameFile firstFinal secondFinal location := by
  have hput := FileSystem.at?_of_store hfirst
  have hputSecond := FileSystem.at?_of_store hsecond
  rw [hworking] at hputSecond
  by_cases htarget : location = resolve first.workingDirectory (root.join path).segments
  · exact ⟨content.toUTF8, htarget ▸ hput, htarget ▸ hputSecond⟩
  · obtain ⟨old, hold, holdSecond⟩ := hplace.resolve_right htarget
    have hchanges : FileSystem.ChangesOnly (· ≠ location) first (first.store root path content).2 :=
      FileSystem.changesOnly_store content (Ne.symm htarget)
    have hchangesSecond :
        FileSystem.ChangesOnly (· ≠ location) second (second.store root path content).2 :=
      FileSystem.changesOnly_store content (hworking ▸ Ne.symm htarget)
    rw [hfirst] at hchanges
    rw [hsecond] at hchangesSecond
    exact ⟨old, (hchanges.file_iff location (not_not_intro rfl) old).mpr hold,
      (hchangesSecond.file_iff location (not_not_intro rfl) old).mpr holdSecond⟩

/-- Where files are written, two file systems that take them have the same file in the end. -/
theorem agree_of_takes (hfirst : (FileSystem.disk.directorySink root).Takes first written firstFinal)
    (hsecond : (FileSystem.disk.directorySink root).Takes second written secondFinal)
    (hworking : second.workingDirectory = first.workingDirectory) {location : Location}
    (hplace : HaveSameFile first second location ∨
      location ∈ targets root first.workingDirectory written) :
    HaveSameFile firstFinal secondFinal location := by
  induction hfirst generalizing second with
  | nil files =>
    cases hsecond
    exact hplace.resolve_right List.not_mem_nil
  | @cons first next firstFinal path content rest hwrite hrest ih =>
    cases hsecond with
    | cons hwriteSecond hrestSecond =>
      rw [directorySink_write] at hwrite hwriteSecond
      have hnext := (FileSystem.keeps_store hwrite).workingDirectory
      have hnextSecond := (FileSystem.keeps_store hwriteSecond).workingDirectory
      refine ih hrestSecond (by rw [hnextSecond, hworking, hnext]) ?_
      rw [hnext]
      by_cases hrestPlace : location ∈ targets root first.workingDirectory rest
      · exact Or.inr hrestPlace
      · refine Or.inl (haveSameFile_store hwrite hwriteSecond hworking ?_)
        rcases hplace with hsame | htarget
        · exact Or.inl hsame
        · exact Or.inr ((List.mem_cons.mp htarget).resolve_right hrestPlace)

/-- Files that were written are written again without a change. -/
theorem exists_takes_same (htakes : (FileSystem.disk.directorySink root).Takes files written final) :
    ∃ again, (FileSystem.disk.directorySink root).Takes final written again ∧
      again.workingDirectory = final.workingDirectory ∧
        ∀ location, again.at? location = final.at? location := by
  obtain ⟨again, hagain, hshape⟩ := takes_again htakes (FileSystem.Keeps.refl final)
  refine ⟨again, hagain, hshape.workingDirectory, fun location ↦ ?_⟩
  have hworking := (keeps_of_takes htakes).workingDirectory
  by_cases htarget : location ∈ targets root files.workingDirectory written
  · obtain ⟨content, hfinal, hsame⟩ := agree_of_takes htakes hagain hworking (Or.inr htarget)
    rw [hfinal, hsame]
  · -- Elsewhere the second run changes no file, and by the shape nothing else.
    have hchanges : FileSystem.ChangesOnly (· ≠ location) final
        (Pack.writeFiles (FileSystem.disk.directorySink root) written final).2 :=
      changesOnly_writeFiles fun file hfile hsame ↦
        htarget (List.mem_map.mpr ⟨file, hfile, by rw [← hworking]; exact hsame⟩)
    rw [writeFiles_of_takes hagain] at hchanges
    have hfile := hchanges.file_iff location (not_not_intro rfl)
    have hkind := hshape.isDirectory location
    cases hfinal : final.at? location with
    | none =>
      rw [hfinal] at hkind
      exact Option.map_eq_none_iff.mp hkind
    | some entry =>
      cases entry with
      | directory => exact hshape.keeps.directory location hfinal
      | file content => exact (hfile content).mpr hfinal

end Directories

/-! ### Packs -/

/-- A pack that was written is written again with the same summary and without a change: to a memory sink,
which takes it whatever it holds, and below a directory of any file system that takes it, where the same
directories and files are at the same locations. -/
theorem write_again (compilation : Compilation) (options : PackOptions) :
    (∀ memory, ∃ summary settled,
      Pack.write compilation options MemorySink.sink memory = (.ok summary, settled) ∧
        Pack.write compilation options MemorySink.sink settled = (.ok summary, settled)) ∧
      ∀ root files summary settled,
        Pack.write compilation options (FileSystem.disk.directorySink root) files =
            (.ok summary, settled) →
          ∃ again,
            Pack.write compilation options (FileSystem.disk.directorySink root) settled =
                (.ok summary, again) ∧
              again.workingDirectory = settled.workingDirectory ∧
                ∀ location, again.at? location = settled.at? location := by
  constructor
  · intro memory
    refine ⟨_, _, write_memory compilation options memory, ?_⟩
    rw [write_memory, MemorySink.writeAll_writeAll]
  · intro root files summary settled hwrite
    rcases takes_or_refusesAt (FileSystem.disk.directorySink root) files
      (Pack.files compilation options) with ⟨last, htakes⟩ | ⟨index, failure, last, hrefuses⟩
    · rw [(comesTo_of_takes htakes).write] at hwrite
      cases hwrite
      obtain ⟨again, hagain, hsame⟩ := exists_takes_same htakes
      exact ⟨again, (comesTo_of_takes hagain).write, hsame⟩
    · rw [(comesTo_of_refusesAt hrefuses).write] at hwrite
      cases hwrite

/-- A directory with an old description of a pack. -/
def usedDirectory : FileSystem where
  entries := [(["out"], .directory), (["out", "pack.mcmeta"], .file "old".toUTF8)]

/-- A pack that writes to one file twice is written there and written there again. -/
theorem write_again_usedDirectory :
    ∃ summary settled,
      Pack.write (compile twoDoors) twoDoors.pack (FileSystem.disk.directorySink ⟨"out"⟩)
          usedDirectory = (.ok summary, settled) ∧
        ∃ again,
          Pack.write (compile twoDoors) twoDoors.pack (FileSystem.disk.directorySink ⟨"out"⟩)
              settled = (.ok summary, again) ∧
            again.workingDirectory = settled.workingDirectory ∧
              ∀ location, again.at? location = settled.at? location := by
  have hok : (Pack.write (compile twoDoors) twoDoors.pack
      (FileSystem.disk.directorySink ⟨"out"⟩) usedDirectory).1.toBool := by
    decide +kernel
  cases hwrite : Pack.write (compile twoDoors) twoDoors.pack
      (FileSystem.disk.directorySink ⟨"out"⟩) usedDirectory with
  | mk outcome settled =>
    rw [hwrite] at hok
    cases outcome with
    | error failure => cases hok
    | ok summary =>
      exact ⟨summary, settled, rfl,
        (write_again (compile twoDoors) twoDoors.pack).2 ⟨"out"⟩ usedDirectory summary settled
          hwrite⟩

end FrameSorter
