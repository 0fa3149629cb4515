import Mathlib.Data.List.Induction
import Mathlib.Data.List.Nodup
import FrameSorter.Pack.Writing

/-!
# Writes to a memory sink

A memory sink takes every file (`writeFiles_memory`, `write_memory`), so a list of files is written by
a fold (`MemorySink.writeAll`). Files are told apart by the components of their paths. There is one
entry for each written file exactly if no two of the files have the same components (`size_writeAll`),
and a file is read back if no other content was written to its components (`get?_writeAll`).
-/

set_option autoImplicit false
set_option relaxedAutoImplicit false

namespace FrameSorter

namespace MemorySink

variable {memory : MemorySink} {path other : Path} {content : String}

/-! ### One write -/

/-- The components of the path of a file. -/
def placeOf (file : Path × String) : List String :=
  file.1.components

/-- The places of entries are told by their paths. -/
theorem map_placeOf_eq (entries : List (Path × String)) :
    entries.map placeOf = (entries.map Prod.fst).map Path.components :=
  List.map_map.symm

/-- A write to the place of an entry leaves the paths as they were written first. -/
theorem map_fst_writeEntries_of_mem {entries : List (Path × String)}
    (hplace : path.components ∈ entries.map placeOf) :
    (writeEntries path content entries).map Prod.fst = entries.map Prod.fst := by
  induction entries with
  | nil => cases hplace
  | cons entry entries ih =>
    obtain ⟨known, old⟩ := entry
    rw [writeEntries]
    by_cases hknown : known.components = path.components
    · rw [if_pos hknown]
      rfl
    · rw [if_neg hknown, List.map_cons, ih, List.map_cons]
      exact List.mem_of_ne_of_mem (Ne.symm hknown) hplace

/-- A write to a new place adds its path at the end. -/
theorem map_fst_writeEntries_of_notMem {entries : List (Path × String)}
    (hplace : path.components ∉ entries.map placeOf) :
    (writeEntries path content entries).map Prod.fst = entries.map Prod.fst ++ [path] := by
  induction entries with
  | nil => rfl
  | cons entry entries ih =>
    obtain ⟨known, old⟩ := entry
    rw [List.map_cons, List.mem_cons, not_or] at hplace
    have hknown : known.components ≠ path.components := Ne.symm hplace.1
    rw [writeEntries, if_neg hknown, List.map_cons, ih hplace.2]
    rfl

/-- A write to the place of an entry adds none. -/
theorem map_placeOf_writeEntries_of_mem {entries : List (Path × String)}
    (hplace : path.components ∈ entries.map placeOf) :
    (writeEntries path content entries).map placeOf = entries.map placeOf := by
  rw [map_placeOf_eq, map_fst_writeEntries_of_mem hplace, ← map_placeOf_eq]

/-- A write to a new place adds an entry at the end. -/
theorem map_placeOf_writeEntries_of_notMem {entries : List (Path × String)}
    (hplace : path.components ∉ entries.map placeOf) :
    (writeEntries path content entries).map placeOf = entries.map placeOf ++ [path.components] := by
  rw [map_placeOf_eq, map_fst_writeEntries_of_notMem hplace, List.map_append, ← map_placeOf_eq]
  rfl

/-- A write leaves one entry for each place. -/
theorem nodup_map_placeOf_writeEntries {entries : List (Path × String)}
    (hnodup : (entries.map placeOf).Nodup) :
    ((writeEntries path content entries).map placeOf).Nodup := by
  by_cases hplace : path.components ∈ entries.map placeOf
  · rwa [map_placeOf_writeEntries_of_mem hplace]
  · rw [map_placeOf_writeEntries_of_notMem hplace, ← List.concat_eq_append]
    exact hnodup.concat hplace

/-- The content that is written is in an entry at its place. -/
theorem exists_mem_writeEntries (path : Path) (content : String) (entries : List (Path × String)) :
    ∃ entry ∈ writeEntries path content entries,
      placeOf entry = path.components ∧ entry.2 = content := by
  induction entries with
  | nil => exact ⟨(path, content), List.mem_singleton_self _, rfl, rfl⟩
  | cons entry entries ih =>
    obtain ⟨known, old⟩ := entry
    rw [writeEntries]
    split
    · rename_i hknown
      exact ⟨(known, content), List.mem_cons_self, hknown, rfl⟩
    · obtain ⟨written, hwritten, hsame⟩ := ih
      exact ⟨written, List.mem_cons_of_mem _ hwritten, hsame⟩

/-- The entries at other places are as before. -/
theorem mem_writeEntries_iff_of_ne {entries : List (Path × String)} {file : Path × String}
    (hne : placeOf file ≠ path.components) :
    file ∈ writeEntries path content entries ↔ file ∈ entries := by
  have hapart {known : Path} {text : String} (hknown : known.components = path.components) :
      file ≠ (known, text) := by
    rintro rfl
    exact hne hknown
  induction entries with
  | nil => simp [writeEntries, hapart]
  | cons entry entries ih =>
    obtain ⟨known, old⟩ := entry
    rw [writeEntries]
    split
    · rename_i hknown
      rw [List.mem_cons, List.mem_cons, or_iff_right (hapart hknown), or_iff_right (hapart hknown)]
    · rw [List.mem_cons, List.mem_cons]
      exact or_congr_right ih

/-- What was written is read back. -/
theorem get?_write_of_eq (hsame : path.components = other.components) :
    (memory.write path content).get? other = some content := by
  obtain ⟨entries⟩ := memory
  simp only [get?, write]
  induction entries with
  | nil => simp [writeEntries, hsame]
  | cons entry entries ih =>
    obtain ⟨known, old⟩ := entry
    rw [writeEntries]
    by_cases hknown : known.components = path.components
    · simp [hknown, hsame]
    · rw [if_neg hknown, List.find?_cons_of_neg (by simpa [← hsame] using hknown)]
      exact ih

/-- A write to another place is not seen. -/
theorem get?_write_of_ne (hne : path.components ≠ other.components) :
    (memory.write path content).get? other = memory.get? other := by
  obtain ⟨entries⟩ := memory
  simp only [get?, write]
  induction entries with
  | nil => simp [writeEntries, hne]
  | cons entry entries ih =>
    obtain ⟨known, old⟩ := entry
    rw [writeEntries]
    by_cases hknown : known.components = path.components
    · simp [hknown, hne]
    · rw [if_neg hknown]
      by_cases hother : known.components = other.components
      · simp [hother]
      · rw [List.find?_cons_of_neg (by simpa using hother),
          List.find?_cons_of_neg (by simpa using hother)]
        exact ih

/-! ### A list of files -/

/-- Takes a list of files. -/
def writeAll (memory : MemorySink) (files : List (Path × String)) : MemorySink :=
  files.foldl (fun memory (path, content) ↦ memory.write path content) memory

/-- The last file is written to what the others leave. -/
theorem writeAll_concat (memory : MemorySink) (files : List (Path × String)) (file : Path × String) :
    memory.writeAll (files ++ [file]) = (memory.writeAll files).write file.1 file.2 := by
  rw [writeAll, List.foldl_append]
  rfl

/-- A write adds its place to those of the entries. -/
theorem mem_map_placeOf_write_iff {place : List String} :
    place ∈ (memory.write path content).entries.map placeOf ↔
      place ∈ memory.entries.map placeOf ∨ place = path.components := by
  rw [write]
  by_cases hplace : path.components ∈ memory.entries.map placeOf
  · rw [map_placeOf_writeEntries_of_mem hplace]
    exact (or_iff_left_of_imp fun hsame ↦ hsame ▸ hplace).symm
  · rw [map_placeOf_writeEntries_of_notMem hplace, List.mem_append, List.mem_singleton]

/-- The sink has entries where it had them and where it was written to. -/
theorem mem_places_writeAll_iff {files : List (Path × String)} {place : List String} :
    place ∈ (memory.writeAll files).entries.map placeOf ↔
      place ∈ memory.entries.map placeOf ∨ place ∈ files.map placeOf := by
  induction files using List.reverseRecOn with
  | nil => simp [writeAll]
  | append_singleton files file ih =>
    rw [writeAll_concat, mem_map_placeOf_write_iff, ih, List.map_append, List.map_singleton,
      List.mem_append, List.mem_singleton, or_assoc, placeOf]

/-- An empty sink has entries at the places that were written to. -/
theorem mem_map_placeOf_writeAll_iff {files : List (Path × String)} {place : List String} :
    place ∈ (writeAll {} files).entries.map placeOf ↔ place ∈ files.map placeOf := by
  rw [mem_places_writeAll_iff]
  exact or_iff_right List.not_mem_nil

/-- An empty sink has an entry at most for each written file, and one for each exactly if no two of
them have one place. -/
theorem size_writeAll (files : List (Path × String)) :
    (writeAll {} files).size ≤ files.length ∧
      ((writeAll {} files).size = files.length ↔ (files.map placeOf).Nodup) := by
  have hsize (memory : MemorySink) : memory.size = (memory.entries.map placeOf).length :=
    (List.length_map placeOf).symm
  induction files using List.reverseRecOn with
  | nil => exact ⟨Nat.le_refl 0, iff_of_true rfl List.nodup_nil⟩
  | append_singleton files file ih =>
    obtain ⟨hle, heq⟩ := ih
    have hnodup := List.nodup_concat (files.map placeOf) (placeOf file)
    rw [List.concat_eq_append] at hnodup
    rw [List.map_append, List.map_singleton, hnodup, ← heq, ← mem_map_placeOf_writeAll_iff,
      List.length_append, List.length_singleton, writeAll_concat, write, hsize]
    -- With an old place the sink stays behind for good, since it never has more entries than writes.
    by_cases hplace : placeOf file ∈ (writeAll {} files).entries.map placeOf
    · rw [map_placeOf_writeEntries_of_mem hplace, ← hsize]
      simp only [hplace, not_true_eq_false, false_and, iff_false]
      omega
    · rw [map_placeOf_writeEntries_of_notMem hplace, List.length_append, List.length_singleton,
        ← hsize]
      simp only [hplace, not_false_eq_true, true_and]
      omega

/-- A file is read back if no file with another content was written to its place. -/
theorem get?_writeAll {files : List (Path × String)} (hfile : (path, content) ∈ files)
    (hsame : ∀ file ∈ files, placeOf file = path.components → file.2 = content) :
    (memory.writeAll files).get? path = some content := by
  induction files using List.reverseRecOn with
  | nil => cases hfile
  | append_singleton files last ih =>
    rw [writeAll_concat]
    by_cases hplace : placeOf last = path.components
    · rw [get?_write_of_eq hplace, hsame last (by simp) hplace]
    · rw [get?_write_of_ne hplace]
      rcases List.mem_append.mp hfile with hbefore | hlast
      · exact ih hbefore fun file hfile ↦ hsame file (List.mem_append_left _ hfile)
      · rw [← List.mem_singleton.mp hlast] at hplace
        exact absurd rfl hplace

end MemorySink

/-! ### A pack -/

/-- The memory sink takes every list of files. -/
theorem writeFiles_memory (files : List (Path × String)) (memory : MemorySink) :
    Pack.writeFiles MemorySink.sink files memory = (.ok (), memory.writeAll files) := by
  induction files generalizing memory with
  | nil => rfl
  | cons file files ih => exact ih (memory.write file.1 file.2)

/-- The memory sink takes every pack. -/
theorem write_memory (compilation : Compilation) (options : PackOptions) (memory : MemorySink) :
    Pack.write compilation options MemorySink.sink memory =
      (.ok
        { filesWritten := (Pack.files compilation options).length
          stats := compilation.stats
          errors := compilation.errors.length
          warnings := compilation.warnings.length },
        memory.writeAll (Pack.files compilation options)) := by
  simp only [Pack.write, bind, StateT.bind, writeFiles_memory]
  rfl

end FrameSorter
