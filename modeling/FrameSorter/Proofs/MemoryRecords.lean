import Mathlib.Data.Finset.Card
import FrameSorter.Proofs.EqualPaths
import FrameSorter.Proofs.MemoryWrites
import FrameSorter.Proofs.Reading

/-!
# What a memory sink records

Whatever is written to an empty memory sink, in whatever spellings, the sink holds one path for each list
of components that was written to. It is the spelling that came first, and the paths stand in the order of
their first writes (`firstSpellings`). To read a path gives what was written last to its components
(`lastContent?`). Together this is `memory_records_writes`, with what makes two spellings the same path.
-/

set_option autoImplicit false
set_option relaxedAutoImplicit false

namespace FrameSorter

namespace MemorySink

/-! ### What is to be recorded -/

/-- The paths with components that no path before them has, in their order. -/
def firstSpellings (paths : List Path) : List Path :=
  ((withEarlier [] paths).filter fun (earlier, path) ↦
    path.components ∉ earlier.map Path.components).map Prod.snd

/-- The content of the last write to the components of a path. -/
def lastContent? (writes : List (Path × String)) (path : Path) : Option String :=
  (writes.reverse.find? (placeOf · == path.components)).map Prod.snd

example :
    firstSpellings [⟨"a//b"⟩, ⟨"./a/b"⟩, ⟨"a/./b/"⟩, ⟨"/a/b"⟩, ⟨"//a/b"⟩] =
      [⟨"a//b"⟩, ⟨"./a/b"⟩, ⟨"/a/b"⟩] := by
  decide

/-- A memory sink holds one entry for each list of components that was written to: at the first spelling,
in the order of the first writes, with the content of the last write. -/
structure Records (memory : MemorySink) (writes : List (Path × String)) : Prop where
  nodup : (memory.paths.map Path.components).Nodup
  paths_eq : memory.paths = firstSpellings (writes.map Prod.fst)
  size_eq : memory.size = (writes.map placeOf).toFinset.card
  get?_eq : ∀ path, memory.get? path = lastContent? writes path

variable {memory : MemorySink}

/-! ### One write more -/

/-- The last path is a first spelling if no path before it has its components. -/
theorem firstSpellings_concat (paths : List Path) (last : Path) :
    firstSpellings (paths ++ [last]) =
      firstSpellings paths ++
        if last.components ∈ paths.map Path.components then [] else [last] := by
  rw [firstSpellings, withEarlier_concat, List.filter_append, List.map_append, List.nil_append]
  by_cases hearlier : last.components ∈ paths.map Path.components
  · rw [if_pos hearlier, List.filter_cons_of_neg (by simpa using hearlier)]
    rfl
  · rw [if_neg hearlier, List.filter_cons_of_pos (by simpa using hearlier)]
    rfl

/-- Only a last write to the components of the path changes what was written there last. -/
theorem lastContent?_concat (writes : List (Path × String)) (last : Path × String) (path : Path) :
    lastContent? (writes ++ [last]) path =
      if placeOf last = path.components then some last.2 else lastContent? writes path := by
  rw [lastContent?, List.reverse_append, List.reverse_singleton, List.singleton_append]
  split
  · rename_i hplace
    rw [List.find?_cons_of_pos (by simpa using hplace)]
    rfl
  · rename_i hplace
    rw [List.find?_cons_of_neg (by simpa using hplace)]
    rfl

/-! ### All writes -/

/-- The sink has one entry for each place. -/
theorem nodup_writeAll (writes : List (Path × String)) :
    ((writeAll {} writes).entries.map placeOf).Nodup := by
  induction writes using List.reverseRecOn with
  | nil => exact List.nodup_nil
  | append_singleton writes last ih =>
    rw [writeAll_concat]
    exact nodup_map_placeOf_writeEntries ih

/-- The paths are the first spellings. -/
theorem paths_writeAll (writes : List (Path × String)) :
    (writeAll {} writes).paths = firstSpellings (writes.map Prod.fst) := by
  induction writes using List.reverseRecOn with
  | nil => rfl
  | append_singleton writes last ih =>
    have hplaces : last.1.components ∈ (writes.map Prod.fst).map Path.components ↔
        last.1.components ∈ (writeAll {} writes).entries.map placeOf := by
      rw [mem_map_placeOf_writeAll_iff, map_placeOf_eq]
    rw [List.map_append, List.map_singleton, firstSpellings_concat, ← ih, writeAll_concat]
    by_cases hplace : last.1.components ∈ (writeAll {} writes).entries.map placeOf
    · rw [if_pos (hplaces.mpr hplace), List.append_nil]
      exact map_fst_writeEntries_of_mem hplace
    · rw [if_neg (mt hplaces.mp hplace)]
      exact map_fst_writeEntries_of_notMem hplace

/-- To read a path gives what was written last to its components. -/
theorem get?_writeAll_eq_lastContent? (writes : List (Path × String)) (path : Path) :
    (writeAll {} writes).get? path = lastContent? writes path := by
  induction writes using List.reverseRecOn with
  | nil => rfl
  | append_singleton writes last ih =>
    rw [writeAll_concat, lastContent?_concat]
    split
    · rename_i hplace
      exact get?_write_of_eq hplace
    · rename_i hplace
      rw [get?_write_of_ne hplace, ih]

/-- There are as many entries as places that were written to. -/
theorem size_writeAll_eq_card (writes : List (Path × String)) :
    (writeAll {} writes).size = (writes.map placeOf).toFinset.card := by
  have hplaces : (writes.map placeOf).toFinset =
      ((writeAll {} writes).entries.map placeOf).toFinset := by
    ext place
    rw [List.mem_toFinset, List.mem_toFinset, mem_map_placeOf_writeAll_iff]
  rw [hplaces, List.toFinset_card_of_nodup (nodup_writeAll writes), List.length_map]
  rfl

end MemorySink

/-- Every list of writes is taken by an empty memory sink, which then holds one entry for each list of
components that was written to: at the first spelling, in the order of the first writes, with the content
of the last write. Two spellings have the same components exactly if they differ by repeated slashes, by
dots between slashes, and by slashes and dots at the end; whether a path is absolute counts, and so do a
dot at the start of a relative path and two dots. -/
theorem memory_records_writes (writes : List (Path × String)) :
    ∃ memory, Pack.writeFiles MemorySink.sink writes {} = (.ok (), memory) ∧
      memory.Records writes ∧
      ∀ first second : Path,
        (first.components = second.components ↔ Relation.EqvGen Path.Shortens first second) ∧
        (first.components = second.components ↔
          first.isAbsolute = second.isAbsolute ∧ first.startsWithDot = second.startsWithDot ∧
            first.names = second.names) := by
  refine ⟨_, writeFiles_memory writes {}, ?_, fun first second ↦
    ⟨Path.components_eq_iff_eqvGen, Path.components_eq_iff_names⟩⟩
  refine
    { nodup := ?_
      paths_eq := MemorySink.paths_writeAll writes
      size_eq := MemorySink.size_writeAll_eq_card writes
      get?_eq := MemorySink.get?_writeAll_eq_lastContent? writes }
  rw [MemorySink.paths, ← MemorySink.map_placeOf_eq]
  exact MemorySink.nodup_writeAll writes

end FrameSorter
