import FrameSorter.Proofs.EqualPaths
import FrameSorter.Proofs.KeptEntries

/-!
# Entries of a directory

What a path names that is joined from a directory and a name (`IsFileName`) is a matter of the directory
alone: it is the entry below the location of the directory that has the name, or nothing if there is none
(`entry?_join`). Only the length of the joined path counts, too, because no operation takes one beyond the
limit.
-/

set_option autoImplicit false
set_option relaxedAutoImplicit false

namespace FrameSorter

/-! ### Names -/

/-- A text that can be the name of an entry. -/
structure IsFileName (name : String) : Prop where
  nonempty : name ≠ ""
  slash : '/' ∉ name.toList
  nul : '\x00' ∉ name.toList
  isName : FileSystem.isName name
  length : name.utf8ByteSize ≤ FileSystem.nameLimit

namespace Path

variable {path : Path} {name : String}

/-- A joined path is written as the two paths, with a slash between them or none. -/
theorem text_join (path : Path) {other : Path} (hrelative : other.isAbsolute = false) :
    ∃ gap, (gap = "" ∨ gap = "/") ∧ (path.join other).text = path.text ++ gap ++ other.text := by
  unfold join
  rw [if_neg (by simp [hrelative])]
  split
  · exact ⟨"", Or.inl rfl, by rw [String.append_empty]⟩
  · exact ⟨"/", Or.inr rfl, rfl⟩

/-- A name is one more segment. -/
theorem segments_join_name (hname : IsFileName name) :
    (path.join ⟨name⟩).segments = path.segments ++ [name] := by
  rw [segments_join (isAbsolute_of_notMem hname.slash), pieces_of_notMem hname.slash hname.nonempty]

/-- A name does not end in a slash. -/
theorem endsInSlash_join_name (hname : IsFileName name) :
    (path.join ⟨name⟩).endsInSlash = false := by
  obtain ⟨gap, -, htext⟩ := text_join path (isAbsolute_of_notMem hname.slash)
  obtain ⟨before, last, hlast⟩ : ∃ before last, name.toList = before ++ [last] := by
    rcases List.eq_nil_or_concat' name.toList with hempty | hlast
    · exact absurd (String.toList_eq_nil_iff.mp hempty) hname.nonempty
    · exact hlast
  have hslash : last ≠ '/' := by
    rintro rfl
    exact hname.slash (by simp [hlast])
  simp [endsInSlash, htext, hlast, hslash]

/-- A joined path has no NUL character if neither part has one. -/
theorem nul_notMem_join_name (hname : IsFileName name) (hpath : '\x00' ∉ path.text.toList) :
    '\x00' ∉ (path.join ⟨name⟩).text.toList := by
  obtain ⟨gap, hgap, htext⟩ := text_join path (isAbsolute_of_notMem hname.slash)
  rcases hgap with rfl | rfl <;> simp [htext, hpath, hname.nul]

end Path

namespace FileSystem

variable {files : FileSystem} {path : Path} {name : String}

/-- A path is taken if it has no NUL character and is within the limit. -/
theorem checkText_eq_ok_iff :
    checkText path = .ok () ↔
      '\x00' ∉ path.text.toList ∧ path.text.utf8ByteSize ≤ pathLimit := by
  unfold checkText
  split_ifs with hnul hlimit
  · simp [hnul]
  · simp [hlimit]
  · simp [hnul, Nat.not_lt.mp hlimit]

/-- A path names a directory if this is the entry that it names. -/
theorem isDirectory_iff : files.isDirectory path = true ↔ files.entry? path = .ok .directory := by
  unfold isDirectory
  cases files.entry? path with
  | error failure => simp
  | ok entry => cases entry <;> simp [Entry.isDirectory]

/-- The segments of a path that names a directory lead to it. -/
theorem exists_walk_of_isDirectory (hdirectory : files.isDirectory path = true) :
    checkText path = .ok () ∧ path.segments ≠ [] ∧
      ∃ here, files.walk files.workingDirectory path.segments = .ok here ∧
        files.at? here = some .directory := by
  obtain ⟨hcheck, here, hlocate, hhere⟩ := isDirectory_iff_locate.mp hdirectory
  rcases List.eq_nil_or_concat' path.segments with hnil | ⟨before, last, hsegments⟩
  · rw [hnil] at hlocate
    cases hlocate
  · rw [hsegments, locate_concat_eq_ok_iff] at hlocate
    obtain ⟨next, hwalk, hfollow⟩ := hlocate
    rw [hsegments]
    exact ⟨hcheck, List.append_ne_nil_of_right_ne_nil _ (List.cons_ne_nil _ _), here,
      walk_concat_eq_ok_iff.mpr ⟨next, hwalk, hfollow, hhere⟩, hhere⟩

/-- A name leads on from a directory. -/
theorem follow_name {here : Location} (hhere : files.at? here = some .directory)
    (hname : IsFileName name) : files.follow here name = .ok (here ++ [name]) := by
  have hplain := hname.isName
  simp only [isName, Bool.and_eq_true, bne_iff_ne] at hplain
  obtain ⟨⟨hroot, hdot⟩, hdots⟩ := hplain
  rw [follow, if_neg hroot, if_neg hdot, if_neg hdots, hhere]
  exact if_pos hname.length

/-- A name in a directory names the entry that the directory has under it. -/
theorem entry?_join (hdirectory : files.isDirectory path = true) (hname : IsFileName name) :
    files.entry? (path.join ⟨name⟩) =
      if pathLimit < (path.join ⟨name⟩).text.utf8ByteSize then .error .nameTooLong
      else
        match files.at? (resolve files.workingDirectory path.segments ++ [name]) with
        | none => .error .notFound
        | some entry => .ok entry := by
  obtain ⟨hcheck, -, here, hwalk, hhere⟩ := exists_walk_of_isDirectory hdirectory
  obtain ⟨hnul, -⟩ := checkText_eq_ok_iff.mp hcheck
  have hlocate : files.locate (path.join ⟨name⟩).segments = .ok (here ++ [name]) := by
    rw [Path.segments_join_name hname]
    exact locate_concat_eq_ok_iff.mpr ⟨here, hwalk, follow_name hhere hname⟩
  rw [← walk_eq_resolve hwalk, entry?, checkText, if_neg (Path.nul_notMem_join_name hname hnul)]
  by_cases hlimit : pathLimit < (path.join ⟨name⟩).text.utf8ByteSize
  · rw [if_pos hlimit, if_pos hlimit]
    rfl
  · rw [if_neg hlimit, if_neg hlimit]
    simp only [bind, Except.bind, hlocate]
    cases files.at? (here ++ [name]) with
    | none => rfl
    | some entry =>
      cases entry with
      | directory => rfl
      | file content => simp [Path.endsInSlash_join_name hname]

end FileSystem

end FrameSorter
