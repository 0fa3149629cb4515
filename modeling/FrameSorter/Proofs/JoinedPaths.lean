import FrameSorter.Path

/-!
# Pieces of joined paths

Joining a relative path to another puts its pieces behind those of the other path, whether or not a
slash is written between them (`segments_join`, `components_join`). What stands before the first slash
of a text and what stands behind its last slash belong to the first and to the last piece
(`pieces_of_beginning`, `pieces_of_ending`).
-/

set_option autoImplicit false
set_option relaxedAutoImplicit false

namespace FrameSorter

/-! ### The ends of a text between slashes -/

/-- A beginning without a slash belongs to the first piece. -/
theorem splitOn_append_of_notMem {beginning : List Char} (hslash : '/' ∉ beginning)
    (rest : List Char) :
    ∃ first others, (beginning ++ rest).splitOn '/' = (beginning ++ first) :: others := by
  obtain ⟨first, others, hrest⟩ := List.exists_cons_of_ne_nil (List.splitOn_ne_nil '/' rest)
  refine ⟨first, others, ?_⟩
  induction beginning with
  | nil => exact hrest
  | cons head beginning ih =>
    rw [List.mem_cons, not_or] at hslash
    rw [List.cons_append, List.splitOn_cons_eq_if_modifyHead, if_neg (by simpa using Ne.symm hslash.1),
      ih hslash.2]
    rfl

/-- An end without a slash belongs to the last piece. -/
theorem append_splitOn_of_notMem {ending : List Char} (hslash : '/' ∉ ending) (chars : List Char) :
    ∃ others last, (chars ++ ending).splitOn '/' = others ++ [last ++ ending] := by
  induction chars with
  | nil => exact ⟨[], [], List.splitOn_eq_singleton hslash⟩
  | cons head chars ih =>
    obtain ⟨others, last, hsplit⟩ := ih
    rw [List.cons_append, List.splitOn_cons_eq_if_modifyHead, hsplit]
    split
    · exact ⟨[] :: others, last, rfl⟩
    · cases others with
      | nil => exact ⟨[], head :: last, rfl⟩
      | cons first others => exact ⟨(head :: first) :: others, last, rfl⟩

/-- What stands between two slashes has none. -/
theorem slash_notMem_of_mem_splitOn {chars part : List Char} (hpart : part ∈ chars.splitOn '/') :
    '/' ∉ part := by
  induction chars generalizing part with
  | nil =>
    rw [List.splitOn_nil, List.mem_singleton] at hpart
    rw [hpart]
    exact List.not_mem_nil
  | cons head chars ih =>
    obtain ⟨first, others, hsplit⟩ := List.exists_cons_of_ne_nil (List.splitOn_ne_nil '/' chars)
    rw [hsplit] at ih
    rw [List.splitOn_cons_eq_if_modifyHead, hsplit] at hpart
    split at hpart
    · rcases List.mem_cons.mp hpart with rfl | hbehind
      · exact List.not_mem_nil
      · exact ih hbehind
    · rename_i hhead
      rcases List.mem_cons.mp hpart with rfl | hother
      · rw [List.mem_cons, not_or]
        exact ⟨Ne.symm (by simpa using hhead), ih List.mem_cons_self⟩
      · exact ih (List.mem_cons_of_mem _ hother)

namespace Path

/-! ### Pieces -/

/-- No piece is the mark of the root. -/
theorem rootMark_notMem_pieces (path : Path) : rootMark ∉ path.pieces := by
  intro hroot
  obtain ⟨part, hpart, htext⟩ := List.mem_map.mp hroot
  have hslash := slash_notMem_of_mem_splitOn (List.mem_filter.mp hpart).1
  have hchars : part = ['/'] := by
    rw [← String.toList_ofList (l := part), htext]
    rfl
  exact hslash (hchars ▸ List.mem_singleton_self '/')

/-- A slash separates the pieces before it from those behind it. -/
theorem pieces_append_slash (before after : String) :
    (Path.mk (before ++ "/" ++ after)).pieces = (Path.mk before).pieces ++ (Path.mk after).pieces := by
  have htext : (before ++ "/" ++ after).toList = before.toList ++ '/' :: after.toList := by
    simp
  simp only [pieces, parts]
  rw [htext, List.splitOn_append_cons_self, List.filter_append, List.map_append]

/-- A text without a slash is one piece. -/
theorem pieces_of_notMem {text : String} (hslash : '/' ∉ text.toList) (htext : text ≠ "") :
    (Path.mk text).pieces = [text] := by
  have hchars : text.toList ≠ [] := by simpa using htext
  simp [pieces, parts, List.splitOn_eq_singleton hslash, hchars]

/-- The first piece begins as the text does before its first slash. -/
theorem pieces_of_beginning {beginning : List Char} {text : String} (hslash : '/' ∉ beginning)
    (hbeginning : beginning ≠ []) (htext : beginning <+: text.toList) :
    ∃ first others, (Path.mk text).pieces = String.ofList (beginning ++ first) :: others := by
  obtain ⟨rest, hrest⟩ := htext
  obtain ⟨first, others, hsplit⟩ := splitOn_append_of_notMem hslash rest
  simp only [pieces, parts]
  rw [← hrest, hsplit, List.filter_cons_of_pos (by simp [hbeginning])]
  exact ⟨first, _, rfl⟩

/-- The last piece ends as the text does behind its last slash. -/
theorem pieces_of_ending {ending : List Char} {text : String} (hslash : '/' ∉ ending)
    (hending : ending ≠ []) (htext : ending <:+ text.toList) :
    ∃ others last, (Path.mk text).pieces = others ++ [String.ofList (last ++ ending)] := by
  obtain ⟨before, hbefore⟩ := htext
  obtain ⟨others, last, hsplit⟩ := append_splitOn_of_notMem hslash before
  simp only [pieces, parts]
  rw [← hbefore, hsplit, List.filter_append, List.filter_cons_of_pos (by simp [hending]),
    List.map_append]
  exact ⟨_, last, rfl⟩

/-! ### Joined paths -/

variable {path other : Path}

/-- A joined path has the pieces of both. -/
theorem pieces_join (hrelative : other.isAbsolute = false) :
    (path.join other).pieces = path.pieces ++ other.pieces := by
  unfold join
  rw [if_neg (by simp [hrelative])]
  by_cases hempty : path.text = ""
  · rw [if_pos (Or.inl hempty), hempty, String.empty_append]
    simp [pieces, parts, hempty]
  by_cases hslash : path.endsInSlash
  · rw [if_pos (Or.inr hslash)]
    obtain ⟨before, hbefore⟩ := List.getLast?_eq_some_iff.mp (beq_iff_eq.mp hslash)
    have htext : path.text = String.ofList before ++ "/" ++ "" := by
      rw [← String.toList_inj]
      simp [hbefore]
    have hpieces : path.pieces = (Path.mk (String.ofList before)).pieces := by
      have hbeside := pieces_append_slash (String.ofList before) ""
      rw [← htext] at hbeside
      exact hbeside.trans (List.append_nil _)
    rw [hpieces, ← pieces_append_slash, htext, String.append_empty]
  · rw [if_neg (by simp [hempty, hslash])]
    exact pieces_append_slash path.text other.text

/-- A joined path starts where the first path does. -/
theorem isAbsolute_join (hrelative : other.isAbsolute = false) :
    (path.join other).isAbsolute = path.isAbsolute := by
  unfold join
  rw [if_neg (by simp [hrelative])]
  by_cases hempty : path.text = ""
  · rw [if_pos (Or.inl hempty), hempty, String.empty_append]
    simpa [isAbsolute, hempty] using hrelative
  · have hchars : path.text.toList ≠ [] := by simpa using hempty
    obtain ⟨head, rest, hhead⟩ := List.exists_cons_of_ne_nil hchars
    split <;> simp [isAbsolute, hhead]

/-- A joined path has the segments of the first path and then the pieces of the other. -/
theorem segments_join (hrelative : other.isAbsolute = false) :
    (path.join other).segments = path.segments ++ other.pieces := by
  unfold segments
  rw [isAbsolute_join hrelative, pieces_join hrelative]
  split <;> rfl

/-- A joined path has the components of the first path and then the pieces of the other that are no
dots. -/
theorem components_join (hrelative : other.isAbsolute = false) (hpath : path.segments ≠ []) :
    (path.join other).components = path.components ++ other.pieces.filter (· != ".") := by
  obtain ⟨first, rest, hsegments⟩ := List.exists_cons_of_ne_nil hpath
  simp only [components]
  rw [segments_join hrelative, hsegments]
  exact congrArg (first :: ·) (List.filter_append rest other.pieces)

end Path

end FrameSorter
