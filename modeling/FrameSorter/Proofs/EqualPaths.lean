import Mathlib.Logic.Relation
import Mathlib.Tactic.SplitIfs
import FrameSorter.Proofs.JoinedPaths

/-!
# Spellings of a path

Two paths have the same components exactly if each spelling can be turned into the other by parts that
do not count: a repeated slash, a dot between slashes, and a slash or a dot at the end
(`Path.Shortens`, `Path.components_eq_iff_eqvGen`). What counts is whether a path is absolute, whether a
relative one starts with a dot, and the pieces that are no dots, two dots among them
(`Path.components_eq_iff_names`).
-/

set_option autoImplicit false
set_option relaxedAutoImplicit false

namespace FrameSorter

/-- What holds of texts without a slash, and of a text behind whose last slash more is written if it
holds without that, holds of all texts. -/
theorem slash_induction {motive : String → Prop}
    (plain : ∀ text : String, '/' ∉ text.toList → motive text)
    (slash : ∀ before last : String, '/' ∉ last.toList → motive before →
      motive (before ++ "/" ++ last))
    (text : String) : motive text := by
  induction hlength : text.toList.length using Nat.strongRecOn generalizing text with
  | ind length ih =>
    by_cases hslash : '/' ∈ text.toList
    · -- The last slash of the text is the first one of its characters in reverse.
      obtain ⟨last, before, hreverse, hlast⟩ :=
        List.eq_append_cons_of_mem (List.mem_reverse.mpr hslash)
      have htext : text = String.ofList before.reverse ++ "/" ++ String.ofList last.reverse := by
        rw [← String.toList_inj, ← List.reverse_reverse text.toList, hreverse]
        simp
      rw [htext]
      refine slash _ _ (by simpa using hlast) (ih _ ?_ _ rfl)
      rw [← hlength, htext]
      simp only [String.toList_append, String.toList_ofList, List.length_append]
      simp
      omega
    · exact plain text hslash

namespace Path

variable {path first second : Path} {text before last : String}

/-! ### Components of a text with slashes -/

/-- A path that is written at all has a segment. -/
theorem segments_ne_nil (htext : text ≠ "") : (Path.mk text).segments ≠ [] := by
  unfold segments
  split
  · exact List.cons_ne_nil _ _
  · rename_i hrelative
    have hchars : text.toList ≠ [] := by simpa using htext
    obtain ⟨head, rest, hhead⟩ := List.exists_cons_of_ne_nil hchars
    have hslash : '/' ∉ [head] := by
      rw [List.mem_singleton]
      rintro rfl
      exact hrelative (by simp [isAbsolute, hhead])
    have hbeginning : [head] <+: text.toList := ⟨rest, by simp [hhead]⟩
    obtain ⟨start, others, hpieces⟩ :=
      pieces_of_beginning hslash (List.cons_ne_nil _ _) hbeginning
    rw [hpieces]
    exact List.cons_ne_nil _ _

/-- A path without a slash is relative. -/
theorem isAbsolute_of_notMem (hslash : '/' ∉ text.toList) : (Path.mk text).isAbsolute = false := by
  cases htext : text.toList with
  | nil => simp [isAbsolute, htext]
  | cons head rest =>
    rw [htext, List.mem_cons, not_or] at hslash
    simp [isAbsolute, htext, Ne.symm hslash.1]

/-- What is written behind a path does not change where it starts. -/
theorem isAbsolute_append (htext : text ≠ "") (more : String) :
    (Path.mk (text ++ more)).isAbsolute = (Path.mk text).isAbsolute := by
  have hchars : text.toList ≠ [] := by simpa using htext
  obtain ⟨head, rest, hhead⟩ := List.exists_cons_of_ne_nil hchars
  simp [isAbsolute, hhead]

/-- A slash ends no empty text. -/
theorem append_slash_ne_empty (before : String) : before ++ "/" ≠ "" := by
  rw [ne_eq, ← String.toList_inj]
  simp

/-- A slash at the end does not count. -/
theorem components_endSlash (htext : text ≠ "") :
    (Path.mk (text ++ "/")).components = (Path.mk text).components := by
  have hpieces : (Path.mk (text ++ "/")).pieces = (Path.mk text).pieces := by
    have hslash := pieces_append_slash text ""
    rw [String.append_empty] at hslash
    exact hslash.trans (List.append_nil _)
  unfold components segments
  rw [isAbsolute_append htext, hpieces]

/-- Behind a slash the pieces that are no dots are added to the components. -/
theorem components_append_slash (before last : String) :
    (Path.mk (before ++ "/" ++ last)).components =
      (Path.mk (before ++ "/")).components ++ (Path.mk last).pieces.filter (· != ".") := by
  have hpieces : (Path.mk (before ++ "/" ++ last)).pieces =
      (Path.mk (before ++ "/")).pieces ++ (Path.mk last).pieces := by
    have hslash := pieces_append_slash before ""
    rw [String.append_empty] at hslash
    rw [pieces_append_slash, hslash]
    exact congrArg (· ++ (Path.mk last).pieces) (List.append_nil _).symm
  have hsegments : (Path.mk (before ++ "/" ++ last)).segments =
      (Path.mk (before ++ "/")).segments ++ (Path.mk last).pieces := by
    unfold segments
    rw [isAbsolute_append (append_slash_ne_empty before), hpieces]
    split <;> rfl
  obtain ⟨head, rest, hhead⟩ :=
    List.exists_cons_of_ne_nil (segments_ne_nil (append_slash_ne_empty before))
  simp only [components]
  rw [hsegments, hhead]
  exact congrArg (head :: ·) (List.filter_append rest _)

/-- A dot behind a slash does not count. -/
theorem components_endDot (before : String) :
    (Path.mk (before ++ "/" ++ ".")).components = (Path.mk (before ++ "/")).components := by
  have hdot : (Path.mk ".").pieces.filter (· != ".") = [] := by decide
  rw [components_append_slash, hdot, List.append_nil]

/-! ### Parts that do not count -/

/-- The first path is spelled like the second one, but for one part more that does not count. -/
inductive Shortens : Path → Path → Prop
  | slash (before after : String) : Shortens ⟨before ++ "//" ++ after⟩ ⟨before ++ "/" ++ after⟩
  | dot (before after : String) : Shortens ⟨before ++ "/./" ++ after⟩ ⟨before ++ "/" ++ after⟩
  | endSlash (before : String) (hbefore : before ≠ "") : Shortens ⟨before ++ "/"⟩ ⟨before⟩
  | endDot (before : String) : Shortens ⟨before ++ "/."⟩ ⟨before ++ "/"⟩

/-- Without a part that does not count a path has the same components. -/
theorem Shortens.components_eq (hshortens : Shortens first second) :
    first.components = second.components := by
  cases hshortens with
  | slash before after =>
    have htext : before ++ "//" ++ after = before ++ "/" ++ "/" ++ after := by
      simp [String.append_assoc]
    rw [htext, components_append_slash, components_endSlash (append_slash_ne_empty before),
      ← components_append_slash]
  | dot before after =>
    have htext : before ++ "/./" ++ after = before ++ "/" ++ "." ++ "/" ++ after := by
      simp [String.append_assoc]
    have hne : before ++ "/" ++ "." ≠ "" := by
      rw [ne_eq, ← String.toList_inj]
      simp
    rw [htext, components_append_slash, components_endSlash hne, components_endDot,
      ← components_append_slash]
  | endSlash before hbefore => exact components_endSlash hbefore
  | endDot before =>
    have htext : before ++ "/." = before ++ "/" ++ "." := by simp [String.append_assoc]
    rw [htext, components_endDot]

/-- Parts that do not count, put in or left out, change no component. -/
theorem components_eq_of_eqvGen (hsame : Relation.EqvGen Shortens first second) :
    first.components = second.components := by
  induction hsame with
  | rel _ _ hshortens => exact hshortens.components_eq
  | refl _ => rfl
  | symm _ _ _ ih => exact ih.symm
  | trans _ _ _ _ _ hfirst hsecond => exact hfirst.trans hsecond

/-- What may be put in or left out of a path may be so in front of a slash. -/
theorem eqvGen_append_slash (hsame : Relation.EqvGen Shortens first second) (last : String) :
    Relation.EqvGen Shortens ⟨first.text ++ "/" ++ last⟩ ⟨second.text ++ "/" ++ last⟩ := by
  induction hsame with
  | refl _ => exact .refl _
  | symm _ _ _ ih => exact .symm _ _ ih
  | trans _ _ _ _ _ hfirst hsecond => exact .trans _ _ _ hfirst hsecond
  | rel _ _ hshortens =>
    cases hshortens with
    | slash before after =>
      simpa [String.append_assoc] using
        Relation.EqvGen.rel _ _ (Shortens.slash before (after ++ "/" ++ last))
    | dot before after =>
      simpa [String.append_assoc] using
        Relation.EqvGen.rel _ _ (Shortens.dot before (after ++ "/" ++ last))
    | endSlash before _ =>
      simpa [String.append_assoc] using Relation.EqvGen.rel _ _ (Shortens.slash before last)
    | endDot before =>
      have hdot := Relation.EqvGen.rel _ _ (Shortens.dot before last)
      have hslash := Relation.EqvGen.rel _ _ (Shortens.slash before last)
      simpa [String.append_assoc] using hdot.trans _ _ _ (hslash.symm _ _)

/-- A name behind a slash is a name that is joined to what stands before it. -/
theorem eqvGen_join (hpath : path.text ≠ "") (hslash : '/' ∉ last.toList) :
    Relation.EqvGen Shortens ⟨path.text ++ "/" ++ last⟩ (path.join ⟨last⟩) := by
  have hrelative := isAbsolute_of_notMem hslash
  unfold join
  rw [if_neg (by simp [hrelative])]
  split
  · rename_i hends
    have hends : path.endsInSlash := hends.resolve_left hpath
    obtain ⟨before, hbefore⟩ := List.getLast?_eq_some_iff.mp (beq_iff_eq.mp hends)
    have htext : path.text = String.ofList before ++ "/" := by
      rw [← String.toList_inj]
      simp [hbefore]
    rw [htext]
    simpa [String.append_assoc] using
      Relation.EqvGen.rel _ _ (Shortens.slash (String.ofList before) last)
  · exact .refl _

/-- The plainest path with these components. -/
def ofComponents (components : List String) : Path :=
  components.foldl (fun path component ↦ path.join ⟨component⟩) ⟨""⟩

/-- Every path differs from the plainest path with its components by parts that do not count. -/
theorem eqvGen_ofComponents (path : Path) :
    Relation.EqvGen Shortens path (ofComponents path.components) := by
  obtain ⟨text⟩ := path
  induction text using slash_induction with
  | plain text hslash =>
    by_cases htext : text = ""
    · subst htext
      exact .refl _
    · have hpieces := pieces_of_notMem hslash htext
      have hrelative := isAbsolute_of_notMem hslash
      have hcomponents : (Path.mk text).components = [text] := by
        simp [components, segments, hrelative, hpieces]
      have hplainest : ofComponents [text] = ⟨text⟩ := by
        simp [ofComponents, join, hrelative]
      rw [hcomponents, hplainest]
      exact .refl _
  | slash before last hslash ih =>
    -- First the text up to the last slash, which may be the one in front of an absolute path.
    have hfront : Relation.EqvGen Shortens ⟨before ++ "/"⟩
        (ofComponents (Path.mk (before ++ "/")).components) := by
      by_cases hbefore : before = ""
      · subst hbefore
        have hroot : ofComponents (Path.mk ("" ++ "/")).components = ⟨"" ++ "/"⟩ := by decide
        rw [hroot]
        exact .refl _
      · rw [components_endSlash hbefore]
        exact .trans _ _ _ (.rel _ _ (.endSlash before hbefore)) ih
    by_cases hempty : last = ""
    · rwa [hempty, String.append_empty]
    by_cases hdot : last = "."
    · rw [hdot, components_endDot]
      refine .trans _ _ _ ?_ hfront
      simpa [String.append_assoc] using Relation.EqvGen.rel _ _ (Shortens.endDot before)
    have hlast : (Path.mk last).pieces.filter (· != ".") = [last] := by
      rw [pieces_of_notMem hslash hempty, List.filter_cons_of_pos (by simpa using hdot),
        List.filter_nil]
    have hplainest : (ofComponents (Path.mk (before ++ "/")).components).text ≠ "" := by
      intro htext
      have hcomponents := components_eq_of_eqvGen hfront
      rw [show ofComponents (Path.mk (before ++ "/")).components = ⟨""⟩ from
        congrArg Path.mk htext] at hcomponents
      obtain ⟨head, rest, hhead⟩ :=
        List.exists_cons_of_ne_nil (segments_ne_nil (append_slash_ne_empty before))
      simp only [components, hhead] at hcomponents
      exact absurd hcomponents (List.cons_ne_nil _ _)
    have hjoin : ofComponents (Path.mk (before ++ "/" ++ last)).components =
        (ofComponents (Path.mk (before ++ "/")).components).join ⟨last⟩ := by
      rw [components_append_slash, hlast, ofComponents, List.foldl_append]
      rfl
    rw [hjoin]
    have hbehind := (eqvGen_append_slash hfront last).trans _ _ _ (eqvGen_join hplainest hslash)
    refine .trans _ _ _ (.symm _ _ ?_) hbehind
    simpa [String.append_assoc] using Relation.EqvGen.rel _ _ (Shortens.slash before last)

/-- Two paths have the same components exactly if one is turned into the other by parts that do not
count. -/
theorem components_eq_iff_eqvGen :
    first.components = second.components ↔ Relation.EqvGen Shortens first second := by
  refine ⟨fun hsame ↦ ?_, components_eq_of_eqvGen⟩
  have hplainest := eqvGen_ofComponents first
  rw [hsame] at hplainest
  exact hplainest.trans _ _ _ ((eqvGen_ofComponents second).symm _ _)

/-! ### Parts that count -/

/-- The pieces that are no dots. -/
def names (path : Path) : List String :=
  path.pieces.filter (· != ".")

/-- Whether the path is relative and starts with a dot. -/
def startsWithDot (path : Path) : Bool :=
  !path.isAbsolute && path.pieces.head? == some "."

/-- The component in front of the names, if there is one. -/
def opening (path : Path) : List String :=
  if path.isAbsolute then [rootMark] else if path.startsWithDot then ["."] else []

/-- What stands in front of the names tells where the path starts. -/
theorem eq_beq_opening (path : Path) :
    path.isAbsolute = (path.opening == [rootMark]) ∧ path.startsWithDot = (path.opening == ["."]) := by
  have hroot : (rootMark == ".") = false := by decide
  have hdot : ("." == rootMark) = false := by decide
  unfold opening
  cases habsolute : path.isAbsolute with
  | true => simp [startsWithDot, habsolute, hroot]
  | false => cases path.startsWithDot <;> simp [hdot]

/-- The components are the names behind what stands in front of them. -/
theorem components_eq_opening_append (path : Path) : path.components = path.opening ++ path.names := by
  unfold components segments opening startsWithDot names
  cases path.isAbsolute with
  | true => rfl
  | false =>
    cases path.pieces with
    | nil => rfl
    | cons first rest => by_cases hfirst : first = "." <;> simp [hfirst]

/-- What stands in front of the names is none of them. -/
theorem filter_components (path : Path) :
    path.components.filter (· ∈ [rootMark, "."]) = path.opening ∧
      path.components.filter (· ∉ [rootMark, "."]) = path.names := by
  have hnames : ∀ name ∈ path.names, name ∉ [rootMark, "."] := by
    intro name hname
    obtain ⟨hpiece, hdot⟩ := List.mem_filter.mp hname
    have hroot : name ≠ rootMark := fun hroot ↦ path.rootMark_notMem_pieces (hroot ▸ hpiece)
    simpa [hroot] using hdot
  have hopening : ∀ part ∈ path.opening, part ∈ [rootMark, "."] := by
    unfold opening
    split_ifs <;> simp
  have hmarks : path.opening.filter (· ∉ [rootMark, "."]) = [] :=
    List.filter_eq_nil_iff.mpr fun part hpart hnot ↦ of_decide_eq_true hnot (hopening part hpart)
  have hnoMarks : path.names.filter (· ∈ [rootMark, "."]) = [] :=
    List.filter_eq_nil_iff.mpr fun name hname hin ↦ hnames name hname (of_decide_eq_true hin)
  rw [components_eq_opening_append, List.filter_append, List.filter_append, hmarks, hnoMarks,
    List.append_nil, List.nil_append]
  exact ⟨List.filter_eq_self.mpr fun part hpart ↦ decide_eq_true (hopening part hpart),
    List.filter_eq_self.mpr fun name hname ↦ decide_eq_true (hnames name hname)⟩

/-- Two paths have the same components exactly if both or none are absolute, both or none start with a
dot, and their names are the same. -/
theorem components_eq_iff_names :
    first.components = second.components ↔
      first.isAbsolute = second.isAbsolute ∧ first.startsWithDot = second.startsWithDot ∧
        first.names = second.names := by
  constructor
  · intro hsame
    have hopening : first.opening = second.opening := by
      rw [← (filter_components first).1, hsame, (filter_components second).1]
    have hnames : first.names = second.names := by
      rw [← (filter_components first).2, hsame, (filter_components second).2]
    refine ⟨?_, ?_, hnames⟩
    · rw [(eq_beq_opening first).1, hopening, ← (eq_beq_opening second).1]
    · rw [(eq_beq_opening first).2, hopening, ← (eq_beq_opening second).2]
  · rintro ⟨habsolute, hdot, hnames⟩
    rw [components_eq_opening_append, components_eq_opening_append, opening, opening, habsolute, hdot,
      hnames]

end Path

end FrameSorter
