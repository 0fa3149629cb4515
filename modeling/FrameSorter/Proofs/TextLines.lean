import Mathlib.Data.List.Infix
import Mathlib.Data.List.Induction
import FrameSorter.Dispatcher

/-!
# The lines of a text

A text up to a line feed keeps its lines whatever follows it (`textLines_append`), and it has as many
lines as line feeds (`length_textLines`). Hence the dispatch lines of written lines are those of each of
them (`dispatchLinesOf_append`, `dispatchLinesOf_join`). A written line holds no dispatch line exactly
if it does not begin like one and none of its line feeds stands right before such a beginning
(`dispatchLinesOf_eq_nil_iff`). A written line that begins like a dispatch line is read back unchanged
exactly if it has no line feed, and no carriage return at its end (`dispatchLinesOf_eq_singleton_iff`).
-/

set_option autoImplicit false
set_option relaxedAutoImplicit false

namespace FrameSorter

/-! ### Parts of a list beside a mark -/

section Marks

variable {α : Type*}

/-- A beginning without a mark ends before the mark. -/
theorem prefix_append_cons_iff {mark : α} {beginning before after : List α}
    (hmark : mark ∉ beginning) :
    beginning <+: before ++ mark :: after ↔ beginning <+: before := by
  constructor
  · intro hbegins
    rcases Nat.lt_or_ge before.length beginning.length with hlong | hshort
    · have hbefore : before ++ [mark] <+: before ++ mark :: after := ⟨after, by simp⟩
      have hmarked : before ++ [mark] <+: beginning :=
        List.prefix_of_prefix_length_le hbefore hbegins (by simp; omega)
      exact absurd (hmarked.subset (by simp)) hmark
    · exact List.prefix_of_prefix_length_le hbegins (List.prefix_append _ _) hshort
  · intro hbegins
    exact hbegins.trans (List.prefix_append _ _)

/-- A part without a mark lies before the mark or after it. -/
theorem infix_append_cons_iff {mark : α} {part before after : List α} (hmark : mark ∉ part)
    (hpart : part ≠ []) :
    part <:+: before ++ mark :: after ↔ part <:+: before ∨ part <:+: after := by
  induction before with
  | nil =>
    have hhead : ¬ part <+: [] ++ mark :: after := by
      rw [prefix_append_cons_iff hmark, List.prefix_nil]
      exact hpart
    rw [List.nil_append] at hhead
    rw [List.nil_append, List.infix_cons_iff, List.infix_nil]
    simp [hhead, hpart]
  | cons head before ih =>
    have hhead : part <+: head :: before ++ mark :: after ↔ part <+: head :: before :=
      prefix_append_cons_iff hmark
    rw [List.cons_append] at hhead
    rw [List.cons_append, List.infix_cons_iff, ih, List.infix_cons_iff, hhead, or_assoc]

/-- A part whose first element does not occur before a place lies behind the place. -/
theorem infix_append_iff_of_notMem {head : α} {tail before after : List α} (hhead : head ∉ before) :
    head :: tail <:+: before ++ after ↔ head :: tail <:+: after := by
  induction before with
  | nil => rfl
  | cons first before ih =>
    rw [List.mem_cons, not_or] at hhead
    rw [List.cons_append, List.infix_cons_iff, ih hhead.2, List.cons_prefix_cons]
    simp [hhead.1]

end Marks

/-- Some piece between line feeds begins in a given way if the text does, or if it has a line feed right
before such a beginning. -/
theorem begins_splitOn_iff {beginning chars : List Char} (hbeginning : '\n' ∉ beginning) :
    (∃ piece ∈ chars.splitOn '\n', beginning <+: piece) ↔
      beginning <+: chars ∨ '\n' :: beginning <:+: chars := by
  induction hlength : chars.length using Nat.strong_induction_on generalizing chars with
  | _ length ih =>
    by_cases hbreak : '\n' ∈ chars
    · obtain ⟨first, rest, rfl, hfirst⟩ := List.eq_append_cons_of_mem hbreak
      have hshorter : rest.length < length := by
        rw [← hlength, List.length_append, List.length_cons]
        omega
      rw [List.splitOn_append_cons_self_of_not_mem hfirst, prefix_append_cons_iff hbeginning,
        infix_append_iff_of_notMem hfirst, List.infix_cons_iff, List.cons_prefix_cons]
      simp [ih _ hshorter rfl]
    · have hbroken : ¬ '\n' :: beginning <:+: chars := fun hbroken ↦
        hbreak (hbroken.subset List.mem_cons_self)
      simp [List.splitOn_eq_singleton hbreak, hbroken]

/-! ### Lines -/

/-- The lines before a line feed do not depend on what follows it. -/
theorem textLines_append (text rest : String) :
    textLines (text ++ "\n" ++ rest) =
      (text.toList.splitOn '\n').map (fun line ↦ String.ofList (dropCarriageReturn line)) ++
        textLines rest := by
  have hpieces : (text ++ "\n" ++ rest).toList.splitOn '\n' =
      text.toList.splitOn '\n' ++ rest.toList.splitOn '\n' := by
    rw [String.append_assoc, String.toList_append, String.toList_append]
    exact List.splitOn_append_cons_self text.toList rest.toList
  have hrest : rest.toList.splitOn '\n' ≠ [] := List.splitOn_ne_nil '\n' rest.toList
  have hlast : (text.toList.splitOn '\n' ++ rest.toList.splitOn '\n').getLastD [] =
      (rest.toList.splitOn '\n').getLastD [] := by
    rw [List.getLastD_eq_getLast?, List.getLast?_append_of_ne_nil _ hrest, List.getLastD_eq_getLast?]
  simp only [textLines, hpieces, hlast]
  rw [List.dropLast_append_of_ne_nil hrest, List.map_append, List.append_assoc]

/-- The lines of a text that ends in a line feed are the pieces before its line feeds. -/
theorem textLines_lineFeed (text : String) :
    textLines (text ++ "\n") =
      (text.toList.splitOn '\n').map fun line ↦ String.ofList (dropCarriageReturn line) := by
  have hnone : textLines "" = [] := rfl
  have hrest := textLines_append text ""
  rwa [String.append_empty, hnone, List.append_nil] at hrest

/-- Every line feed separates two pieces. -/
theorem length_splitOn_lineFeed (chars : List Char) :
    (chars.splitOn '\n').length = chars.count '\n' + 1 := by
  induction chars with
  | nil => rfl
  | cons c rest ih =>
    rw [List.splitOn_cons_eq_if_modifyHead]
    by_cases hc : c = '\n' <;> simp [hc, ih]

/-- A text that ends in a line feed has as many lines as line feeds. -/
theorem length_textLines (text : String) :
    (textLines (text ++ "\n")).length = text.toList.count '\n' + 1 := by
  rw [textLines_lineFeed, List.length_map, length_splitOn_lineFeed]

/-! ### Dispatch lines -/

/-- The dispatch lines before a line feed do not depend on what follows it. -/
theorem dispatchLinesOf_append (text rest : String) :
    dispatchLinesOf (text ++ "\n" ++ rest) =
      dispatchLinesOf (text ++ "\n") ++ dispatchLinesOf rest := by
  rw [dispatchLinesOf, textLines_append, ← textLines_lineFeed, List.filter_append]
  rfl

/-- Commands that are ended by a line feed each are written lines. -/
theorem forall_mem_map_lineFeed (commands : List String) :
    ∀ line ∈ commands.map (· ++ "\n"), ∃ text, line = text ++ "\n" := by
  rw [List.forall_mem_map]
  exact fun command _ ↦ ⟨command, rfl⟩

/-- The dispatch lines of written lines are those of each of them. -/
theorem dispatchLinesOf_join {lines : List String}
    (hlines : ∀ line ∈ lines, ∃ text, line = text ++ "\n") :
    dispatchLinesOf (String.join lines) = lines.flatMap dispatchLinesOf := by
  induction lines with
  | nil => rfl
  | cons line lines ih =>
    obtain ⟨text, rfl⟩ := hlines line List.mem_cons_self
    have hothers : ∀ line ∈ lines, ∃ text, line = text ++ "\n" :=
      fun line hline ↦ hlines line (List.mem_cons_of_mem _ hline)
    rw [String.join_cons, dispatchLinesOf_append, ih hothers, List.flatMap_cons]

/-- A beginning without a carriage return is not affected by dropping one at the end. -/
theorem prefix_dropCarriageReturn_iff {beginning line : List Char} (hbeginning : '\r' ∉ beginning) :
    beginning <+: dropCarriageReturn line ↔ beginning <+: line := by
  unfold dropCarriageReturn
  split
  · rename_i hlast
    obtain ⟨before, rfl⟩ := List.getLast?_eq_some_iff.mp hlast
    rw [List.dropLast_concat, prefix_append_cons_iff hbeginning]
  · rfl

/-- A text has a line feed right before the beginning of a dispatch line. -/
def BreaksIntoDispatchLine (text : String) : Prop :=
  '\n' :: dispatchLinePrefix.toList <:+: text.toList

instance : DecidablePred BreaksIntoDispatchLine :=
  fun _ ↦ inferInstanceAs (Decidable (_ <:+: _))

/-- The pieces of a text that are dispatch lines. -/
theorem dispatchLinesOf_lineFeed (text : String) :
    dispatchLinesOf (text ++ "\n") =
      ((text.toList.splitOn '\n').filter (dispatchLinePrefix.toList.isPrefixOf ·)).map
        fun line ↦ String.ofList (dropCarriageReturn line) := by
  have hreturn : '\r' ∉ dispatchLinePrefix.toList := by decide
  rw [dispatchLinesOf, textLines_lineFeed, List.filter_map]
  refine congrArg _ (List.filter_congr fun line _ ↦ ?_)
  rw [Function.comp_apply, String.toList_ofList, Bool.eq_iff_iff, List.isPrefixOf_iff_prefix,
    List.isPrefixOf_iff_prefix, prefix_dropCarriageReturn_iff hreturn]

/-- A written line holds no dispatch line exactly if it does not begin like one and no line feed in it
stands right before such a beginning. -/
theorem dispatchLinesOf_eq_nil_iff {text : String} :
    dispatchLinesOf (text ++ "\n") = [] ↔
      ¬ dispatchLinePrefix.toList <+: text.toList ∧ ¬ BreaksIntoDispatchLine text := by
  have hfeed : '\n' ∉ dispatchLinePrefix.toList := by decide
  have hbegins : (∃ piece ∈ text.toList.splitOn '\n', dispatchLinePrefix.toList <+: piece) ↔
      dispatchLinePrefix.toList <+: text.toList ∨ BreaksIntoDispatchLine text :=
    begins_splitOn_iff hfeed
  rw [dispatchLinesOf_lineFeed, List.map_eq_nil_iff, List.filter_eq_nil_iff, ← not_or, ← hbegins]
  simp only [List.isPrefixOf_iff_prefix, not_exists, not_and]

/-- A written line that begins like a dispatch line is read back as one line exactly if it has no line
feed and no carriage return at its end. -/
theorem dispatchLinesOf_eq_singleton_iff {text : String}
    (hbegins : dispatchLinePrefix.toList <+: text.toList) :
    dispatchLinesOf (text ++ "\n") = [text] ↔
      '\n' ∉ text.toList ∧ text.toList.getLast? ≠ some '\r' := by
  have hfeed : '\n' ∉ dispatchLinePrefix.toList := by decide
  by_cases hbreak : '\n' ∈ text.toList
  · -- The first line is a dispatch line too, and it is shorter than the text.
    obtain ⟨first, rest, htext, hfirst⟩ := List.eq_append_cons_of_mem hbreak
    rw [htext, prefix_append_cons_iff hfeed] at hbegins
    obtain ⟨others, hlines⟩ : ∃ others,
        dispatchLinesOf (text ++ "\n") = String.ofList (dropCarriageReturn first) :: others := by
      rw [dispatchLinesOf_lineFeed, htext, List.splitOn_append_cons_self_of_not_mem hfirst,
        List.filter_cons_of_pos (List.isPrefixOf_iff_prefix.mpr hbegins), List.map_cons]
      exact ⟨_, rfl⟩
    have hshorter : (dropCarriageReturn first).length < text.toList.length := by
      have hdropped : (dropCarriageReturn first).length ≤ first.length := by
        unfold dropCarriageReturn
        split <;> simp
      rw [htext, List.length_append, List.length_cons]
      omega
    refine iff_of_false (fun hsame ↦ ?_) fun hkept ↦ hkept.1 hbreak
    rw [hlines, List.cons.injEq] at hsame
    rw [← hsame.1, String.toList_ofList] at hshorter
    exact Nat.lt_irrefl _ hshorter
  · rw [dispatchLinesOf_lineFeed, List.splitOn_eq_singleton hbreak,
      List.filter_cons_of_pos (List.isPrefixOf_iff_prefix.mpr hbegins), List.filter_nil]
    simp only [List.map_cons, List.map_nil, List.cons.injEq, and_true, hbreak, not_false_eq_true,
      true_and]
    rw [← String.toList_inj, String.toList_ofList]
    unfold dropCarriageReturn
    split
    · rename_i hlast
      obtain ⟨before, hbefore⟩ := List.getLast?_eq_some_iff.mp hlast
      simp [hbefore]
    · rename_i hlast
      simp [hlast]

end FrameSorter
