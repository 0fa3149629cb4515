import FrameSorter.Pack.Layout
import FrameSorter.Proofs.FirstComplaint
import FrameSorter.Proofs.JsonData

/-!
# The JSON documents of a pack

A value is laid out as a tree that says the value (`exists_tree_of_layout`): the line breaks and blanks of
the layout stand only between the parts. So a strict reader reads the document back
(`readDocument_document`), and the two documents of a pack say what was asked for and nothing else
(`Pack.documents_read_back`).
-/

set_option autoImplicit false
set_option relaxedAutoImplicit false

namespace FrameSorter

namespace Json

/-! ### What a value says -/

/-- What a value says that is not nested deeper than `levels`. Whole numbers have 64 bits. -/
def Value.datum? : (levels : Nat) → Value → Option Datum
  | 0, _ => none
  | _ + 1, .natural n => if n < UInt64.size then some (.number (.integer n)) else none
  | _ + 1, .text content => some (.text content)
  | levels + 1, .list elements => (elements.mapM (datum? levels)).map .list
  | levels + 1, .object members =>
    (members.mapM fun member ↦ (datum? levels member.2).map (member.1, ·)).map .object

/-! ### Values without members -/

/-- A text has a literal that says it. -/
theorem exists_literal_of_content (content : String) :
    ∃ written : Literal, written.characters = (literal content).toList ∧
      written.content? = some content := by
  obtain ⟨s, hquote, hread⟩ := readLiteral_append content []
  obtain ⟨written, rfl⟩ := exists_literal_of_read hread
  refine ⟨written, ?_, ((readLiteral_iff written).mp hread).1⟩
  rw [List.append_nil, List.append_nil] at hquote
  exact hquote.symm

/-! ### Layout -/

section Layout

variable {levels : Nat} {tree : Tree} {rest : List Char}

/-- The start of a line is made of blanks. -/
theorem skipBlanks_indentation (depth : Nat) : skipBlanks (indentation depth).toList = [] := by
  rw [skipBlanks, List.dropWhile_eq_nil_iff]
  intro c hc
  simp only [indentation, String.toList_append, String.toList_ofList, List.mem_append,
    List.mem_replicate] at hc
  rcases hc with hc | ⟨-, rfl⟩
  · obtain rfl : c = '\n' := by simpa using hc
    rfl
  · rfl

/-- A value may stand behind blanks, and something may follow it. -/
theorem Tree.Leads.between {text gap : List Char} (hleads : tree.Leads text [])
    (hgap : skipBlanks gap = []) (more : List Char) : tree.Leads (gap ++ (text ++ more)) more := by
  rw [← Tree.leads_skipBlanks, skipBlanks_append_of_nil hgap, Tree.leads_skipBlanks]
  exact hleads.append more

/-- The first element of a list needs no comma. -/
theorem leadsElements_of_comma {trees : List Tree} {s : List Char}
    (hleads : LeadsElements false trees (',' :: s) rest) : LeadsElements true trees s rest := by
  cases trees with
  | nil =>
    rw [LeadsElements] at hleads
    cases hleads
  | cons tree trees =>
    rw [LeadsElements] at hleads ⊢
    obtain ⟨front, behind, hcomma, htree⟩ := hleads
    obtain rfl : s = front := (List.cons.inj hcomma).2
    exact ⟨s, behind, rfl, htree⟩

/-- The first member of an object needs no comma. -/
theorem leadsMembers_of_comma {members : List (Literal × Tree)} {s : List Char}
    (hleads : LeadsMembers false members (',' :: s) rest) : LeadsMembers true members s rest := by
  cases members with
  | nil =>
    rw [LeadsMembers] at hleads
    cases hleads
  | cons member members =>
    rw [LeadsMembers] at hleads ⊢
    obtain ⟨front, afterKey, value, behind, hcomma, hmember⟩ := hleads
    obtain rfl : s = front := (List.cons.inj hcomma).2
    exact ⟨s, afterKey, value, behind, rfl, hmember⟩

/-- An element behind its comma. -/
theorem toList_layoutElements_cons (depth : Nat) (value : Value) (values : List Value) :
    (layoutElements depth (value :: values)).toList =
      ',' :: ((indentation depth).toList ++
        ((value.layout depth).toList ++ (layoutElements depth values).toList)) := by
  simp [layoutElements]

/-- A member behind its comma. -/
theorem toList_layoutMembers_cons (depth : Nat) (key : String) (value : Value)
    (members : List (String × Value)) :
    (layoutMembers depth ((key, value) :: members)).toList =
      ',' :: ((indentation depth).toList ++ ((literal key).toList ++
        ':' :: ' ' :: ((value.layout depth).toList ++ (layoutMembers depth members).toList))) := by
  simp [layoutMembers]

section Parts

variable (h : ∀ {value : Value} {found : Datum} (depth : Nat), value.datum? levels = some found →
  ∃ tree : Tree, tree.Leads (value.layout depth).toList [] ∧ tree.datum? levels = some found)
include h

/-- Elements are laid out as trees. -/
theorem exists_trees_of_layoutElements (depth : Nat) {values : List Value} {found : List Datum}
    {closing : List Char} (hfound : values.mapM (Value.datum? levels) = some found) (hclosing : skipBlanks closing = [']']) :
    ∃ trees, LeadsElements false trees ((layoutElements depth values).toList ++ closing) [] ∧
      trees.mapM (Tree.datum? levels) = some found := by
  induction values generalizing found with
  | nil =>
    refine ⟨[], ?_, hfound⟩
    rw [LeadsElements]
    exact hclosing
  | cons value values ih =>
    obtain ⟨head, tail, hhead, htail, rfl⟩ := mapM_cons_eq_some_iff.mp hfound
    obtain ⟨tree, htree, hdatum⟩ := h depth hhead
    obtain ⟨trees, htrees, hdata⟩ := ih htail
    refine ⟨tree :: trees, ?_, mapM_cons_eq_some_iff.mpr ⟨head, tail, hdatum, hdata, rfl⟩⟩
    rw [LeadsElements]
    refine ⟨_, _, ?_, htree.between (skipBlanks_indentation depth) _, htrees⟩
    rw [toList_layoutElements_cons, List.cons_append, List.append_assoc, List.append_assoc]
    rfl

/-- Members are laid out as literals and trees. -/
theorem exists_members_of_layoutMembers (depth : Nat) {members : List (String × Value)}
    {found : List (String × Datum)} {closing : List Char}
    (hfound : members.mapM (fun member ↦ (member.2.datum? levels).map (member.1, ·)) = some found)
    (hclosing : skipBlanks closing = ['\x7d']) :
    ∃ trees, LeadsMembers false trees ((layoutMembers depth members).toList ++ closing) [] ∧
      trees.mapM (memberDatum? (Tree.datum? levels)) = some found := by
  induction members generalizing found with
  | nil =>
    refine ⟨[], ?_, hfound⟩
    rw [LeadsMembers]
    exact hclosing
  | cons member members ih =>
    obtain ⟨key, value⟩ := member
    obtain ⟨entry, tail, hentry, htail, rfl⟩ := mapM_cons_eq_some_iff.mp hfound
    obtain ⟨head, hhead, rfl⟩ := Option.map_eq_some_iff.mp hentry
    obtain ⟨written, hwritten, hcontent⟩ := exists_literal_of_content key
    obtain ⟨tree, htree, hdatum⟩ := h depth hhead
    obtain ⟨trees, htrees, hdata⟩ := ih htail
    refine ⟨(written, tree) :: trees, ?_,
      mapM_memberDatum?_cons_eq_some_iff.mpr ⟨key, head, tail, hcontent, hdatum, hdata, rfl⟩⟩
    have hkey (more : List Char) : skipBlanks ((indentation depth).toList ++
        ((literal key).toList ++ more)) = written.characters ++ more := by
      rw [skipBlanks_append_of_nil (skipBlanks_indentation depth), ← hwritten]
      rfl
    have hspace : skipBlanks [' '] = [] := rfl
    rw [LeadsMembers, toList_layoutMembers_cons]
    simp only [List.cons_append, List.append_assoc]
    exact ⟨_, _, _, _, rfl, hkey _, rfl, htree.between hspace _, htrees⟩

end Parts

/-- A list with elements, as its brackets and its elements behind commas. -/
theorem toList_layout_list_cons (depth : Nat) (value : Value) (values : List Value) :
    ∃ inside, ((Value.list (value :: values)).layout depth).toList = '[' :: inside ∧
      ',' :: inside = (layoutElements (depth + 1) (value :: values)).toList ++
        ((indentation depth).toList ++ [']']) := by
  rw [toList_layoutElements_cons, List.cons_append]
  exact ⟨_, by simp [Value.layout], rfl⟩

/-- An object with members, as its braces and its members behind commas. -/
theorem toList_layout_object_cons (depth : Nat) (member : String × Value)
    (members : List (String × Value)) :
    ∃ inside, ((Value.object (member :: members)).layout depth).toList = '\x7b' :: inside ∧
      ',' :: inside = (layoutMembers (depth + 1) (member :: members)).toList ++
        ((indentation depth).toList ++ ['\x7d']) := by
  obtain ⟨key, value⟩ := member
  rw [toList_layoutMembers_cons, List.cons_append]
  exact ⟨_, by simp [Value.layout], rfl⟩

/-- A value without members is laid out as such, from its first character on. -/
theorem leads_scalar {scalar : Scalar} {text : String} (htext : scalar.characters = text.toList) :
    (Tree.scalar scalar).Leads text.toList [] := by
  rw [← htext, ← List.append_nil scalar.characters]
  exact @Tree.leads_characters [] rfl (.scalar scalar) []

/-- A value is laid out as a tree that says what the value does. -/
theorem exists_tree_of_layout {value : Value} {found : Datum} (depth : Nat)
    (hfound : value.datum? levels = some found) :
    ∃ tree : Tree, tree.Leads (value.layout depth).toList [] ∧ tree.datum? levels = some found := by
  induction levels generalizing value found depth with
  | zero => cases hfound
  | succ levels ih =>
    match value with
    | .natural n =>
      obtain ⟨hn, hnumber⟩ := Option.ite_none_right_eq_some.mp hfound
      have hvalue : (Numeral.ofInt n).parts.number? = some (.integer n) := by
        have hlimit : UInt64.size = 2 ^ 64 := rfl
        exact Numeral.number?_ofInt.mpr ⟨by omega, rfl⟩
      refine ⟨.scalar (.number (.ofInt n)), leads_scalar (Numeral.characters_ofInt n), ?_⟩
      rw [Tree.datum?, Scalar.datum?, hvalue, Option.map_some, hnumber]
    | .text content =>
      obtain ⟨written, hwritten, hcontent⟩ := exists_literal_of_content content
      refine ⟨.scalar (.text written), leads_scalar hwritten, ?_⟩
      rw [Tree.datum?, Scalar.datum?, hcontent]
      exact hfound
    | .list [] =>
      refine ⟨.list [], ?_, hfound⟩
      simp only [Tree.Leads, LeadsElements, Value.layout]
      exact ⟨[']'], rfl, rfl⟩
    | .list (first :: others) =>
      obtain ⟨data, hdata, rfl⟩ := Option.map_eq_some_iff.mp hfound
      obtain ⟨inside, hlayout, hinside⟩ := toList_layout_list_cons depth first others
      have hclosing : skipBlanks ((indentation depth).toList ++ [']']) = [']'] :=
        skipBlanks_append_of_nil (skipBlanks_indentation depth) _
      obtain ⟨trees, htrees, hdatum⟩ :=
        exists_trees_of_layoutElements ih (depth + 1) hdata hclosing
      rw [← hinside] at htrees
      refine ⟨.list trees, ?_, Option.map_eq_some_iff.mpr ⟨data, hdatum, rfl⟩⟩
      rw [Tree.Leads, hlayout]
      exact ⟨inside, rfl, leadsElements_of_comma htrees⟩
    | .object [] =>
      refine ⟨.object [], ?_, hfound⟩
      simp only [Tree.Leads, LeadsMembers, Value.layout]
      exact ⟨['\x7d'], rfl, rfl⟩
    | .object (first :: others) =>
      obtain ⟨data, hdata, rfl⟩ := Option.map_eq_some_iff.mp hfound
      obtain ⟨inside, hlayout, hinside⟩ := toList_layout_object_cons depth first others
      have hclosing : skipBlanks ((indentation depth).toList ++ ['\x7d']) = ['\x7d'] :=
        skipBlanks_append_of_nil (skipBlanks_indentation depth) _
      obtain ⟨members, hmembers, hdatum⟩ :=
        exists_members_of_layoutMembers ih (depth + 1) hdata hclosing
      rw [← hinside] at hmembers
      refine ⟨.object members, ?_, Option.map_eq_some_iff.mpr ⟨data, hdatum, rfl⟩⟩
      rw [Tree.Leads, hlayout]
      exact ⟨inside, rfl, leadsMembers_of_comma hmembers⟩

end Layout

/-- A strict reader reads the document of a value as what the value says. -/
theorem readDocument_document {value : Value} {found : Datum}
    (hfound : value.datum? nestingLimit = some found) : readDocument value.document = .ok found := by
  obtain ⟨tree, htree, hdatum⟩ := exists_tree_of_layout 0 hfound
  refine readDocument_eq_ok_iff.mpr ⟨tree, ⟨['\n'], ?_, rfl⟩, hdatum⟩
  rw [Value.document, String.toList_append]
  exact htree.append _

end Json

namespace Pack

open Json

/-- What the description of a pack says. -/
def metadataDatum (options : PackOptions) : Datum :=
  .object [("pack", .object
    [("pack_format", .number (.integer options.packFormat.toNat)),
     ("description", .text options.description)])]

/-- What a tag says. -/
def tagDatum (functions : List String) : Datum :=
  .object [("values", .list (functions.map .text))]

/-- The description of a pack is read back. -/
theorem readDocument_metadata (options : PackOptions) :
    readDocument (metadataDocument options) = .ok (metadataDatum options) := by
  have hformat : options.packFormat.toNat < UInt64.size :=
    options.packFormat.toNat_lt.trans (by decide)
  refine readDocument_document ?_
  simp [nestingLimit, Value.datum?, hformat, metadataDatum]

/-- A tag is read back. -/
theorem readDocument_tag (functions : List String) :
    readDocument (tagDocument functions) = .ok (tagDatum functions) := by
  have htexts (levels : Nat) : (functions.map Value.text).mapM (Value.datum? (levels + 1)) =
      some (functions.map Datum.text) := by
    induction functions with
    | nil => rfl
    | cons function functions ih => exact mapM_cons_eq_some_iff.mpr ⟨_, _, rfl, ih, rfl⟩
  refine readDocument_document ?_
  simp [nestingLimit, Value.datum?, htexts, tagDatum]

/-- The documents of a pack say what was asked for: a strict reader finds one object in the description,
with the format and the text that the options have and nothing else, and in a tag the list of its
functions. So two of them are the same text only if they say the same. -/
theorem documents_read_back (options other : PackOptions) (functions others : List String) :
    readDocument (metadataDocument options) = .ok (metadataDatum options) ∧
      readDocument (tagDocument functions) = .ok (tagDatum functions) ∧
      (metadataDocument options = metadataDocument other ↔
        options.packFormat = other.packFormat ∧ options.description = other.description) ∧
      (tagDocument functions = tagDocument others ↔ functions = others) := by
  refine ⟨readDocument_metadata options, readDocument_tag functions, ⟨fun hsame ↦ ?_, ?_⟩,
    fun hsame ↦ ?_, congrArg tagDocument⟩
  · have hdata := readDocument_metadata other
    rw [← hsame, readDocument_metadata options] at hdata
    simpa [metadataDatum, UInt32.toNat_inj] using hdata
  · rintro ⟨hformat, hdescription⟩
    rw [metadataDocument, metadataDocument, hformat, hdescription]
  · have hdata := readDocument_tag others
    rw [← hsame, readDocument_tag functions] at hdata
    have htexts : functions.map Datum.text = others.map .text := by simpa [tagDatum] using hdata
    exact List.map_injective_iff.mpr (fun _ _ ↦ Datum.text.inj) htexts

end Pack

end FrameSorter
