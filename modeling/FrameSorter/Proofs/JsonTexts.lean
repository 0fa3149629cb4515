import FrameSorter.Proofs.JsonTrees

/-!
# Texts of JSON trees

Every tree has a text, in which the same blanks, or none, stand in front of each of its parts
(`Tree.characters`). The text starts with the tree, whatever stands behind it (`Tree.leads_characters`).
-/

set_option autoImplicit false
set_option relaxedAutoImplicit false

namespace FrameSorter.Json

/-- In front of a part that is not the first, its comma. -/
def commaCharacters (gap : List Char) (isFirst : Bool) : List Char :=
  if isFirst then [] else gap ++ [',']

mutual

/-- A value, with the gap in front of each of its parts. -/
def Tree.characters (gap : List Char) : Tree → List Char
  | .scalar scalar => gap ++ scalar.characters
  | .list elements => gap ++ '[' :: elementsCharacters gap true elements
  | .object members => gap ++ '\x7b' :: membersCharacters gap true members

/-- The elements of a list and its closing bracket. -/
def elementsCharacters (gap : List Char) (isFirst : Bool) : List Tree → List Char
  | [] => gap ++ [']']
  | tree :: trees =>
    commaCharacters gap isFirst ++ (tree.characters gap ++ elementsCharacters gap false trees)

/-- The members of an object and its closing brace. -/
def membersCharacters (gap : List Char) (isFirst : Bool) : List (Literal × Tree) → List Char
  | [] => gap ++ ['\x7d']
  | (key, tree) :: members =>
    commaCharacters gap isFirst ++ (gap ++ (key.characters ++ (gap ++ ':' ::
      (tree.characters gap ++ membersCharacters gap false members))))

end

section Gaps

variable {gap : List Char} (hgap : skipBlanks gap = [])
include hgap

/-- Behind the gap stands what is no blank. -/
theorem skipBlanks_gap {first : Char} (hfirst : ¬ isBlank first) (more : List Char) :
    skipBlanks (gap ++ first :: more) = first :: more := by
  rw [skipBlanks_append_of_nil hgap]
  exact List.dropWhile_cons_of_neg hfirst

/-- Behind the gap stands the value. -/
theorem skipBlanks_gap_scalar (scalar : Scalar) (rest : List Char) :
    skipBlanks (gap ++ (scalar.characters ++ rest)) = scalar.characters ++ rest := by
  obtain ⟨first, more, hscalar, hstarts⟩ := scalar.exists_cons
  rw [hscalar, List.cons_append, skipBlanks_gap hgap hstarts.not_isBlank]

/-- The comma is found. -/
theorem leadsComma_commaCharacters (isFirst : Bool) (rest : List Char) :
    LeadsComma isFirst (commaCharacters gap isFirst ++ rest) rest := by
  cases isFirst with
  | true => rfl
  | false =>
    change skipBlanks ((gap ++ [',']) ++ rest) = ',' :: rest
    rw [List.append_assoc]
    exact skipBlanks_gap hgap (by decide) rest

mutual

/-- The text of a value starts with the value. -/
theorem Tree.leads_characters (tree : Tree) (rest : List Char) :
    tree.Leads (tree.characters gap ++ rest) rest := by
  match tree with
  | .scalar scalar =>
    rw [Tree.Leads, Tree.characters, List.append_assoc]
    exact skipBlanks_gap_scalar hgap scalar rest
  | .list elements =>
    rw [Tree.Leads, Tree.characters, List.append_assoc, List.cons_append]
    exact ⟨_, skipBlanks_gap hgap (by decide) _, leadsElements_characters elements true rest⟩
  | .object members =>
    rw [Tree.Leads, Tree.characters, List.append_assoc, List.cons_append]
    exact ⟨_, skipBlanks_gap hgap (by decide) _, leadsMembers_characters members true rest⟩

/-- The text of elements starts with the elements. -/
theorem leadsElements_characters (elements : List Tree) (isFirst : Bool) (rest : List Char) :
    LeadsElements isFirst elements (elementsCharacters gap isFirst elements ++ rest) rest := by
  match elements with
  | [] =>
    rw [LeadsElements, elementsCharacters, List.append_assoc]
    exact skipBlanks_gap hgap (by decide) rest
  | tree :: trees =>
    rw [LeadsElements, elementsCharacters, List.append_assoc, List.append_assoc]
    exact ⟨_, _, leadsComma_commaCharacters hgap isFirst _, tree.leads_characters _,
      leadsElements_characters trees false rest⟩

/-- The text of members starts with the members. -/
theorem leadsMembers_characters (members : List (Literal × Tree)) (isFirst : Bool)
    (rest : List Char) :
    LeadsMembers isFirst members (membersCharacters gap isFirst members ++ rest) rest := by
  match members with
  | [] =>
    rw [LeadsMembers, membersCharacters, List.append_assoc]
    exact skipBlanks_gap hgap (by decide) rest
  | (key, tree) :: members =>
    rw [LeadsMembers, membersCharacters]
    simp only [List.append_assoc, List.cons_append]
    exact ⟨_, _, _, _, leadsComma_commaCharacters hgap isFirst _,
      skipBlanks_gap_scalar hgap (.text key) _, skipBlanks_gap hgap (by decide) _,
      tree.leads_characters _, leadsMembers_characters members false rest⟩

end

end Gaps

end FrameSorter.Json
