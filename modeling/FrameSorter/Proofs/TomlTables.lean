import FrameSorter.Toml.Value

/-!
# Tables of a TOML document

A document grows at its end. The table that is open is the root (`isOpen_root`), the last member of the
root (`isOpen_table`), or the last element of a list of tables that is the last member of the root
(`isOpen_element`); a value that is put there comes behind what the table has already (`IsOpen`). A
header opens a new table (`openTable_of_notMem`), the first element of a list of tables
(`openElement_of_notMem`), or the next one of the list that comes last (`openElement_append`).
-/

set_option autoImplicit false
set_option relaxedAutoImplicit false

namespace FrameSorter.Toml

variable {members root : Members} {key word : String} {value : Value}

/-! ### Members -/

/-- A key that no member has is not found. -/
theorem lookup_of_notMem (hkey : key ∉ members.map Prod.fst) : members.lookup key = none := by
  rw [List.lookup_eq_none_iff]
  intro member hmember
  have hne : key ≠ member.1 := fun h ↦ hkey (h ▸ List.mem_map_of_mem hmember)
  simpa using hne

/-- A member that was added last is found. -/
theorem lookup_append (hkey : key ∉ members.map Prod.fst) (value : Value) :
    (members ++ [(key, value)]).lookup key = some value := by
  rw [List.lookup_append, lookup_of_notMem hkey]
  simp

/-- It is given a new value in its place. -/
theorem replace_append (hkey : key ∉ members.map Prod.fst) (old value : Value) :
    Members.replace (members ++ [(key, old)]) key value = members ++ [(key, value)] := by
  have hothers : Members.replace members key value = members := by
    rw [Members.replace]
    refine (List.map_congr_left fun member hmember ↦ ?_).trans (List.map_id members)
    have hne : member.1 ≠ key := fun h ↦ hkey (h ▸ List.mem_map_of_mem hmember)
    exact if_neg hne
  rw [Members.replace, List.map_append, ← Members.replace, hothers]
  simp

/-- A member with a new key is added at the end. -/
theorem addDotted_of_notMem (hkey : key ∉ members.map Prod.fst) (value : Value) (origin : Origin) :
    addDotted [] key value origin members = .ok (members ++ [(key, value)]) := by
  have hadd : addMember key value members = .ok (members ++ [(key, value)]) := by
    rw [addMember, lookup_of_notMem hkey]
  simpa [addDotted, descend] using hadd

/-! ### The table that is open -/

/-- Whether the table at a place of a document is open: a value that is put there is added to it, unless
it has its key. -/
def IsOpen (here : List String) (place : Members → Members) : Prop :=
  ∀ ⦃members key value⦄, key ∉ members.map Prod.fst →
    putValue here [] key value (place members) = .ok (place (members ++ [(key, value)]))

/-- In front of all headers the root is open. -/
theorem isOpen_root : IsOpen [] id := by
  intro members key value hkey
  exact addDotted_of_notMem hkey value .header

/-- Behind its header a table is. -/
theorem isOpen_table (hword : word ∉ root.map Prod.fst) :
    IsOpen [word] fun members ↦ root ++ [(word, .table .header members)] := by
  intro members key value hkey
  rw [putValue, descend, lookup_append hword]
  simp only [descend, addDotted_of_notMem hkey]
  rw [if_neg (by decide)]
  exact congrArg Except.ok (replace_append hword _ _)

/-- Behind the header of an element that element is. -/
theorem isOpen_element (hword : word ∉ root.map Prod.fst) (elements : List Members) :
    IsOpen [word] fun members ↦ root ++ [(word, .tables (elements ++ [members]))] := by
  intro members key value hkey
  rw [putValue, descend, lookup_append hword]
  simp only [List.getLast?_concat, descend, addDotted_of_notMem hkey]
  refine congrArg Except.ok ((replace_append hword _ _).trans ?_)
  rw [List.dropLast_concat]

/-! ### Headers -/

/-- The header of a new table adds an empty one. -/
theorem openTable_of_notMem (hword : word ∉ root.map Prod.fst) :
    openTable [] word root = .ok (root ++ [(word, .table .header [])]) := by
  rw [openTable, descend, lookup_of_notMem hword]

/-- The header of the first element adds a list with an empty table. -/
theorem openElement_of_notMem (hword : word ∉ root.map Prod.fst) :
    openElement [] word root = .ok (root ++ [(word, .tables [[]])]) := by
  rw [openElement, descend, lookup_of_notMem hword]

/-- The header of the next element adds an empty table to the list. -/
theorem openElement_append (hword : word ∉ root.map Prod.fst) (elements : List Members) :
    openElement [] word (root ++ [(word, .tables elements)]) =
      .ok (root ++ [(word, .tables (elements ++ [[]]))]) := by
  rw [openElement, descend, lookup_append hword]
  simp only [replace_append hword]

end FrameSorter.Toml
