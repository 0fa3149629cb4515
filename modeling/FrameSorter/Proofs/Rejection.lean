import Mathlib.Data.List.Forall2
import FrameSorter.Proofs.Standing

/-!
# Which declarations are rejected, and why

A declared group that is not emitted is rejected, and so is an item of an emitted group that is not
emitted; the items of a rejected group are not read. `rejected` lists these declarations in the order
of reading, each with what was read before it, and `Rejected.IsAnsweredBy` says which error answers
which of them.
-/

set_option autoImplicit false
set_option relaxedAutoImplicit false

namespace FrameSorter

/-- A declaration that gets no function: a group after some declared groups, or an item of an emitted
group after some items of emitted groups. -/
inductive Rejected
  | group (before : List Group) (group : Group)
  | item (earlier : List String) (owner : Group) (item : String)

/-- The error that answers a rejected declaration. A repeated identifier comes before a repeated
frame, and both before the first thing that a group lacks; a repeated item comes before an item whose
name is taken. -/
inductive Rejected.IsAnsweredBy : Rejected → CompileError → Prop
  | duplicateGroupId {before : List Group} {group : Group}
      (hid : ∃ other ∈ freeGroups before, groupId other.name = groupId group.name) :
      IsAnsweredBy (.group before group) (.duplicateGroupId group.name (groupId group.name))
  | duplicateFrame {before : List Group} {group : Group} {frame : String}
      (hid : ¬ ∃ other ∈ freeGroups before, groupId other.name = groupId group.name)
      (hframe : group.frame = some frame)
      (hclaimed : ∃ other ∈ freeGroups before, other.frame = some frame) :
      IsAnsweredBy (.group before group) (.duplicateFrame group.name frame)
  | emptyId {before : List Group} {group : Group} (hfree : group.IsFree before)
      (hid : groupId group.name = "") :
      IsAnsweredBy (.group before group) (.invalidGroup group.name .emptyId)
  | noItems {before : List Group} {group : Group} (hfree : group.IsFree before)
      (hid : groupId group.name ≠ "") (hitems : group.items = []) :
      IsAnsweredBy (.group before group) (.invalidGroup group.name .noItems)
  | noItemFrame {before : List Group} {group : Group} (hfree : group.IsFree before)
      (hid : groupId group.name ≠ "") (hitems : group.items ≠ []) (hframe : group.frame = none) :
      IsAnsweredBy (.group before group) (.invalidGroup group.name .noItemFrame)
  | duplicateItem {earlier : List String} {owner : Group} {item : String} (hitem : item ∈ earlier) :
      IsAnsweredBy (.item earlier owner item) (.duplicateItem owner.name item)
  | duplicateItemName {earlier : List String} {owner : Group} {item first : String}
      (hitem : item ∉ earlier) (hfirst : first ∈ emittedItems earlier)
      (hname : itemName first = itemName item) (hdifferent : first ≠ item)
      (honly : ∀ other ∈ emittedItems earlier, itemName other = itemName item → other = first) :
      IsAnsweredBy (.item earlier owner item)
        (.duplicateItemName owner.name item (itemName item) first)

/-- The items of an emitted group that are rejected when they are read after some items. -/
def rejectedAmong (earlier : List String) (owner : Group) (items : List String) : List Rejected :=
  ((withEarlier earlier items).filter fun reading ↦ ¬ IsEmittedItem reading.1 reading.2).map
    fun reading ↦ .item reading.1 owner reading.2

/-- The rejected declarations in the order of reading. -/
def rejected (groups : List Group) : List Rejected :=
  (withEarlier [] groups).flatMap fun reading ↦
    if reading.2.IsEmitted reading.1 then
      rejectedAmong (itemsOf (emittedGroups reading.1)) reading.2 reading.2.items
    else [.group reading.1 reading.2]

@[simp] theorem rejectedAmong_nil (earlier : List String) (owner : Group) :
    rejectedAmong earlier owner [] = [] :=
  rfl

/-- The last item is rejected if it is not emitted after all before it. -/
theorem rejectedAmong_concat (earlier : List String) (owner : Group) (items : List String)
    (item : String) :
    rejectedAmong earlier owner (items ++ [item]) =
      rejectedAmong earlier owner items ++
        if IsEmittedItem (earlier ++ items) item then [] else [.item (earlier ++ items) owner item] := by
  rw [rejectedAmong, withEarlier_concat, List.filter_append, List.map_append, ← rejectedAmong]
  by_cases hitem : IsEmittedItem (earlier ++ items) item <;> simp [hitem]

/-- The last group adds its rejected items if it is emitted, and else itself. -/
theorem rejected_concat (groups : List Group) (group : Group) :
    rejected (groups ++ [group]) =
      rejected groups ++
        if group.IsEmitted groups then
          rejectedAmong (itemsOf (emittedGroups groups)) group group.items
        else [.group groups group] := by
  rw [rejected, withEarlier_concat, List.flatMap_append, ← rejected, List.nil_append]
  simp

/-- A group is free exactly if no free group has its identifier and none has its frame. -/
theorem Group.isFree_iff {before : List Group} {group : Group} :
    group.IsFree before ↔
      (¬ ∃ other ∈ freeGroups before, groupId other.name = groupId group.name) ∧
        ∀ frame, group.frame = some frame → ¬ ∃ other ∈ freeGroups before, other.frame = some frame := by
  constructor
  · intro hfree
    refine ⟨?_, ?_⟩
    · rintro ⟨other, hother, hid⟩
      exact hfree other hother (Or.inl hid.symm)
    · rintro frame hframe ⟨other, hother, hclaimed⟩
      exact hfree other hother (Or.inr ⟨by simp [hframe], hframe.trans hclaimed.symm⟩)
  · rintro ⟨hid, hframe⟩ other hother (hsame | ⟨hsome, hsame⟩)
    · exact hid ⟨other, hother, hsame.symm⟩
    · obtain ⟨frame, hgroup⟩ := Option.ne_none_iff_exists'.mp hsome
      exact hframe frame hgroup ⟨other, hother, hsame.symm.trans hgroup⟩

end FrameSorter
