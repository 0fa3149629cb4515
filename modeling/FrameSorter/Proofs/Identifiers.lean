import Mathlib.Data.List.TakeWhile
import FrameSorter.Identifier

/-!
# Names keep identifiers apart

The name of a function determines the identifier or the item name that it is made of
(`groupArtifactName_inj`, `itemArtifactName_inj`). The identifier of a group has no separators
(`notMem_groupId`). An item name is made of characters of the item's
identifier (`toList_itemName_subset`) and has no colon (`colon_notMem_itemName`), so the colon in a call
of an item's function is the last one (`eq_of_append_cons_eq`).
-/

set_option autoImplicit false
set_option relaxedAutoImplicit false

namespace FrameSorter

/-- Two groups have functions of one name exactly if they have one identifier. -/
theorem groupArtifactName_inj {first second : String} :
    groupArtifactName first = groupArtifactName second ↔ first = second := by
  simp [groupArtifactName]

/-- Two items have functions of one name exactly if they have one name. -/
theorem itemArtifactName_inj {first second : String} :
    itemArtifactName first = itemArtifactName second ↔ first = second := by
  simp [itemArtifactName]

/-- The identifier of a group has word characters only. -/
theorem notMem_groupId {c : Char} (hc : isWordCharacter c = false) (name : String) :
    c ∉ (groupId name).toList := by
  intro hmem
  rw [groupId, String.toList_ofList, List.mem_filter, hc] at hmem
  exact Bool.false_ne_true hmem.2

/-- An item name ends before the second colon of the identifier. -/
theorem colon_notMem_itemName (item : String) : ':' ∉ (itemName item).toList := by
  unfold itemName
  cases hdrop : item.toList.dropWhile (· != ':') with
  | nil =>
    intro hcolon
    have hall := List.dropWhile_eq_nil_iff.mp hdrop ':' hcolon
    simp at hall
  | cons colon afterColon =>
    intro hcolon
    rw [String.toList_ofList] at hcolon
    simpa using List.mem_takeWhile_imp hcolon

/-- An item name has no other characters than the identifier. -/
theorem toList_itemName_subset (item : String) : (itemName item).toList ⊆ item.toList := by
  unfold itemName
  cases hdrop : item.toList.dropWhile (· != ':') with
  | nil => exact List.Subset.refl _
  | cons colon afterColon =>
    rw [String.toList_ofList]
    have hafter : afterColon ⊆ item.toList := fun c hc ↦
      (List.dropWhile_sublist _).subset (hdrop ▸ List.mem_cons_of_mem colon hc)
    exact List.Subset.trans (List.takeWhile_sublist _).subset hafter

/-- The name of an item in a namespace is what stands behind the colon. -/
theorem itemName_resourceLocation {space name : String} (hspace : ':' ∉ space.toList)
    (hname : ':' ∉ name.toList) : itemName (resourceLocation space name) = name := by
  have hnoColon {text : List Char} (htext : ':' ∉ text) : ∀ c ∈ text, (c != ':') = true :=
    fun c hc ↦ bne_iff_ne.mpr fun hcolon ↦ htext (hcolon ▸ hc)
  have hafter : (resourceLocation space name).toList.dropWhile (· != ':') = ':' :: name.toList := by
    rw [resourceLocation, String.toList_append, String.toList_append, List.append_assoc,
      List.dropWhile_append_of_pos (hnoColon hspace)]
    rfl
  rw [itemName, hafter]
  simp only [List.takeWhile_eq_self_iff.mpr (hnoColon hname), String.ofList_toList]

/-- What follows the last occurrence of an element is determined. -/
theorem eq_of_append_cons_eq {α : Type*} {mark : α} {before before' after after' : List α}
    (hafter : mark ∉ after) (hafter' : mark ∉ after')
    (heq : before ++ mark :: after = before' ++ mark :: after') : after = after' := by
  rcases List.append_eq_append_iff.mp heq with ⟨between, -, hsplit⟩ | ⟨between, -, hsplit⟩
  · cases between with
    | nil => exact (List.cons.inj hsplit).2
    | cons head tail =>
      refine absurd ?_ hafter
      rw [(List.cons.inj hsplit).2]
      exact List.mem_append_right _ List.mem_cons_self
  · cases between with
    | nil => exact (List.cons.inj hsplit).2.symm
    | cons head tail =>
      refine absurd ?_ hafter'
      rw [(List.cons.inj hsplit).2]
      exact List.mem_append_right _ List.mem_cons_self

end FrameSorter
