import Mathlib.Data.List.Forall2
import Mathlib.Data.Option.Basic
import FrameSorter.Compilation

/-!
# Groups by other names

A group is known by the identifier of its name only. If every name, and every name of a group to fall back
to, is replaced by one with the same identifier (`Configuration.Renames`), the compiler goes through the
declarations in step: its ledgers differ in the names that errors and fallbacks are recorded with and in
nothing else (`Ledger.Renames`). One item keeps this (`Ledger.Renames.addItem`), one group does
(`Ledger.Renames.addGroup`), and so does every list of groups (`Ledger.Renames.foldl`). What that says of
the compiled pack is `compile_renamed`.
-/

set_option autoImplicit false
set_option relaxedAutoImplicit false

namespace FrameSorter

/-! ### Other names -/

/-- A name of a group to fall back to, and another one for the same group. The empty text names none. -/
structure SameReference (target other : String) : Prop where
  id : groupId other = groupId target
  eq_empty_iff : other = "" ↔ target = ""

/-- A group, and the group with another name and another name for its fallback. -/
structure Group.Renames (group other : Group) : Prop where
  name : groupId other.name = groupId group.name
  items : other.items = group.items
  itemFrame : other.itemFrame = group.itemFrame
  fallback : Option.Rel SameReference group.fallback other.fallback

/-- A configuration, and the one with other names for its groups. -/
structure Configuration.Renames (config other : Configuration) : Prop where
  groups : List.Forall₂ Group.Renames config.groups other.groups
  otherwise : other = { config with groups := other.groups }

/-- An error without the name of the group that it is about. -/
def CompileError.withoutName : CompileError → CompileError
  | .duplicateGroupId _ id => .duplicateGroupId "" id
  | .duplicateFrame _ frame => .duplicateFrame "" frame
  | .duplicateItem _ item => .duplicateItem "" item
  | .duplicateItemName _ item name first => .duplicateItemName "" item name first
  | .invalidGroup _ reason => .invalidGroup "" reason

/-- A warning, and the warning about the same groups by other names. -/
inductive CompileWarning.Renames : CompileWarning → CompileWarning → Prop
  | unresolvedFallback {name other target otherTarget : String}
      (hname : groupId other = groupId name) (htarget : SameReference target otherTarget) :
      Renames (.unresolvedFallback name target) (.unresolvedFallback other otherTarget)

/-! ### The group behind a name -/

section Groups

variable {group renamed : Group}

theorem Group.Renames.frame_eq (hrenames : group.Renames renamed) : renamed.frame = group.frame := by
  rw [Group.frame, hrenames.itemFrame, Group.frame]

/-- A group by another name lacks what it lacked. -/
theorem Group.Renames.completeFrame_eq (hrenames : group.Renames renamed) :
    renamed.completeFrame = group.completeFrame := by
  rw [Group.completeFrame, hrenames.name, hrenames.items, hrenames.frame_eq, Group.completeFrame]

/-- A group by another name falls back to the same group, or to none as before. -/
theorem Group.Renames.fallbackGroup (hrenames : group.Renames renamed) :
    (group.fallbackGroup = none ∧ renamed.fallbackGroup = none) ∨
      ∃ target other, group.fallbackGroup = some target ∧ renamed.fallbackGroup = some other ∧
        SameReference target other := by
  obtain ⟨-, -, -, hfallback⟩ := hrenames
  unfold Group.fallbackGroup
  generalize group.fallback = fallback, renamed.fallback = otherFallback at hfallback
  cases hfallback with
  | none => exact Or.inl ⟨rfl, rfl⟩
  | @some target other hsame =>
    have hempty := hsame.eq_empty_iff
    by_cases htarget : target = ""
    · exact Or.inl (by simp [Option.filter, htarget, hempty.mpr htarget])
    · exact Or.inr ⟨target, other, by simp [Option.filter, htarget, hempty.not.mpr htarget, hsame]⟩

/-- The function of a group does not depend on its name beyond the identifier. -/
theorem Group.Renames.groupArtifact_eq (hrenames : group.Renames renamed) (config : Configuration)
    (frame : String) : config.groupArtifact renamed frame = config.groupArtifact group frame := by
  rcases hrenames.fallbackGroup with ⟨hnone, hother⟩ | ⟨target, other, htarget, hother, hsame⟩
  · simp only [Configuration.groupArtifact, hrenames.name, hnone, hother]
  · simp only [Configuration.groupArtifact, hrenames.name, htarget, hother, hsame.id]

end Groups

/-! ### Ledgers in step -/

namespace Ledger

/-- The record of a fallback, and the record of the same one by other names. -/
def SameFallback (fallback other : String × String) : Prop :=
  groupId other.1 = groupId fallback.1 ∧ SameReference fallback.2 other.2

/-- A ledger, and one that holds other names in the records of its fallbacks and errors. -/
inductive Renames (ledger : Ledger) : Ledger → Prop
  | intro {fallbacks : List (String × String)} {errors : List CompileError}
      (hfallbacks : List.Forall₂ SameFallback ledger.fallbacks fallbacks)
      (herrors : errors.map (·.withoutName) = ledger.errors.map (·.withoutName)) :
      Renames ledger { ledger with fallbacks, errors }

variable {ledger other : Ledger} {group renamed : Group} {config : Configuration}

/-- The same error by another name is reported. -/
theorem Renames.report (hledger : ledger.Renames other) {error otherError : CompileError}
    (herror : otherError.withoutName = error.withoutName) :
    (ledger.report error).Renames (other.report otherError) := by
  cases hledger with
  | intro hfallbacks herrors =>
    refine .intro hfallbacks ?_
    rw [Ledger.report, List.map_append, List.map_append, herrors, List.map_singleton,
      List.map_singleton, herror]

/-- A group by another name claims the same identifier and frame. -/
theorem Renames.claim (hledger : ledger.Renames other) (hgroup : group.Renames renamed) :
    (ledger.claim group).Renames (other.claim renamed) := by
  cases hledger with
  | intro hfallbacks herrors =>
    simp only [Ledger.claim, hgroup.name, hgroup.frame_eq]
    exact .intro hfallbacks herrors

/-- A group by another name gets the same function. -/
theorem Renames.emitGroup (hledger : ledger.Renames other) (hgroup : group.Renames renamed)
    (frame : String) :
    (ledger.emitGroup config group frame).Renames (other.emitGroup config renamed frame) := by
  have hadded : List.Forall₂ SameFallback
      (group.fallbackGroup.toList.map fun target ↦ (group.name, target))
      (renamed.fallbackGroup.toList.map fun target ↦ (renamed.name, target)) := by
    rcases hgroup.fallbackGroup with ⟨hnone, hother⟩ | ⟨target, other, htarget, hother, hsame⟩
    · rw [hnone, hother]
      exact .nil
    · rw [htarget, hother]
      exact .cons ⟨hgroup.name, hsame⟩ .nil
  cases hledger with
  | intro hfallbacks herrors =>
    simp only [Ledger.emitGroup, hgroup.name, hgroup.groupArtifact_eq]
    exact .intro (List.rel_append hfallbacks hadded) herrors

/-- One item of a group by another name. -/
theorem Renames.addItem (hledger : ledger.Renames other) (hgroup : group.Renames renamed)
    (item : String) :
    (ledger.addItem config group item).Renames (other.addItem config renamed item) := by
  cases hledger with
  | @intro fallbacks errors hfallbacks herrors =>
    unfold Ledger.addItem
    by_cases hitem : item ∈ ledger.itemIds
    · rw [if_pos hitem, if_pos hitem]
      exact Renames.report (.intro hfallbacks herrors) rfl
    · rw [if_neg hitem, if_neg hitem]
      have hclaimed : Renames { ledger with itemIds := ledger.itemIds ++ [item] }
          { ledger with itemIds := ledger.itemIds ++ [item], fallbacks, errors } :=
        .intro hfallbacks herrors
      cases ledger.itemNames.lookup (itemName item) with
      | some first => exact hclaimed.report rfl
      | none =>
        simp only [hgroup.name]
        exact .intro hfallbacks herrors

/-- The items of a group by another name. -/
theorem Renames.foldl_addItem (hledger : ledger.Renames other) (hgroup : group.Renames renamed)
    (items : List String) :
    (items.foldl (Ledger.addItem config group) ledger).Renames
      (items.foldl (Ledger.addItem config renamed) other) := by
  induction items generalizing ledger other with
  | nil => exact hledger
  | cons item items ih => exact ih (hledger.addItem hgroup item)

/-- One declared group by another name. -/
theorem Renames.addGroup (hledger : ledger.Renames other) (hgroup : group.Renames renamed) :
    (ledger.addGroup config group).Renames (other.addGroup config renamed) := by
  have hids : other.groupIds = ledger.groupIds := by
    cases hledger
    rfl
  have hclaimed : other.claimedFrame? renamed = ledger.claimedFrame? group := by
    cases hledger
    rw [claimedFrame?, hgroup.frame_eq, claimedFrame?]
  -- All that decides what becomes of the group is shared, so both ledgers take the same branch.
  unfold Ledger.addGroup
  rw [hids, hgroup.name, hclaimed, hgroup.completeFrame_eq, hgroup.items]
  split
  · exact hledger.report rfl
  · cases ledger.claimedFrame? group with
    | some frame => exact hledger.report rfl
    | none =>
      cases group.completeFrame with
      | error reason => exact (hledger.claim hgroup).report rfl
      | ok frame =>
        exact ((hledger.claim hgroup).emitGroup hgroup frame).foldl_addItem hgroup group.items

/-- A list of declared groups by other names. -/
theorem Renames.foldl (hledger : ledger.Renames other) {groups renamedGroups : List Group}
    (hgroups : List.Forall₂ Group.Renames groups renamedGroups) :
    (groups.foldl (Ledger.addGroup config) ledger).Renames
      (renamedGroups.foldl (Ledger.addGroup config) other) := by
  induction hgroups generalizing ledger other with
  | nil => exact hledger
  | cons hgroup _ ih => exact ih (hledger.addGroup hgroup)

/-- The warnings of a ledger are those about the same groups by other names. -/
theorem Renames.warnings (hledger : ledger.Renames other) :
    List.Forall₂ CompileWarning.Renames ledger.warnings other.warnings := by
  cases hledger with
  | intro hfallbacks herrors =>
    unfold Ledger.warnings
    rw [List.forall₂_map_left_iff, List.forall₂_map_right_iff]
    refine List.Forall₂.imp (fun first second hsame ↦ .unresolvedFallback hsame.1 hsame.2)
      (List.rel_filter (fun first second hsame ↦ ?_) hfallbacks)
    simp only [hsame.2.id]

/-- What a ledger shares with the one that holds other names. -/
theorem Renames.shared (hledger : ledger.Renames other) :
    other.routines = ledger.routines ∧ other.dispatchLines = ledger.dispatchLines ∧
      other.totalItems = ledger.totalItems ∧
        other.errors.map (·.withoutName) = ledger.errors.map (·.withoutName) := by
  cases hledger with
  | intro hfallbacks herrors => exact ⟨rfl, rfl, rfl, herrors⟩

end Ledger

/-! ### Configurations by other names -/

/-- The ledgers of a configuration and of the one with other names. -/
theorem Configuration.Renames.ofGroups {config other : Configuration} (hrenames : config.Renames other) :
    (Ledger.ofGroups config config.groups).Renames (Ledger.ofGroups other other.groups) := by
  obtain ⟨hgroups, hotherwise⟩ := hrenames
  have hstart : Ledger.Renames {} {} := .intro .nil rfl
  rw [hotherwise]
  exact hstart.foldl hgroups

/-- Identifiers have no characters that an identifier would leave out. -/
theorem groupId_groupId (name : String) : groupId (groupId name) = groupId name := by
  unfold groupId
  rw [String.toList_ofList, List.filter_filter]
  simp

/-- The group with its identifier for its name and with that of its fallback, unless it is empty. -/
def Group.inPlainNames (group : Group) : Group :=
  { group with
    name := groupId group.name
    fallback := group.fallback.map fun target ↦
      if groupId target = "" then target else groupId target }

/-- The configuration with identifiers for names. -/
def Configuration.inPlainNames (config : Configuration) : Configuration :=
  { config with groups := config.groups.map Group.inPlainNames }

/-- An identifier that is not empty names the group that it is the identifier of. -/
theorem sameReference_groupId (target : String) :
    SameReference target (if groupId target = "" then target else groupId target) := by
  split
  · exact ⟨rfl, Iff.rfl⟩
  · rename_i hid
    refine ⟨groupId_groupId target, iff_of_false hid ?_⟩
    rintro rfl
    exact hid rfl

/-- Identifiers are other names. -/
theorem renames_inPlainNames (config : Configuration) : config.Renames config.inPlainNames where
  groups := by
    rw [Configuration.inPlainNames, List.forall₂_map_right_iff, List.forall₂_same]
    intro group _
    refine ⟨groupId_groupId group.name, rfl, rfl, ?_⟩
    unfold Group.inPlainNames
    cases group.fallback with
    | none => exact .none
    | some target => exact .some (sameReference_groupId target)
  otherwise := rfl

/-- Groups act through their identifiers only. Where other names with the same identifiers are declared,
the functions of groups and of items, the counts and what follows the header of the dispatcher are the
same; the errors are the same but for the names in them; and the warnings are about the same groups, one
by one. The identifiers themselves are such names. -/
theorem compile_renamed (config : Configuration) :
    config.Renames config.inPlainNames ∧
      ∀ other, config.Renames other →
        (compile other).routines = (compile config).routines ∧
          (compile other).stats = (compile config).stats ∧
          (∃ body, (compile config).dispatcher.content = dispatcherHeader config ++ body ∧
            (compile other).dispatcher.content = dispatcherHeader other ++ body) ∧
          (compile other).errors.map (·.withoutName) = (compile config).errors.map (·.withoutName) ∧
          List.Forall₂ CompileWarning.Renames (compile config).warnings (compile other).warnings := by
  refine ⟨renames_inPlainNames config, fun other hrenames ↦ ?_⟩
  have hledger := hrenames.ofGroups
  obtain ⟨hroutines, hlines, hitems, herrors⟩ := hledger.shared
  have hgroups := hrenames.groups.length_eq
  refine ⟨hroutines, ?_, ⟨String.join (Ledger.ofGroups config config.groups).dispatchLines, rfl, ?_⟩,
    herrors, hledger.warnings⟩
  · change CompilationStats.mk (Ledger.ofGroups other other.groups).totalItems other.groups.length = _
    rw [hitems, ← hgroups]
    rfl
  · rw [← hlines]
    rfl

/-- Four shelves, of which the second repeats the identifier of the first, the third repeats the name of
an item and falls back to the first, and the fourth has no identifier. The first one falls back to a shelf
that is not declared. -/
def labelledShelves : Configuration where
  groups :=
    [{ name := "Ores & Ingots", items := ["minecraft:coal", "minecraft:iron_ingot"]
       itemFrame := some "minecraft:chest", fallback := some "Left-overs" },
     { name := "Ores, Ingots", items := ["minecraft:gold_ingot"]
       itemFrame := some "minecraft:furnace" },
     { name := "Wood (logs)", items := ["minecraft:oak_log", "other:coal"]
       itemFrame := some "minecraft:barrel", fallback := some "Ores/Ingots" },
     { name := "!!!", items := ["minecraft:stick"], itemFrame := some "minecraft:hopper" }]

/-- The same shelves with other punctuation in their names. -/
def relabelledShelves : Configuration where
  groups :=
    [{ name := "Ores + Ingots", items := ["minecraft:coal", "minecraft:iron_ingot"]
       itemFrame := some "minecraft:chest", fallback := some "Left overs" },
     { name := "OresIngots", items := ["minecraft:gold_ingot"]
       itemFrame := some "minecraft:furnace" },
     { name := "Wood: logs", items := ["minecraft:oak_log", "other:coal"]
       itemFrame := some "minecraft:barrel", fallback := some "OresIngots" },
     { name := "", items := ["minecraft:stick"], itemFrame := some "minecraft:hopper" }]

/-- The shelves have the same three errors and the same warning under either names, and the same
functions. -/
theorem compile_renamed_relabelledShelves :
    labelledShelves.Renames relabelledShelves ∧
      (compile labelledShelves).errors.length = 3 ∧ (compile labelledShelves).warnings.length = 1 ∧
      (compile relabelledShelves).routines = (compile labelledShelves).routines ∧
      (compile relabelledShelves).errors.map (·.withoutName) =
        (compile labelledShelves).errors.map (·.withoutName) ∧
      List.Forall₂ CompileWarning.Renames (compile labelledShelves).warnings
        (compile relabelledShelves).warnings := by
  have hrenames : labelledShelves.Renames relabelledShelves := by
    refine ⟨.cons ⟨by decide, rfl, rfl, .some ⟨by decide, by decide⟩⟩
      (.cons ⟨by decide, rfl, rfl, .none⟩
        (.cons ⟨by decide, rfl, rfl, .some ⟨by decide, by decide⟩⟩
          (.cons ⟨by decide, rfl, rfl, .none⟩ .nil))), rfl⟩
  obtain ⟨hroutines, -, -, herrors, hwarnings⟩ :=
    (compile_renamed labelledShelves).2 relabelledShelves hrenames
  exact ⟨hrenames, by decide +kernel, by decide +kernel, hroutines, herrors, hwarnings⟩

end FrameSorter
