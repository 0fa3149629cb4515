import FrameSorter.Proofs.LaterGroups
import FrameSorter.Proofs.RemovedDeclarations

/-!
# Groups that are declared again

A group that is declared again is rejected, whatever became of it the first time. If it was free then,
it holds its own identifier; if not, it clashed with a free group, which still holds what it asks for
(`exists_firstComer_of_mem`, `Group.not_isFree_of_mem`). So repeated groups join neither the free nor
the emitted ones (`emittedGroups_append_of_mem`), each of them is rejected as a whole
(`rejected_append_of_mem`), and it is answered as a duplicate, never for what it lacks
(`Group.IsReportedTwice`). `compile_repeated` says what is left of that: the same pack, and one more
error for each repetition.
-/

set_option autoImplicit false
set_option relaxedAutoImplicit false

namespace FrameSorter

/-! ### Members that come again -/

/-- If every member clashes with itself, then every member clashes with a first comer. -/
theorem exists_firstComer_of_mem {α : Type*} (clash : α → α → Prop) [DecidableRel clash]
    (hrefl : ∀ member, clash member member) {list : List α} {member : α} (hmember : member ∈ list) :
    ∃ comer ∈ firstComers clash list, clash member comer := by
  induction list using List.reverseRecOn with
  | nil => cases hmember
  | append_singleton list last ih =>
    rw [firstComers_concat]
    rcases List.mem_append.mp hmember with hbefore | hlast
    · obtain ⟨comer, hcomer, hclash⟩ := ih hbefore
      exact ⟨comer, List.mem_append_left _ hcomer, hclash⟩
    · obtain rfl := List.mem_singleton.mp hlast
      by_cases hfree : ∀ comer ∈ firstComers clash list, ¬ clash member comer
      · rw [if_pos hfree]
        exact ⟨member, List.mem_append_right _ (List.mem_singleton_self member), hrefl member⟩
      · rw [if_neg hfree, List.append_nil]
        push Not at hfree
        exact hfree

section Groups

variable {groups extra : List Group} {group : Group}

/-- A group clashes with itself: it has its own identifier. -/
theorem Group.clashes_self (group : Group) : group.Clashes group :=
  Or.inl rfl

/-- A group is not free after groups among which it is. -/
theorem Group.not_isFree_of_mem (hgroup : group ∈ groups) : ¬ group.IsFree groups := by
  obtain ⟨comer, hcomer, hclash⟩ :=
    exists_firstComer_of_mem Group.Clashes Group.clashes_self hgroup
  exact fun hfree ↦ hfree comer hcomer hclash

/-- Repeated groups add nothing to the emitted ones. -/
theorem emittedGroups_append_of_mem (hextra : ∀ group ∈ extra, group ∈ groups) :
    emittedGroups (groups ++ extra) = emittedGroups groups := by
  induction extra using List.reverseRecOn with
  | nil => rw [List.append_nil]
  | append_singleton extra group ih =>
    obtain ⟨hbefore, hgroup⟩ := List.forall_mem_append.mp hextra
    have hknown : group ∈ groups ++ extra :=
      List.mem_append_left extra (hgroup group (List.mem_singleton_self group))
    have hrejected : ¬ group.IsEmitted (groups ++ extra) :=
      fun hemitted ↦ Group.not_isFree_of_mem hknown hemitted.1
    rw [← List.append_assoc, emittedGroups_concat, if_neg hrejected, List.append_nil, ih hbefore]

/-- Repeated groups are rejected one by one, each after all groups before it. -/
theorem rejected_append_of_mem (hextra : ∀ group ∈ extra, group ∈ groups) :
    rejected (groups ++ extra) =
      rejected groups ++ (withEarlier groups extra).map fun reading ↦ .group reading.1 reading.2 := by
  induction extra using List.reverseRecOn with
  | nil => rw [List.append_nil, withEarlier_nil, List.map_nil, List.append_nil]
  | append_singleton extra group ih =>
    obtain ⟨hbefore, hgroup⟩ := List.forall_mem_append.mp hextra
    have hknown : group ∈ groups ++ extra :=
      List.mem_append_left extra (hgroup group (List.mem_singleton_self group))
    have hrejected : ¬ group.IsEmitted (groups ++ extra) :=
      fun hemitted ↦ Group.not_isFree_of_mem hknown hemitted.1
    rw [← List.append_assoc, rejected_concat, if_neg hrejected, ih hbefore, withEarlier_concat,
      List.map_append, List.append_assoc]
    rfl

/-! ### What is said about them -/

/-- The errors that call a group a duplicate: of an identifier or of a frame, the group's own. -/
inductive Group.IsReportedTwice (group : Group) : CompileError → Prop
  | byId : group.IsReportedTwice (.duplicateGroupId group.name (groupId group.name))
  | byFrame {frame : String} (hframe : group.frame = some frame) :
      group.IsReportedTwice (.duplicateFrame group.name frame)

/-- A rejected group that is not free is answered as a duplicate. -/
theorem Rejected.IsAnsweredBy.isReportedTwice {before : List Group} {error : CompileError}
    (hfree : ¬ group.IsFree before) (hanswer : Rejected.IsAnsweredBy (.group before group) error) :
    group.IsReportedTwice error := by
  cases hanswer with
  | duplicateGroupId => exact .byId
  | duplicateFrame _ hframe => exact .byFrame hframe
  | emptyId hclaimed => exact absurd hclaimed hfree
  | noItems hclaimed => exact absurd hclaimed hfree
  | noItemFrame hclaimed => exact absurd hclaimed hfree

/-- Errors that answer repeated groups one by one call each of them a duplicate. -/
theorem forall₂_isReportedTwice {errors : List CompileError}
    (hextra : ∀ group ∈ extra, group ∈ groups)
    (hanswers : List.Forall₂ Rejected.IsAnsweredBy
      ((withEarlier groups extra).map fun reading ↦ .group reading.1 reading.2) errors) :
    List.Forall₂ Group.IsReportedTwice extra errors := by
  have hclaimed : ∀ reading ∈ withEarlier groups extra, ¬ reading.2.IsFree reading.1 := by
    intro reading hreading
    obtain ⟨first, second, hsplit, hbefore⟩ := mem_withEarlier_iff.mp hreading
    have hrepeated : reading.2 ∈ extra := hsplit ▸ List.mem_append_right _ List.mem_cons_self
    refine Group.not_isFree_of_mem ?_
    rw [hbefore]
    exact List.mem_append_left _ (hextra _ hrepeated)
  rw [List.forall₂_map_left_iff] at hanswers
  rw [← map_snd_withEarlier groups extra, List.forall₂_map_left_iff]
  refine List.Forall₂.imp ?_ ((List.forall₂_and_left _ _).mpr ⟨hclaimed, hanswers⟩)
  exact fun reading error h ↦ h.2.isReportedTwice h.1

end Groups

/-! ### Configurations -/

/-- The errors of a configuration that declares groups again: its own, and one for each repetition. -/
theorem errors_followedBy_of_mem {config : Configuration} {extra : List Group}
    (hextra : ∀ group ∈ extra, group ∈ config.groups) :
    ∃ repetitions,
      (compile (config.followedBy extra)).errors = (compile config).errors ++ repetitions ∧
        List.Forall₂ Group.IsReportedTwice extra repetitions := by
  obtain ⟨repetitions, happend⟩ := (grows_ofGroups_followedBy config extra).errors
  have herrors : (compile (config.followedBy extra)).errors =
      (compile config).errors ++ repetitions := happend.symm
  have hown : (rejected config.groups).length = (compile config).errors.length :=
    (ledgerReads_ofGroups config config.groups).errors.length_eq
  have hanswers : List.Forall₂ Rejected.IsAnsweredBy (rejected (config.groups ++ extra))
      (compile (config.followedBy extra)).errors :=
    (ledgerReads_ofGroups (config.followedBy extra) (config.groups ++ extra)).errors
  rw [rejected_append_of_mem hextra, herrors] at hanswers
  have hrepeated := List.forall₂_drop (rejected config.groups).length hanswers
  rw [List.drop_left, hown, List.drop_left] at hrepeated
  exact ⟨repetitions, herrors, forall₂_isReportedTwice hextra hrepeated⟩

/-- A group that is declared again changes nothing but the errors. However many groups of a
configuration are repeated behind it, accepted or not, the functions, the warnings, the number of items
and the dispatcher behind its header are the same, and each repetition adds one error that calls it a
duplicate. -/
theorem compile_repeated {config : Configuration} {extra : List Group}
    (hextra : ∀ group ∈ extra, group ∈ config.groups) :
    (config.followedBy extra).CompilesLike config ∧
      ∃ repetitions,
        (compile (config.followedBy extra)).errors = (compile config).errors ++ repetitions ∧
          List.Forall₂ Group.IsReportedTwice extra repetitions := by
  have hemitted := emittedGroups_append_of_mem hextra
  refine ⟨compilesLike_of_planned ?_ ?_ ?_, errors_followedBy_of_mem hextra⟩
  · rw [Configuration.plannedRoutines, hemitted, Configuration.plannedRoutines]
  · rw [hemitted]
  · rw [hemitted]

/-- Three of the crowded shelves: one that was rejected for its frame, the one without items, and one
that was accepted. -/
def returnedShelves : List Group :=
  [{ name := "Stones", items := ["minecraft:stone"], itemFrame := some "minecraft:barrel" },
   { name := "Empty", itemFrame := some "minecraft:barrel" },
   { name := "Ores", items := ["minecraft:coal", "minecraft:iron_ore"]
     itemFrame := some "minecraft:chest" }]

/-- Behind the crowded shelves the three of them are three more errors. -/
theorem compile_repeated_returnedShelves :
    (∀ group ∈ returnedShelves, group ∈ crowdedShelves.groups) ∧
      ∃ repetitions, (compile (crowdedShelves.followedBy returnedShelves)).errors =
        (compile crowdedShelves).errors ++ repetitions ∧ repetitions.length = 3 := by
  have hreturned : ∀ group ∈ returnedShelves, group ∈ crowdedShelves.groups := by decide +kernel
  obtain ⟨-, repetitions, herrors, hrepetitions⟩ := compile_repeated hreturned
  exact ⟨hreturned, repetitions, herrors, hrepetitions.length_eq.symm⟩

end FrameSorter
