import FrameSorter.Proofs.LedgerReading

/-!
# The records of a ledger agree

A ledger keeps ten records of what has been read, and `Ledger.Agrees` says how they hang together. The
functions of groups are those of the emitted identifiers (`GroupsAgree`). The functions of items are
those of the claimed item names, and an item is claimed together with its name (`ItemsAgree`). The
function of a group comes before those of its items (`ItemsAreOwned`), and a fallback is that of an
emitted group (`FallbackIsEmitted`). The function of a group keeps the agreement (`agrees_emitGroup`),
and so does every item of the group, whether it is emitted or reported (`agrees_addItem`); hence a
declared group keeps it (`agrees_addGroup`). So the records agree in every ledger that a compilation
passes through (`IsReached`), also while the items of a group are read (`agrees_of_isReached`).
-/

set_option autoImplicit false
set_option relaxedAutoImplicit false

namespace FrameSorter.Ledger

/-! ### What is compared -/

/-- The names of the functions of one kind, in the order in which they were made. -/
def namesOf (ledger : Ledger) (kind : ArtifactKind) : List String :=
  (ledger.routines.filter (·.kind = kind)).map Artifact.name

/-- The functions of groups are those of the emitted identifiers, which are distinct, claimed and not
empty. -/
structure GroupsAgree (ledger : Ledger) : Prop where
  functions : ledger.namesOf .group = ledger.emittedGroups.map groupArtifactName
  nodup : ledger.emittedGroups.Nodup
  claimed : ledger.emittedGroups ⊆ ledger.groupIds
  empty_notMem : "" ∉ ledger.emittedGroups

/-- The functions and the dispatch lines of items are those of the entries of `itemNames`, which pair a
name with the item that claimed it, and every claimed item has its name there. -/
structure ItemsAgree (config : Configuration) (ledger : Ledger) : Prop where
  functions : ledger.namesOf .item = ledger.itemNames.map fun entry ↦ itemArtifactName entry.1
  dispatchLines :
    ledger.dispatchLines =
      ledger.itemNames.map fun entry ↦ dispatchLine entry.2 (config.itemCall entry.1)
  nodup_names : (ledger.itemNames.map Prod.fst).Nodup
  name_eq : ∀ entry ∈ ledger.itemNames, entry.1 = itemName entry.2
  item_claimed : ∀ entry ∈ ledger.itemNames, entry.2 ∈ ledger.itemIds
  name_claimed : ∀ item ∈ ledger.itemIds, itemName item ∈ ledger.itemNames.map Prod.fst
  total_functions : ledger.totalItems = (ledger.namesOf .item).length
  total_names : ledger.totalItems = ledger.itemNames.length
  total_dispatchLines : ledger.totalItems = ledger.dispatchLines.length

/-- Every function of an item has the function of a group before it. -/
def ItemsAreOwned (ledger : Ledger) : Prop :=
  ∀ reading ∈ withEarlier [] ledger.routines,
    reading.2.kind = .item → ∃ owner ∈ reading.1, owner.kind = .group

/-- A fallback names a group, and it is that of an emitted group, which has its function. -/
def FallbackIsEmitted (config : Configuration) (ledger : Ledger) (fallback : String × String) : Prop :=
  fallback.2 ≠ "" ∧
    ∃ group frame, group.name = fallback.1 ∧ group.fallbackGroup = some fallback.2 ∧
      groupId group.name ∈ ledger.emittedGroups ∧ config.groupArtifact group frame ∈ ledger.routines

/-- How the records of a ledger hang together. -/
structure Agrees (config : Configuration) (ledger : Ledger) : Prop where
  groups : ledger.GroupsAgree
  items : ledger.ItemsAgree config
  owned : ledger.ItemsAreOwned
  fallbacks : ∀ fallback ∈ ledger.fallbacks, ledger.FallbackIsEmitted config fallback

/-- The ledgers that a compilation with these settings passes through: the one after a list of groups,
and those after some items of the group that is read next and is emitted. -/
inductive IsReached (config : Configuration) : Ledger → Prop
  | afterGroups (groups : List Group) : IsReached config (ofGroups config groups)
  | amongItems {groups : List Group} {group : Group} {frame : String} {read left : List String}
      (hid : groupId group.name ∉ (ofGroups config groups).groupIds)
      (hclaimed : (ofGroups config groups).claimedFrame? group = none)
      (hcomplete : group.completeFrame = .ok frame) (hitems : group.items = read ++ left) :
      IsReached config
        (read.foldl (addItem config group)
          (((ofGroups config groups).claim group).emitGroup config group frame))

/-- Claims the identifier of an item. -/
def claimItem (ledger : Ledger) (item : String) : Ledger :=
  { ledger with itemIds := ledger.itemIds ++ [item] }

variable {config : Configuration} {ledger : Ledger} {group : Group}

/-! ### One more function -/

section OneMore

variable {later : Ledger} {routine : Artifact}

/-- A new function adds its name to those of its kind. -/
theorem namesOf_of_concat (hroutines : later.routines = ledger.routines ++ [routine])
    {kind : ArtifactKind} (hkind : routine.kind = kind) :
    later.namesOf kind = ledger.namesOf kind ++ [routine.name] := by
  rw [namesOf, hroutines, List.filter_append, List.map_append, ← namesOf]
  simp [hkind]

/-- A new function adds no name to those of another kind. -/
theorem namesOf_of_concat_of_ne (hroutines : later.routines = ledger.routines ++ [routine])
    {kind : ArtifactKind} (hkind : routine.kind ≠ kind) : later.namesOf kind = ledger.namesOf kind := by
  rw [namesOf, hroutines, List.filter_append, List.map_append, ← namesOf]
  simp [hkind]

/-- A new function has all others before it, and those keep what is before them. -/
theorem itemsAreOwned_of_concat (hledger : ledger.ItemsAreOwned)
    (hroutines : later.routines = ledger.routines ++ [routine])
    (hroutine : routine.kind = .item → ∃ owner ∈ ledger.routines, owner.kind = .group) :
    later.ItemsAreOwned := by
  rw [ItemsAreOwned, hroutines, withEarlier_concat, List.forall_mem_append, List.forall_mem_singleton]
  exact ⟨hledger, hroutine⟩

/-- A fallback stays that of an emitted group while more functions are made. -/
theorem FallbackIsEmitted.of_subset {fallback : String × String}
    (hfallback : ledger.FallbackIsEmitted config fallback)
    (hemitted : ledger.emittedGroups ⊆ later.emittedGroups)
    (hroutines : ledger.routines ⊆ later.routines) : later.FallbackIsEmitted config fallback := by
  obtain ⟨hnamed, group, frame, hname, htarget, hid, hfunction⟩ := hfallback
  exact ⟨hnamed, group, frame, hname, htarget, hemitted hid, hroutines hfunction⟩

end OneMore

/-! ### Groups -/

/-- The records of the ledger before the first group agree. -/
theorem agrees_empty (config : Configuration) : Agrees config {} where
  groups :=
    { functions := rfl
      nodup := List.nodup_nil
      claimed := List.Subset.refl []
      empty_notMem := List.not_mem_nil }
  items :=
    { functions := rfl
      dispatchLines := rfl
      nodup_names := List.nodup_nil
      name_eq := List.forall_mem_nil _
      item_claimed := List.forall_mem_nil _
      name_claimed := List.forall_mem_nil _
      total_functions := rfl
      total_names := rfl
      total_dispatchLines := rfl }
  owned := List.forall_mem_nil _
  fallbacks := List.forall_mem_nil _

/-- An error changes none of these records. -/
theorem agrees_report (hledger : ledger.Agrees config) (error : CompileError) :
    (ledger.report error).Agrees config where
  groups := { hledger.groups with }
  items := { hledger.items with }
  owned := hledger.owned
  fallbacks := hledger.fallbacks

/-- A claim makes no function. -/
theorem agrees_claim (hledger : ledger.Agrees config) (group : Group) :
    (ledger.claim group).Agrees config where
  groups :=
    { hledger.groups with
      claimed := List.Subset.trans hledger.groups.claimed (List.subset_append_left _ _) }
  items := { hledger.items with }
  owned := hledger.owned
  fallbacks := hledger.fallbacks

/-- The emitted identifiers are those of the functions when a group with a new identifier gets its
function. -/
theorem groupsAgree_emitGroup (hledger : ledger.GroupsAgree)
    (hid : groupId group.name ∉ ledger.groupIds) (hempty : groupId group.name ≠ "") (frame : String) :
    ((ledger.claim group).emitGroup config group frame).GroupsAgree where
  functions := by
    have hroutines : ((ledger.claim group).emitGroup config group frame).routines =
        ledger.routines ++ [config.groupArtifact group frame] := rfl
    have hkind : (config.groupArtifact group frame).kind = .group := rfl
    change _ = (ledger.emittedGroups ++ [groupId group.name]).map groupArtifactName
    rw [namesOf_of_concat hroutines hkind, hledger.functions, List.map_append]
    rfl
  nodup := by
    have hnew : groupId group.name ∉ ledger.emittedGroups := fun hold ↦ hid (hledger.claimed hold)
    change (ledger.emittedGroups ++ [_]).Nodup
    rw [← List.concat_eq_append]
    exact hledger.nodup.concat hnew
  claimed :=
    List.append_subset.mpr
      ⟨List.Subset.trans hledger.claimed (List.subset_append_left _ _), List.subset_append_right _ _⟩
  empty_notMem := by
    intro hmem
    rcases List.mem_append.mp hmem with hold | hnew
    · exact hledger.empty_notMem hold
    · exact hempty (List.mem_singleton.mp hnew).symm

/-- The fallback of a group that gets its function is that of an emitted group. -/
theorem fallbackIsEmitted_emitGroup (frame : String) {fallback : String × String}
    (hfallback : fallback ∈ group.fallbackGroup.toList.map fun target ↦ (group.name, target)) :
    (ledger.emitGroup config group frame).FallbackIsEmitted config fallback := by
  obtain ⟨target, htarget, rfl⟩ := List.mem_map.mp hfallback
  have hgroup : group.fallbackGroup = some target := Option.mem_toList.mp htarget
  have hnamed : target ≠ "" := by
    simpa using (Option.filter_eq_some_iff.mp hgroup).2
  exact ⟨hnamed, group, frame, rfl, hgroup, List.mem_append_right _ (List.mem_singleton_self _),
    List.mem_append_right _ (List.mem_singleton_self _)⟩

/-- A group with a new identifier that is complete gets its function and its fallback. -/
theorem agrees_emitGroup (hledger : ledger.Agrees config) (hid : groupId group.name ∉ ledger.groupIds)
    {frame : String} (hcomplete : group.completeFrame = .ok frame) :
    ((ledger.claim group).emitGroup config group frame).Agrees config where
  groups :=
    groupsAgree_emitGroup hledger.groups hid (isComplete_of_completeFrame hcomplete).1.1 frame
  items := by
    have hroutines : ((ledger.claim group).emitGroup config group frame).routines =
        ledger.routines ++ [config.groupArtifact group frame] := rfl
    have hnames := namesOf_of_concat_of_ne hroutines (show ArtifactKind.group ≠ .item by decide)
    exact
      { hledger.items with
        functions := hnames.trans hledger.items.functions
        total_functions := by rw [hnames]; exact hledger.items.total_functions }
  owned := itemsAreOwned_of_concat hledger.owned rfl (by rintro ⟨⟩)
  fallbacks := by
    refine List.forall_mem_append.mpr ⟨fun fallback hold ↦ ?_, fun fallback hnew ↦ ?_⟩
    · exact (hledger.fallbacks fallback hold).of_subset (List.subset_append_left _ _)
        (List.subset_append_left _ _)
    · exact fallbackIsEmitted_emitGroup frame hnew

/-! ### Items -/

/-- An emitted identifier has its function. -/
theorem exists_function_of_emitted (hledger : ledger.GroupsAgree) {id : String}
    (hid : id ∈ ledger.emittedGroups) : ∃ owner ∈ ledger.routines, owner.kind = .group := by
  have hname : groupArtifactName id ∈ ledger.namesOf .group := by
    rw [hledger.functions]
    exact List.mem_map_of_mem hid
  obtain ⟨owner, howner, -⟩ := List.mem_map.mp hname
  obtain ⟨hmade, hkind⟩ := List.mem_filter.mp howner
  exact ⟨owner, hmade, of_decide_eq_true hkind⟩

/-- A name is claimed exactly if an item is looked up under it. -/
theorem isSome_lookup_iff {name : String} :
    (ledger.itemNames.lookup name).isSome ↔ name ∈ ledger.itemNames.map Prod.fst := by
  rw [List.lookup_isSome_iff, List.mem_map]
  exact exists_congr fun entry ↦ and_congr_right fun _ ↦ beq_iff_eq.trans eq_comm

/-- An item whose name is taken is claimed together with its name. -/
theorem itemsAgree_claimItem (hledger : ledger.ItemsAgree config) {item : String}
    (hname : itemName item ∈ ledger.itemNames.map Prod.fst) :
    (ledger.claimItem item).ItemsAgree config :=
  { hledger with
    item_claimed := fun entry hentry ↦ List.mem_append_left _ (hledger.item_claimed entry hentry)
    name_claimed := List.forall_mem_append.mpr
      ⟨hledger.name_claimed, List.forall_mem_singleton.mpr hname⟩ }

/-- An item with a new name adds its function, its name and its dispatch line. -/
theorem itemsAgree_emitItem (hledger : ledger.ItemsAgree config) (owner : String) {item : String}
    (hname : itemName item ∉ ledger.itemNames.map Prod.fst) :
    ((ledger.claimItem item).emitItem config owner item).ItemsAgree config := by
  have hroutines : ((ledger.claimItem item).emitItem config owner item).routines =
      ledger.routines ++ [config.itemArtifact owner item] := rfl
  have hnames : ((ledger.claimItem item).emitItem config owner item).itemNames =
      ledger.itemNames ++ [(itemName item, item)] := rfl
  have hlines : ((ledger.claimItem item).emitItem config owner item).dispatchLines =
      ledger.dispatchLines ++ [dispatchLine item (config.itemCall (itemName item))] := rfl
  have hkind : (config.itemArtifact owner item).kind = .item := rfl
  have hfunctions := namesOf_of_concat hroutines hkind
  exact
    { functions := by
        rw [hfunctions, hledger.functions, hnames, List.map_append]
        rfl
      dispatchLines := by
        rw [hlines, hledger.dispatchLines, hnames, List.map_append]
        rfl
      nodup_names := by
        rw [hnames, List.map_append, List.map_singleton, ← List.concat_eq_append]
        exact hledger.nodup_names.concat hname
      name_eq := by
        rw [hnames]
        exact List.forall_mem_append.mpr ⟨hledger.name_eq, List.forall_mem_singleton.mpr rfl⟩
      item_claimed := by
        rw [hnames]
        refine List.forall_mem_append.mpr ⟨fun entry hentry ↦ ?_, ?_⟩
        · exact List.mem_append_left _ (hledger.item_claimed entry hentry)
        · exact List.forall_mem_singleton.mpr (List.mem_append_right _ (List.mem_singleton_self item))
      name_claimed := by
        rw [hnames, List.map_append]
        refine List.forall_mem_append.mpr ⟨fun claimed hclaimed ↦ ?_, ?_⟩
        · exact List.mem_append_left _ (hledger.name_claimed claimed hclaimed)
        · exact List.forall_mem_singleton.mpr (List.mem_append_right _ (List.mem_singleton_self _))
      total_functions := by
        rw [hfunctions, List.length_append, ← hledger.total_functions]
        rfl
      total_names := by
        rw [hnames, List.length_append, ← hledger.total_names]
        rfl
      total_dispatchLines := by
        rw [hlines, List.length_append, ← hledger.total_dispatchLines]
        rfl }

/-- An item that is emitted keeps the agreement, its group being emitted before it. -/
theorem agrees_emitItem (hledger : ledger.Agrees config) {owner : String}
    (howner : owner ∈ ledger.emittedGroups) {item : String}
    (hname : itemName item ∉ ledger.itemNames.map Prod.fst) :
    ((ledger.claimItem item).emitItem config owner item).Agrees config := by
  have hroutines : ((ledger.claimItem item).emitItem config owner item).routines =
      ledger.routines ++ [config.itemArtifact owner item] := rfl
  have hnames := namesOf_of_concat_of_ne hroutines (show ArtifactKind.item ≠ .group by decide)
  exact
    { groups := { hledger.groups with functions := hnames.trans hledger.groups.functions }
      items := itemsAgree_emitItem hledger.items owner hname
      owned := itemsAreOwned_of_concat hledger.owned hroutines fun _ ↦
        exists_function_of_emitted hledger.groups howner
      fallbacks := fun fallback hfallback ↦ (hledger.fallbacks fallback hfallback).of_subset
        (List.Subset.refl _) (List.subset_append_left _ _) }

/-- An item of an emitted group keeps the agreement, whether it is emitted or reported. -/
theorem agrees_addItem (hledger : ledger.Agrees config)
    (howner : groupId group.name ∈ ledger.emittedGroups) (item : String) :
    (ledger.addItem config group item).Agrees config := by
  rw [addItem]
  split
  · exact agrees_report hledger _
  · cases hlookup : ledger.itemNames.lookup (itemName item) with
    | some first =>
      -- The item is claimed without a function; its name is claimed already, by the first item.
      have htaken : itemName item ∈ ledger.itemNames.map Prod.fst :=
        isSome_lookup_iff.mp (Option.isSome_of_eq_some hlookup)
      have hclaimed : (ledger.claimItem item).Agrees config :=
        { groups := { hledger.groups with }
          items := itemsAgree_claimItem hledger.items htaken
          owned := hledger.owned
          fallbacks := hledger.fallbacks }
      exact agrees_report hclaimed _
    | none =>
      have hnew : itemName item ∉ ledger.itemNames.map Prod.fst := by
        rw [← isSome_lookup_iff, hlookup]
        exact Bool.false_ne_true
      exact agrees_emitItem hledger howner hnew

/-- An item leaves the emitted groups as they are. -/
theorem emittedGroups_addItem (ledger : Ledger) (item : String) :
    (ledger.addItem config group item).emittedGroups = ledger.emittedGroups := by
  rw [addItem]
  split
  · rfl
  · cases ledger.itemNames.lookup (itemName item) <;> rfl

/-- The items of an emitted group, from the first on. -/
theorem agrees_foldl_addItem (hledger : ledger.Agrees config)
    (howner : groupId group.name ∈ ledger.emittedGroups) (items : List String) :
    (items.foldl (addItem config group) ledger).Agrees config := by
  induction items generalizing ledger with
  | nil => exact hledger
  | cons item items ih =>
    refine ih (agrees_addItem hledger howner item) ?_
    rwa [emittedGroups_addItem]

/-! ### Whole compilations -/

/-- The records agree after any number of items of a group that is emitted. -/
theorem agrees_amongItems (hledger : ledger.Agrees config) (hid : groupId group.name ∉ ledger.groupIds)
    {frame : String} (hcomplete : group.completeFrame = .ok frame) (items : List String) :
    (items.foldl (addItem config group)
      ((ledger.claim group).emitGroup config group frame)).Agrees config :=
  agrees_foldl_addItem (agrees_emitGroup hledger hid hcomplete)
    (List.mem_append_right _ (List.mem_singleton_self _)) items

/-- A declared group keeps the agreement. -/
theorem agrees_addGroup (hledger : ledger.Agrees config) (group : Group) :
    (ledger.addGroup config group).Agrees config := by
  rw [addGroup]
  split
  · exact agrees_report hledger _
  · rename_i hid
    cases ledger.claimedFrame? group with
    | some frame => exact agrees_report hledger _
    | none =>
      cases hcomplete : group.completeFrame with
      | error reason => exact agrees_report (agrees_claim hledger group) _
      | ok frame => exact agrees_amongItems hledger hid hcomplete group.items

/-- A list of declared groups keeps it. -/
theorem agrees_ofGroups (config : Configuration) (groups : List Group) :
    (ofGroups config groups).Agrees config := by
  induction groups using List.reverseRecOn with
  | nil => exact agrees_empty config
  | append_singleton groups group ih =>
    rw [ofGroups, List.foldl_append]
    exact agrees_addGroup ih group

/-- The records agree in every ledger that a compilation passes through. -/
theorem agrees_of_isReached (hreached : IsReached config ledger) : ledger.Agrees config := by
  cases hreached with
  | afterGroups groups => exact agrees_ofGroups config groups
  | @amongItems groups group frame read left hid hclaimed hcomplete hitems =>
    exact agrees_amongItems (agrees_ofGroups config groups) hid hcomplete read

/-- A shelf that is declared before another one. -/
def firstShelf : Group where
  name := "Woods"
  items := ["minecraft:oak_log"]
  itemFrame := some "minecraft:barrel"

/-- A shelf with two items of one name and one more item. -/
def twinShelf : Group where
  name := "Ores"
  items := ["minecraft:coal", "mod:coal", "minecraft:flint"]
  itemFrame := some "minecraft:chest"
  fallback := some "Woods"

/-- The ledger after the twins, of which the second is claimed and reported. -/
def twinLedger : Ledger :=
  ["minecraft:coal", "mod:coal"].foldl (addItem {} twinShelf)
    (((ofGroups {} [firstShelf]).claim twinShelf).emitGroup {} twinShelf "minecraft:chest")

/-- Its records agree, with three claimed items and functions for two of them. -/
theorem agrees_of_isReached_twinLedger :
    IsReached {} twinLedger ∧
      twinLedger.itemIds = ["minecraft:oak_log", "minecraft:coal", "mod:coal"] ∧
      twinLedger.totalItems = 2 ∧ twinLedger.Agrees {} := by
  have hreached : IsReached {} twinLedger :=
    .amongItems (by decide) (by decide) (by decide)
      (show twinShelf.items = _ ++ ["minecraft:flint"] from rfl)
  exact ⟨hreached, by decide, by decide, agrees_of_isReached hreached⟩

end FrameSorter.Ledger
