import FrameSorter.Proofs.Planned
import FrameSorter.Proofs.Rejection

/-!
# The ledger reads the declarations that stand

After a list of groups the ledger holds what the declarations that stand ask for, and nothing else
(`LedgerReads`): the identifiers and frames of the free groups, the items of the emitted groups, the
functions and dispatch lines that are planned for them, and one error for each rejected declaration.
Within an emitted group `LedgerReadsItems` says the same of the items that have been read so far.
One item keeps the second (`ledgerReadsItems_addItem`), one group keeps the first
(`ledgerReads_addGroup`), and so every list of groups has it (`ledgerReads_ofGroups`).
-/

set_option autoImplicit false
set_option relaxedAutoImplicit false

namespace FrameSorter

variable {config : Configuration} {ledger : Ledger}

/-! ### Within an emitted group -/

section Items

variable {owner : Group} {earlier items : List String} {start : Ledger}

/-- What a ledger holds that was `start` after the items `earlier` of the emitted groups so far and
has since read `items` of the group `owner`. -/
structure LedgerReadsItems (config : Configuration) (owner : Group) (earlier items : List String)
    (start ledger : Ledger) : Prop where
  groupIds : ledger.groupIds = start.groupIds
  frames : ledger.frames = start.frames
  emitted : ledger.emittedGroups = start.emittedGroups
  fallbacks : ledger.fallbacks = start.fallbacks
  itemIds : ledger.itemIds = (earlier ++ items).eraseDups
  itemNames : ledger.itemNames = (emittedItems (earlier ++ items)).map fun item ↦ (itemName item, item)
  dispatchLines :
    ledger.dispatchLines = (emittedItems (earlier ++ items)).map config.itemDispatchLine
  totalItems : ledger.totalItems = (emittedItems (earlier ++ items)).length
  routines :
    ledger.routines = start.routines ++ (emittedAmong earlier items).map (config.itemRoutine owner)
  errors : ∃ answers, ledger.errors = start.errors ++ answers ∧
    List.Forall₂ Rejected.IsAnsweredBy (rejectedAmong earlier owner items) answers

/-- An item that is rejected adds the error that answers it. -/
theorem ledgerReadsItems_report (hreads : LedgerReadsItems config owner earlier items start ledger)
    {item : String} {error : CompileError} (hrejected : ¬ IsEmittedItem (earlier ++ items) item)
    (hanswer : Rejected.IsAnsweredBy (.item (earlier ++ items) owner item) error) :
    LedgerReadsItems config owner earlier (items ++ [item]) start
      ({ ledger with itemIds := (earlier ++ (items ++ [item])).eraseDups }.report error) := by
  have hemitted : emittedItems (earlier ++ (items ++ [item])) = emittedItems (earlier ++ items) := by
    rw [← List.append_assoc, emittedItems_concat, if_neg hrejected, List.append_nil]
  have hamong : emittedAmong earlier (items ++ [item]) = emittedAmong earlier items := by
    rw [emittedAmong_concat, if_neg hrejected, List.append_nil]
  obtain ⟨answers, herrors, hanswers⟩ := hreads.errors
  refine ⟨hreads.groupIds, hreads.frames, hreads.emitted, hreads.fallbacks, rfl, ?_, ?_, ?_, ?_, ?_⟩
  · rw [hemitted]
    exact hreads.itemNames
  · rw [hemitted]
    exact hreads.dispatchLines
  · rw [hemitted]
    exact hreads.totalItems
  · rw [hamong]
    exact hreads.routines
  · refine ⟨answers ++ [error], ?_, ?_⟩
    · change ledger.errors ++ [error] = start.errors ++ (answers ++ [error])
      rw [herrors, List.append_assoc]
    · rw [rejectedAmong_concat, if_neg hrejected]
      exact List.rel_append hanswers (.cons hanswer .nil)

/-- An item that is emitted adds its name, its function and its dispatch line. -/
theorem ledgerReadsItems_emitItem (hreads : LedgerReadsItems config owner earlier items start ledger)
    {item : String} (hemitted : IsEmittedItem (earlier ++ items) item) :
    LedgerReadsItems config owner earlier (items ++ [item]) start
      ({ ledger with itemIds := (earlier ++ (items ++ [item])).eraseDups }.emitItem config
        (groupId owner.name) item) := by
  have hitems : emittedItems (earlier ++ (items ++ [item])) =
      emittedItems (earlier ++ items) ++ [item] := by
    rw [← List.append_assoc, emittedItems_concat, if_pos hemitted]
  obtain ⟨answers, herrors, hanswers⟩ := hreads.errors
  refine ⟨hreads.groupIds, hreads.frames, hreads.emitted, hreads.fallbacks, rfl, ?_, ?_, ?_, ?_, ?_⟩
  · rw [hitems, List.map_append, ← hreads.itemNames]
    rfl
  · rw [hitems, List.map_append, ← hreads.dispatchLines]
    rfl
  · rw [hitems, List.length_append, ← hreads.totalItems]
    rfl
  · change ledger.routines ++ [config.itemArtifact (groupId owner.name) item] = _
    rw [emittedAmong_concat, if_pos hemitted, List.map_append, ← List.append_assoc,
      ← hreads.routines, config.itemArtifact_eq_itemRoutine]
    rfl
  · refine ⟨answers, herrors, ?_⟩
    rw [rejectedAmong_concat, if_pos hemitted, List.append_nil]
    exact hanswers

/-- An item that is looked up by its name is an emitted item of this name. -/
theorem mem_emittedItems_of_lookup {name first : String}
    (hlookup : ((emittedItems items).map fun item ↦ (itemName item, item)).lookup name = some first) :
    first ∈ emittedItems items ∧ itemName first = name := by
  obtain ⟨before, after, hsplit, -⟩ := List.lookup_eq_some_iff.mp hlookup
  have hpair : (name, first) ∈ (emittedItems items).map fun item ↦ (itemName item, item) := by
    rw [hsplit]
    exact List.mem_append_right _ List.mem_cons_self
  obtain ⟨item, hitem, heq⟩ := List.mem_map.mp hpair
  obtain ⟨rfl, rfl⟩ := Prod.mk.inj heq
  exact ⟨hitem, rfl⟩

/-- One more item of an emitted group. -/
theorem ledgerReadsItems_addItem (hreads : LedgerReadsItems config owner earlier items start ledger)
    (item : String) :
    LedgerReadsItems config owner earlier (items ++ [item]) start
      (ledger.addItem config owner item) := by
  have hids : (earlier ++ (items ++ [item])).eraseDups =
      ledger.itemIds ++ if item ∈ earlier ++ items then [] else [item] := by
    rw [← List.append_assoc, eraseDups_concat, hreads.itemIds]
  have hclaimed : item ∈ ledger.itemIds ↔ item ∈ earlier ++ items := by
    rw [hreads.itemIds, List.mem_eraseDups]
  by_cases hold : item ∈ earlier ++ items
  · have hanswer : Rejected.IsAnsweredBy (.item (earlier ++ items) owner item) _ :=
      .duplicateItem hold
    have hreport := ledgerReadsItems_report hreads (fun hemitted ↦ hemitted.1 hold) hanswer
    rw [hids, if_pos hold, List.append_nil] at hreport
    rw [Ledger.addItem, if_pos (hclaimed.mpr hold)]
    exact hreport
  · rw [if_neg hold] at hids
    rw [Ledger.addItem, if_neg (hclaimed.not.mpr hold), ← hids]
    cases hlookup : ledger.itemNames.lookup (itemName item) with
    | some first =>
      rw [hreads.itemNames] at hlookup
      obtain ⟨hfirst, hname⟩ := mem_emittedItems_of_lookup hlookup
      refine ledgerReadsItems_report hreads (fun hemitted ↦ hemitted.2 first hfirst hname.symm) ?_
      refine .duplicateItemName hold hfirst hname ?_ fun other hother hsame ↦ ?_
      · exact fun hsame ↦ hold (hsame ▸ (emittedItems_sublist _).subset hfirst)
      · exact List.inj_on_of_nodup_map (nodup_itemName_emittedItems _) hother hfirst
          (hsame.trans hname.symm)
    | none =>
      refine ledgerReadsItems_emitItem hreads ⟨hold, fun other hother hname ↦ ?_⟩
      rw [hreads.itemNames, List.lookup_eq_none_iff] at hlookup
      simpa [hname] using hlookup (itemName other, other) (List.mem_map_of_mem hother)

/-- The items of an emitted group, from the first on. -/
theorem ledgerReadsItems_foldl (hstart : LedgerReadsItems config owner earlier [] start start)
    (items : List String) :
    LedgerReadsItems config owner earlier items start
      (items.foldl (Ledger.addItem config owner) start) := by
  induction items using List.reverseRecOn with
  | nil => exact hstart
  | append_singleton items item ih =>
    rw [List.foldl_append]
    exact ledgerReadsItems_addItem ih item

end Items

/-! ### Group by group -/

/-- What a ledger holds that has read some declared groups. -/
structure LedgerReads (config : Configuration) (groups : List Group) (ledger : Ledger) : Prop where
  groupIds : ledger.groupIds = (freeGroups groups).map (groupId ·.name)
  frames : ledger.frames = (freeGroups groups).filterMap Group.frame
  emitted : ledger.emittedGroups = (emittedGroups groups).map (groupId ·.name)
  fallbacks : ledger.fallbacks = plannedFallbacks groups
  itemIds : ledger.itemIds = (itemsOf (emittedGroups groups)).eraseDups
  itemNames : ledger.itemNames =
    (emittedItems (itemsOf (emittedGroups groups))).map fun item ↦ (itemName item, item)
  dispatchLines : ledger.dispatchLines = config.plannedDispatchLines groups
  totalItems : ledger.totalItems = (emittedItems (itemsOf (emittedGroups groups))).length
  routines : ledger.routines = config.plannedRoutines groups
  errors : List.Forall₂ Rejected.IsAnsweredBy (rejected groups) ledger.errors

variable {groups : List Group} {group : Group}

/-- The ledger before the first group. -/
theorem ledgerReads_nil (config : Configuration) : LedgerReads config [] {} where
  groupIds := rfl
  frames := rfl
  emitted := rfl
  fallbacks := rfl
  itemIds := rfl
  itemNames := rfl
  dispatchLines := rfl
  totalItems := rfl
  routines := rfl
  errors := .nil

/-- The claimed identifiers are those of the free groups. -/
theorem mem_groupIds_iff (hreads : LedgerReads config groups ledger) {id : String} :
    id ∈ ledger.groupIds ↔ ∃ other ∈ freeGroups groups, groupId other.name = id := by
  rw [hreads.groupIds, List.mem_map]

/-- The claimed frames are those of the free groups. -/
theorem mem_frames_iff (hreads : LedgerReads config groups ledger) {frame : String} :
    frame ∈ ledger.frames ↔ ∃ other ∈ freeGroups groups, other.frame = some frame := by
  rw [hreads.frames, List.mem_filterMap]

/-- A free group claims its identifier and its frame. -/
theorem claim_groupIds (hreads : LedgerReads config groups ledger) (hfree : group.IsFree groups) :
    (ledger.claim group).groupIds = (freeGroups (groups ++ [group])).map (groupId ·.name) ∧
      (ledger.claim group).frames = (freeGroups (groups ++ [group])).filterMap Group.frame := by
  rw [freeGroups_concat, if_pos hfree, List.map_append, List.filterMap_append, ← hreads.groupIds,
    ← hreads.frames]
  refine ⟨rfl, ?_⟩
  change ledger.frames ++ group.frame.toList = ledger.frames ++ [group].filterMap Group.frame
  cases hframe : group.frame <;> simp [hframe]

/-- A group that is rejected changes none of the records of what is emitted, and it adds the error
that answers it. -/
theorem ledgerReads_report (hreads : LedgerReads config groups ledger) {claimed : Ledger}
    {error : CompileError} (hrejected : ¬ group.IsEmitted groups)
    (hanswer : Rejected.IsAnsweredBy (.group groups group) error)
    (hclaimed : claimed =
      { ledger with
        groupIds := (freeGroups (groups ++ [group])).map (groupId ·.name)
        frames := (freeGroups (groups ++ [group])).filterMap Group.frame }) :
    LedgerReads config (groups ++ [group]) (claimed.report error) := by
  have hemitted : emittedGroups (groups ++ [group]) = emittedGroups groups := by
    rw [emittedGroups_concat, if_neg hrejected, List.append_nil]
  subst hclaimed
  refine ⟨rfl, rfl, ?_, ?_, ?_, ?_, ?_, ?_, ?_, ?_⟩
  · rw [hemitted]
    exact hreads.emitted
  · rw [plannedFallbacks, hemitted]
    exact hreads.fallbacks
  · rw [hemitted]
    exact hreads.itemIds
  · rw [hemitted]
    exact hreads.itemNames
  · rw [Configuration.plannedDispatchLines, hemitted]
    exact hreads.dispatchLines
  · rw [hemitted]
    exact hreads.totalItems
  · rw [Configuration.plannedRoutines, hemitted]
    exact hreads.routines
  · rw [rejected_concat, if_neg hrejected]
    exact List.rel_append hreads.errors (.cons hanswer .nil)

/-- A group that is emitted adds its function, its fallback and what its items add. -/
theorem ledgerReads_emitGroup (hreads : LedgerReads config groups ledger) {frame : String}
    (hemitted : group.IsEmitted groups) (hframe : group.frame = some frame) :
    LedgerReads config (groups ++ [group])
      (group.items.foldl (Ledger.addItem config group)
        ((ledger.claim group).emitGroup config group frame)) := by
  have hgroups : emittedGroups (groups ++ [group]) = emittedGroups groups ++ [group] := by
    rw [emittedGroups_concat, if_pos hemitted]
  have hitemsOf : itemsOf (emittedGroups (groups ++ [group])) =
      itemsOf (emittedGroups groups) ++ group.items := by
    rw [hgroups, itemsOf_append, itemsOf_singleton]
  obtain ⟨hids, hframes⟩ := claim_groupIds hreads hemitted.1
  have hstart : LedgerReadsItems config group (itemsOf (emittedGroups groups)) []
      ((ledger.claim group).emitGroup config group frame)
      ((ledger.claim group).emitGroup config group frame) := by
    refine ⟨rfl, rfl, rfl, rfl, ?_, ?_, ?_, ?_, (List.append_nil _).symm, ?_⟩
    · rw [List.append_nil]
      exact hreads.itemIds
    · rw [List.append_nil]
      exact hreads.itemNames
    · rw [List.append_nil]
      exact hreads.dispatchLines
    · rw [List.append_nil]
      exact hreads.totalItems
    · exact ⟨[], (List.append_nil _).symm, .nil⟩
  have hitems := ledgerReadsItems_foldl hstart group.items
  refine ⟨hitems.groupIds.trans hids, hitems.frames.trans hframes, ?_, ?_, ?_, ?_, ?_, ?_, ?_, ?_⟩
  · rw [hitems.emitted, hgroups, List.map_append, ← hreads.emitted]
    rfl
  · rw [hitems.fallbacks, plannedFallbacks_concat, if_pos hemitted, ← hreads.fallbacks]
    rfl
  · rw [hitemsOf]
    exact hitems.itemIds
  · rw [hitemsOf]
    exact hitems.itemNames
  · rw [Configuration.plannedDispatchLines, hitemsOf]
    exact hitems.dispatchLines
  · rw [hitemsOf]
    exact hitems.totalItems
  · rw [hitems.routines, config.plannedRoutines_concat, if_pos hemitted, ← hreads.routines]
    change ledger.routines ++ [config.groupArtifact group frame] ++ _ = _
    rw [config.groupArtifact_eq_groupRoutine hframe, List.append_assoc]
    rfl
  · obtain ⟨answers, herrors, hanswers⟩ := hitems.errors
    rw [herrors, rejected_concat, if_pos hemitted]
    exact List.rel_append hreads.errors hanswers

/-- The frame of a group counts as claimed if a free group has it. -/
theorem claimedFrame?_eq_some_iff (hreads : LedgerReads config groups ledger) {frame : String} :
    ledger.claimedFrame? group = some frame ↔
      group.frame = some frame ∧ ∃ other ∈ freeGroups groups, other.frame = some frame := by
  rw [Ledger.claimedFrame?, Option.filter_eq_some_iff, decide_eq_true_iff, mem_frames_iff hreads]

/-- A group whose frame is handed out is complete. -/
theorem isComplete_of_completeFrame {frame : String} (hframe : group.completeFrame = .ok frame) :
    group.IsComplete ∧ group.frame = some frame := by
  unfold Group.completeFrame at hframe
  split_ifs at hframe with hid hitems
  cases hgroup : group.frame with
  | none =>
    rw [hgroup] at hframe
    cases hframe
  | some known =>
    rw [hgroup] at hframe
    obtain rfl := Except.ok.inj hframe
    exact ⟨⟨hid, hitems, by simp [hgroup]⟩, rfl⟩

/-- A free group that lacks something is answered by the first thing that it lacks. -/
theorem isAnsweredBy_of_completeFrame {reason : InvalidGroupReason} (hfree : group.IsFree groups)
    (hreason : group.completeFrame = .error reason) :
    ¬ group.IsComplete ∧
      Rejected.IsAnsweredBy (.group groups group) (.invalidGroup group.name reason) := by
  unfold Group.completeFrame at hreason
  split_ifs at hreason with hid hitems
  · obtain rfl := Except.error.inj hreason
    exact ⟨fun hcomplete ↦ hcomplete.1 hid, .emptyId hfree hid⟩
  · obtain rfl := Except.error.inj hreason
    exact ⟨fun hcomplete ↦ hcomplete.2.1 hitems, .noItems hfree hid hitems⟩
  · cases hgroup : group.frame with
    | none =>
      rw [hgroup] at hreason
      obtain rfl := Except.error.inj hreason
      exact ⟨fun hcomplete ↦ hcomplete.2.2 hgroup, .noItemFrame hfree hid hitems hgroup⟩
    | some frame =>
      rw [hgroup] at hreason
      cases hreason

/-- One more declared group. -/
theorem ledgerReads_addGroup (hreads : LedgerReads config groups ledger) (group : Group) :
    LedgerReads config (groups ++ [group]) (ledger.addGroup config group) := by
  have hunclaimed (hfree : ¬ group.IsFree groups) : ledger =
      { ledger with
        groupIds := (freeGroups (groups ++ [group])).map (groupId ·.name)
        frames := (freeGroups (groups ++ [group])).filterMap Group.frame } := by
    rw [freeGroups_concat, if_neg hfree, List.append_nil, ← hreads.groupIds, ← hreads.frames]
  rw [Ledger.addGroup]
  by_cases hid : ∃ other ∈ freeGroups groups, groupId other.name = groupId group.name
  · have hfree : ¬ group.IsFree groups := fun hfree ↦ (Group.isFree_iff.mp hfree).1 hid
    rw [if_pos ((mem_groupIds_iff hreads).mpr hid)]
    exact ledgerReads_report hreads (fun hemitted ↦ hfree hemitted.1) (.duplicateGroupId hid)
      (hunclaimed hfree)
  · rw [if_neg ((mem_groupIds_iff hreads).not.mpr hid)]
    cases hclaimed : ledger.claimedFrame? group with
    | some frame =>
      obtain ⟨hframe, hother⟩ := (claimedFrame?_eq_some_iff hreads).mp hclaimed
      have hfree : ¬ group.IsFree groups :=
        fun hfree ↦ (Group.isFree_iff.mp hfree).2 frame hframe hother
      exact ledgerReads_report hreads (fun hemitted ↦ hfree hemitted.1)
        (.duplicateFrame hid hframe hother) (hunclaimed hfree)
    | none =>
      have hfree : group.IsFree groups := by
        refine Group.isFree_iff.mpr ⟨hid, fun frame hframe hother ↦ ?_⟩
        rw [(claimedFrame?_eq_some_iff hreads).mpr ⟨hframe, hother⟩] at hclaimed
        cases hclaimed
      cases hcomplete : group.completeFrame with
      | error reason =>
        obtain ⟨hincomplete, hanswer⟩ := isAnsweredBy_of_completeFrame hfree hcomplete
        refine ledgerReads_report hreads (fun hemitted ↦ hincomplete hemitted.2) hanswer ?_
        obtain ⟨hids, hframes⟩ := claim_groupIds hreads hfree
        rw [← hids, ← hframes]
        rfl
      | ok frame =>
        obtain ⟨hcomplete, hframe⟩ := isComplete_of_completeFrame hcomplete
        exact ledgerReads_emitGroup hreads ⟨hfree, hcomplete⟩ hframe

/-- The ledger of a list of groups holds what the declarations that stand ask for. -/
theorem ledgerReads_ofGroups (config : Configuration) (groups : List Group) :
    LedgerReads config groups (Ledger.ofGroups config groups) := by
  induction groups using List.reverseRecOn with
  | nil => exact ledgerReads_nil config
  | append_singleton groups group ih =>
    rw [Ledger.ofGroups, List.foldl_append]
    exact ledgerReads_addGroup ih group

end FrameSorter
