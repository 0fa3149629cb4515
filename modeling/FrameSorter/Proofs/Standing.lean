import FrameSorter.Compilation
import FrameSorter.Proofs.Reading

/-!
# Which declarations stand

The declared groups and items that get a function, said without a ledger. A group is free if it
repeats neither the identifier nor the frame of an earlier free group (`freeGroups`, `Group.IsFree`),
and it is emitted if it is free and complete (`emittedGroups`, `Group.IsEmitted`); the groups before
it decide that (`emittedGroups_concat`). The items of the emitted groups are read as one list. An
item is emitted if its identifier is new in that list and no earlier emitted item has its name
(`emittedItems`, `IsEmittedItem`). The identifiers of the emitted groups are distinct
(`nodup_groupId_emittedGroups`), and so are the names of the emitted items
(`nodup_itemName_emittedItems`).
-/

set_option autoImplicit false
set_option relaxedAutoImplicit false

namespace FrameSorter

/-! ### Groups -/

/-- Two groups clash if they have the same identifier or the same frame. A group without a frame
shares none. -/
def Group.Clashes (group other : Group) : Prop :=
  groupId group.name = groupId other.name ∨ (group.frame ≠ none ∧ group.frame = other.frame)

instance : DecidableRel Group.Clashes :=
  fun _ _ ↦ inferInstanceAs (Decidable (_ ∨ _))

/-- The groups that clash with no earlier free group. -/
def freeGroups (groups : List Group) : List Group :=
  firstComers Group.Clashes groups

/-- A group is free after some groups if it clashes with none of the free ones. -/
def Group.IsFree (before : List Group) (group : Group) : Prop :=
  ∀ other ∈ freeGroups before, ¬ group.Clashes other

instance (before : List Group) (group : Group) : Decidable (group.IsFree before) :=
  inferInstanceAs (Decidable (∀ other ∈ freeGroups before, ¬ group.Clashes other))

/-- A group is complete if it has an identifier, an item and a frame. -/
def Group.IsComplete (group : Group) : Prop :=
  groupId group.name ≠ "" ∧ group.items ≠ [] ∧ group.frame ≠ none

instance : DecidablePred Group.IsComplete :=
  fun _ ↦ inferInstanceAs (Decidable (_ ∧ _))

/-- A group is emitted after some groups if it is free and complete. -/
def Group.IsEmitted (before : List Group) (group : Group) : Prop :=
  group.IsFree before ∧ group.IsComplete

instance (before : List Group) (group : Group) : Decidable (group.IsEmitted before) :=
  inferInstanceAs (Decidable (_ ∧ _))

/-- The groups that get a function. -/
def emittedGroups (groups : List Group) : List Group :=
  (freeGroups groups).filter (·.IsComplete)

/-- The last group joins the free ones if it is free after the others. -/
theorem freeGroups_concat (groups : List Group) (group : Group) :
    freeGroups (groups ++ [group]) =
      freeGroups groups ++ if group.IsFree groups then [group] else [] :=
  firstComers_concat Group.Clashes groups group

/-- The last group joins the emitted ones if it is emitted after the others. -/
theorem emittedGroups_concat (groups : List Group) (group : Group) :
    emittedGroups (groups ++ [group]) =
      emittedGroups groups ++ if group.IsEmitted groups then [group] else [] := by
  rw [emittedGroups, freeGroups_concat, List.filter_append, ← emittedGroups]
  by_cases hfree : group.IsFree groups
  · by_cases hcomplete : group.IsComplete <;> simp [Group.IsEmitted, hfree, hcomplete]
  · simp [Group.IsEmitted, hfree]

/-- The emitted groups are declared groups, in their order. -/
theorem emittedGroups_sublist (groups : List Group) : (emittedGroups groups).Sublist groups :=
  List.filter_sublist.trans (firstComers_sublist Group.Clashes groups)

/-- All groups are emitted exactly if none clashes with an earlier one and all are complete. -/
theorem emittedGroups_eq_self_iff (groups : List Group) :
    emittedGroups groups = groups ↔
      (groups.Pairwise fun earlier later ↦ ¬ later.Clashes earlier) ∧
        ∀ group ∈ groups, group.IsComplete := by
  rw [← firstComers_eq_self_iff Group.Clashes, ← freeGroups]
  constructor
  · intro h
    have hsublist : groups.Sublist (freeGroups groups) := by
      nth_rewrite 1 [← h]
      exact List.filter_sublist
    have hfree : freeGroups groups = groups :=
      (firstComers_sublist Group.Clashes groups).antisymm hsublist
    rw [emittedGroups, hfree, List.filter_eq_self] at h
    exact ⟨hfree, fun group hgroup ↦ of_decide_eq_true (h group hgroup)⟩
  · rintro ⟨hfree, hcomplete⟩
    rw [emittedGroups, hfree, List.filter_eq_self]
    exact fun group hgroup ↦ decide_eq_true (hcomplete group hgroup)

/-- No two free groups have the same identifier. -/
theorem nodup_groupId_freeGroups (groups : List Group) :
    ((freeGroups groups).map (groupId ·.name)).Nodup := by
  rw [List.Nodup, List.pairwise_map]
  refine (pairwise_firstComers Group.Clashes groups).imp ?_
  intro earlier later hclash hid
  exact hclash (Or.inl hid.symm)

/-- No two emitted groups have the same identifier. -/
theorem nodup_groupId_emittedGroups (groups : List Group) :
    ((emittedGroups groups).map (groupId ·.name)).Nodup :=
  (nodup_groupId_freeGroups groups).sublist (List.filter_sublist.map _)

/-! ### Items -/

/-- The items of a list of groups, as one list. -/
def itemsOf (groups : List Group) : List String :=
  groups.flatMap Group.items

/-- The items with a new identifier whose name no earlier emitted item has. -/
def emittedItems (items : List String) : List String :=
  firstComers (fun item other ↦ itemName item = itemName other) items.eraseDups

/-- An item is emitted after some items if it is none of them and no emitted one has its name. -/
def IsEmittedItem (earlier : List String) (item : String) : Prop :=
  item ∉ earlier ∧ ∀ other ∈ emittedItems earlier, itemName item ≠ itemName other

instance (earlier : List String) (item : String) : Decidable (IsEmittedItem earlier item) :=
  inferInstanceAs (Decidable (_ ∧ _))

/-- The items of a list that are emitted when the list is read after some items. -/
def emittedAmong (earlier items : List String) : List String :=
  ((withEarlier earlier items).filter fun reading ↦ IsEmittedItem reading.1 reading.2).map Prod.snd

@[simp] theorem itemsOf_append (first second : List Group) :
    itemsOf (first ++ second) = itemsOf first ++ itemsOf second :=
  List.flatMap_append

@[simp] theorem itemsOf_singleton (group : Group) : itemsOf [group] = group.items := by
  simp [itemsOf]

@[simp] theorem emittedAmong_nil (earlier : List String) : emittedAmong earlier [] = [] :=
  rfl

/-- An identifier that comes again is erased. -/
theorem eraseDups_concat (items : List String) (item : String) :
    (items ++ [item]).eraseDups = items.eraseDups ++ if item ∈ items then [] else [item] := by
  rw [List.eraseDups_append]
  by_cases hitem : item ∈ items <;> simp [List.removeAll, List.eraseDups_cons, hitem]

/-- The last item joins the emitted ones if it is emitted after the others. -/
theorem emittedItems_concat (items : List String) (item : String) :
    emittedItems (items ++ [item]) =
      emittedItems items ++ if IsEmittedItem items item then [item] else [] := by
  rw [emittedItems, eraseDups_concat]
  by_cases hitem : item ∈ items
  · have hold : ¬ IsEmittedItem items item := fun h ↦ h.1 hitem
    rw [if_pos hitem, if_neg hold, List.append_nil, List.append_nil, emittedItems]
  · rw [if_neg hitem, firstComers_concat, ← emittedItems]
    by_cases hname : ∀ other ∈ emittedItems items, itemName item ≠ itemName other
    · rw [if_pos hname, if_pos ⟨hitem, hname⟩]
    · rw [if_neg hname, if_neg fun h ↦ hname h.2]

/-- The last item of a list is among the emitted ones if it is emitted after all before it. -/
theorem emittedAmong_concat (earlier items : List String) (item : String) :
    emittedAmong earlier (items ++ [item]) =
      emittedAmong earlier items ++ if IsEmittedItem (earlier ++ items) item then [item] else [] := by
  rw [emittedAmong, withEarlier_concat, List.filter_append, List.map_append, ← emittedAmong]
  by_cases hitem : IsEmittedItem (earlier ++ items) item <;> simp [hitem]

/-- The items that are emitted among some items are items of them, in their order. -/
theorem emittedAmong_sublist (earlier items : List String) :
    (emittedAmong earlier items).Sublist items := by
  nth_rewrite 2 [← map_snd_withEarlier earlier items]
  exact List.filter_sublist.map Prod.snd

/-- What a second list adds to the emitted items is what is emitted when it is read after the
first. -/
theorem emittedItems_append (earlier items : List String) :
    emittedItems (earlier ++ items) = emittedItems earlier ++ emittedAmong earlier items := by
  induction items using List.reverseRecOn with
  | nil => simp
  | append_singleton items item ih =>
    rw [← List.append_assoc, emittedItems_concat, ih, emittedAmong_concat, List.append_assoc]

/-- The emitted items are items, in their order. -/
theorem emittedItems_sublist (items : List String) : (emittedItems items).Sublist items := by
  have hamong : emittedItems items = emittedAmong [] items := emittedItems_append [] items
  rw [hamong]
  exact emittedAmong_sublist [] items

/-- No two emitted items have the same name. -/
theorem nodup_itemName_emittedItems (items : List String) :
    ((emittedItems items).map itemName).Nodup := by
  rw [List.Nodup, List.pairwise_map]
  refine (pairwise_firstComers _ items.eraseDups).imp ?_
  exact fun hclash hname ↦ hclash hname.symm

/-- All items are emitted exactly if their names are distinct. -/
theorem emittedItems_eq_self_iff (items : List String) :
    emittedItems items = items ↔ (items.map itemName).Nodup := by
  constructor
  · intro h
    rw [← h]
    exact nodup_itemName_emittedItems items
  · intro h
    induction items using List.reverseRecOn with
    | nil => rfl
    | append_singleton items item ih =>
      rw [List.map_append, List.nodup_append] at h
      obtain ⟨hitems, -, hnew⟩ := h
      have hdistinct : ∀ other ∈ items, itemName item ≠ itemName other := fun other hother hname ↦
        hnew _ (List.mem_map_of_mem hother) _ List.mem_cons_self hname.symm
      have hemitted : IsEmittedItem items item :=
        ⟨fun hitem ↦ hdistinct item hitem rfl,
          fun other hother ↦ hdistinct other ((emittedItems_sublist items).subset hother)⟩
      rw [emittedItems_concat, if_pos hemitted, ih hitems]

/-- Where the names of two lists of items are distinct, all of the second are emitted after the
first. -/
theorem emittedAmong_eq_self {earlier items : List String}
    (hnames : ((earlier ++ items).map itemName).Nodup) : emittedAmong earlier items = items := by
  have hall := (emittedItems_eq_self_iff (earlier ++ items)).mpr hnames
  rw [List.map_append] at hnames
  rw [emittedItems_append,
    (emittedItems_eq_self_iff earlier).mpr (List.nodup_append.mp hnames).1] at hall
  exact List.append_cancel_left hall

end FrameSorter
