import Mathlib.Data.List.Infix
import FrameSorter.Compilation

/-!
# Groups that are declared later

A group is compiled with what the groups before it have left in the ledger, so groups that are
declared behind a configuration (`Configuration.followedBy`) take nothing from it. A ledger grows with
every group (`Ledger.grows_addGroup`) and so with every list of them (`Ledger.grows_foldl`): its
functions, errors and dispatch lines stay in front (`Ledger.Grows`). Only the warnings are read off at
the end. A later group may be the one that an earlier group falls back to, which takes a warning away,
and every warning that comes new is about a later group (`warnings_of_grows`). Together this is
`compile_followedBy`.
-/

set_option autoImplicit false
set_option relaxedAutoImplicit false

namespace FrameSorter

/-- A configuration with more groups behind its own. -/
def Configuration.followedBy (config : Configuration) (extra : List Group) : Configuration :=
  { config with groups := config.groups ++ extra }

namespace Ledger

/-- What a ledger shows of an earlier one when it has read the groups `extra` since. -/
structure Grows (extra : List Group) (earlier later : Ledger) : Prop where
  routines : earlier.routines <+: later.routines
  errors : earlier.errors <+: later.errors
  dispatchLines : earlier.dispatchLines <+: later.dispatchLines
  emitted : earlier.emittedGroups ⊆ later.emittedGroups
  fallbacks : ∃ added, later.fallbacks = earlier.fallbacks ++ added ∧
    ∀ fallback ∈ added, ∃ group ∈ extra,
      group.name = fallback.1 ∧ group.fallbackGroup = some fallback.2

variable {config : Configuration} {first second : List Group} {earlier later last : Ledger}

theorem Grows.refl (extra : List Group) (ledger : Ledger) : Grows extra ledger ledger where
  routines := List.prefix_rfl
  errors := List.prefix_rfl
  dispatchLines := List.prefix_rfl
  emitted := List.Subset.refl _
  fallbacks := ⟨[], (List.append_nil _).symm, List.forall_mem_nil _⟩

theorem Grows.trans (hfirst : Grows first earlier later) (hsecond : Grows second later last) :
    Grows (first ++ second) earlier last where
  routines := hfirst.routines.trans hsecond.routines
  errors := hfirst.errors.trans hsecond.errors
  dispatchLines := hfirst.dispatchLines.trans hsecond.dispatchLines
  emitted := List.Subset.trans hfirst.emitted hsecond.emitted
  fallbacks := by
    obtain ⟨added, hlater, hadded⟩ := hfirst.fallbacks
    obtain ⟨more, hlast, hmore⟩ := hsecond.fallbacks
    refine ⟨added ++ more, by rw [hlast, hlater, List.append_assoc], ?_⟩
    refine List.forall_mem_append.mpr ⟨fun fallback hfallback ↦ ?_, fun fallback hfallback ↦ ?_⟩
    · obtain ⟨group, hgroup, hnames⟩ := hadded fallback hfallback
      exact ⟨group, List.mem_append_left _ hgroup, hnames⟩
    · obtain ⟨group, hgroup, hnames⟩ := hmore fallback hfallback
      exact ⟨group, List.mem_append_right _ hgroup, hnames⟩

/-- A ledger grows by whatever is put behind its records. -/
theorem Grows.of_eq (extra : List Group) {routines : List Artifact} {errors : List CompileError}
    {dispatchLines : List String} (hroutines : later.routines = earlier.routines ++ routines)
    (herrors : later.errors = earlier.errors ++ errors)
    (hlines : later.dispatchLines = earlier.dispatchLines ++ dispatchLines)
    (hemitted : later.emittedGroups = earlier.emittedGroups)
    (hfallbacks : later.fallbacks = earlier.fallbacks) : Grows extra earlier later where
  routines := hroutines ▸ List.prefix_append _ _
  errors := herrors ▸ List.prefix_append _ _
  dispatchLines := hlines ▸ List.prefix_append _ _
  emitted := hemitted ▸ List.Subset.refl _
  fallbacks := ⟨[], by rw [hfallbacks, List.append_nil], List.forall_mem_nil _⟩

/-- One item of an emitted group. -/
theorem grows_addItem (config : Configuration) (extra : List Group) (owner : Group) (ledger : Ledger)
    (item : String) : Grows extra ledger (ledger.addItem config owner item) := by
  unfold addItem
  split
  · exact .of_eq extra (List.append_nil _).symm rfl (List.append_nil _).symm rfl rfl
  · cases ledger.itemNames.lookup (itemName item) with
    | some first => exact .of_eq extra (List.append_nil _).symm rfl (List.append_nil _).symm rfl rfl
    | none => exact .of_eq extra rfl (List.append_nil _).symm rfl rfl rfl

/-- The items of an emitted group. -/
theorem grows_foldl_addItem (config : Configuration) (owner : Group) (ledger : Ledger)
    (items : List String) : Grows [] ledger (items.foldl (addItem config owner) ledger) := by
  induction items generalizing ledger with
  | nil => exact .refl [] ledger
  | cons item items ih => exact (grows_addItem config [] owner ledger item).trans (ih _)

/-- The function of a group, and its fallback. -/
theorem grows_emitGroup (config : Configuration) (ledger : Ledger) (group : Group) (frame : String) :
    Grows [group] ledger ((ledger.claim group).emitGroup config group frame) where
  routines := List.prefix_append _ _
  errors := List.prefix_rfl
  dispatchLines := List.prefix_rfl
  emitted := List.subset_append_left _ _
  fallbacks := by
    refine ⟨_, rfl, fun fallback hfallback ↦ ⟨group, List.mem_singleton_self group, ?_⟩⟩
    obtain ⟨target, htarget, rfl⟩ := List.mem_map.mp hfallback
    exact ⟨rfl, Option.mem_toList.mp htarget⟩

/-- One declared group. -/
theorem grows_addGroup (config : Configuration) (ledger : Ledger) (group : Group) :
    Grows [group] ledger (ledger.addGroup config group) := by
  have hreport (error : CompileError) : Grows [group] ledger (ledger.report error) :=
    .of_eq [group] (List.append_nil _).symm rfl (List.append_nil _).symm rfl rfl
  unfold addGroup
  split
  · exact hreport _
  · cases ledger.claimedFrame? group with
    | some frame => exact hreport _
    | none =>
      cases group.completeFrame with
      | error reason =>
        exact .of_eq [group] (List.append_nil _).symm rfl (List.append_nil _).symm rfl rfl
      | ok frame =>
        exact (grows_emitGroup config ledger group frame).trans
          (grows_foldl_addItem config group _ group.items)

/-- A list of declared groups. -/
theorem grows_foldl (config : Configuration) (ledger : Ledger) (extra : List Group) :
    Grows extra ledger (extra.foldl (addGroup config) ledger) := by
  induction extra generalizing ledger with
  | nil => exact .refl [] ledger
  | cons group extra ih => exact (grows_addGroup config ledger group).trans (ih _)

/-- The warnings that a larger ledger gives: some of those of the smaller one, in their order, then
warnings about groups that were read since. -/
theorem warnings_of_grows (hgrows : Grows second earlier later) :
    ∃ kept added, later.warnings = kept ++ added ∧ kept.Sublist earlier.warnings ∧
      ∀ warning ∈ added, ∃ group ∈ second, ∃ target,
        group.fallbackGroup = some target ∧ warning = .unresolvedFallback group.name target := by
  obtain ⟨more, hlater, hmore⟩ := hgrows.fallbacks
  unfold warnings
  rw [hlater, List.filter_append, List.map_append]
  refine ⟨_, _, rfl, List.Sublist.map _ ?_, fun warning hwarning ↦ ?_⟩
  · refine List.monotone_filter_right earlier.fallbacks fun fallback hunknown ↦ ?_
    have hlate : groupId fallback.2 ∉ later.emittedGroups := of_decide_eq_true hunknown
    exact decide_eq_true fun hknown ↦ hlate (hgrows.emitted hknown)
  · obtain ⟨⟨name, target⟩, hfallback, rfl⟩ := List.mem_map.mp hwarning
    obtain ⟨group, hgroup, rfl, htarget⟩ := hmore _ (List.mem_filter.mp hfallback).1
    exact ⟨group, hgroup, target, htarget, rfl⟩

end Ledger

variable (config : Configuration) (extra : List Group)

/-- The ledger of a configuration grows by the groups that follow. What is made for a group does not
depend on the list of the declared groups. -/
theorem grows_ofGroups_followedBy :
    (Ledger.ofGroups config config.groups).Grows extra
      (Ledger.ofGroups (config.followedBy extra) (config.followedBy extra).groups) := by
  have hledger : Ledger.ofGroups (config.followedBy extra) (config.followedBy extra).groups =
      extra.foldl (Ledger.addGroup config) (Ledger.ofGroups config config.groups) :=
    List.foldl_append
  rw [hledger]
  exact Ledger.grows_foldl config _ extra

/-- First come, first served: groups that are declared later leave the functions, the errors and the
dispatch lines of the groups before them in front of their own. Of the warnings about the earlier groups
they can only take some away, and they add warnings about themselves. -/
theorem compile_followedBy :
    (compile config).routines <+: (compile (config.followedBy extra)).routines ∧
      (compile config).errors <+: (compile (config.followedBy extra)).errors ∧
      (∃ body more : String,
        (compile config).dispatcher.content = dispatcherHeader config ++ body ∧
          (compile (config.followedBy extra)).dispatcher.content =
            dispatcherHeader (config.followedBy extra) ++ (body ++ more)) ∧
      ∃ kept added,
        (compile (config.followedBy extra)).warnings = kept ++ added ∧
          kept.Sublist (compile config).warnings ∧
            ∀ warning ∈ added, ∃ group ∈ extra, ∃ target,
              group.fallbackGroup = some target ∧
                warning = .unresolvedFallback group.name target := by
  have hgrows := grows_ofGroups_followedBy config extra
  refine ⟨hgrows.routines, hgrows.errors, ?_, Ledger.warnings_of_grows hgrows⟩
  obtain ⟨lines, hlines⟩ := hgrows.dispatchLines
  refine ⟨_, String.join lines, rfl, ?_⟩
  rw [← String.join_append, hlines]
  rfl

end FrameSorter
