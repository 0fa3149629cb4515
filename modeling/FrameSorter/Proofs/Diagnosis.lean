import FrameSorter.Proofs.LedgerReading

/-!
# What a compilation reports

A compilation reports one error for each rejected declaration, in the order of reading, and one
warning for each emitted group that falls back to a group without a function. An error is determined by
the declaration that it answers (`Rejected.isAnsweredBy_unique`), so the errors of a compilation are
the only list that answers the rejected declarations one by one (`diagnosis_compile`).
-/

set_option autoImplicit false
set_option relaxedAutoImplicit false

namespace FrameSorter

/-- A rejected declaration is answered by one error only. -/
theorem Rejected.isAnsweredBy_unique {declaration : Rejected} {error other : CompileError}
    (herror : declaration.IsAnsweredBy error) (hother : declaration.IsAnsweredBy other) :
    error = other := by
  -- A duplicate is not free, so what a free group lacks never competes with a duplicate.
  cases herror <;> cases hother <;> grind [Group.isFree_iff]

/-- The warning about a group that falls back to a named group which is none of the emitted ones. -/
def Group.fallbackWarning (emitted : List Group) (group : Group) : Option CompileWarning :=
  match group.fallback with
  | some target =>
    if target ≠ "" ∧ ∀ other ∈ emitted, groupId other.name ≠ groupId target then
      some (.unresolvedFallback group.name target)
    else none
  | none => none

/-- A warning is about a group that falls back to a named group which is none of the emitted ones. -/
theorem Group.fallbackWarning_eq_some_iff {emitted : List Group} {group : Group}
    {warning : CompileWarning} :
    group.fallbackWarning emitted = some warning ↔
      ∃ target, group.fallbackGroup = some target ∧
        (∀ other ∈ emitted, groupId other.name ≠ groupId target) ∧
          .unresolvedFallback group.name target = warning := by
  rw [Group.fallbackWarning, Group.fallbackGroup]
  cases group.fallback with
  | none => simp
  | some target =>
    by_cases htarget : target = ""
    · simp [Option.filter, htarget]
    · simp [Option.filter, htarget]

/-- The warning about a group, by the group that it falls back to. -/
theorem Group.fallbackWarning_toList (emitted : List Group) (group : Group) :
    (group.fallbackWarning emitted).toList =
      ((group.fallbackGroup.toList.map fun target ↦ (group.name, target)).filter fun fallback ↦
        groupId fallback.2 ∉ emitted.map (groupId ·.name)).map
          fun fallback ↦ .unresolvedFallback fallback.1 fallback.2 := by
  rw [Group.fallbackWarning, Group.fallbackGroup]
  cases group.fallback with
  | none => rfl
  | some target =>
    by_cases htarget : target = ""
    · simp [Option.filter, htarget]
    · have hnamed : Option.filter (· != "") (some target) = some target := by
        simp [Option.filter, htarget]
      have hunknown : (∀ other ∈ emitted, groupId other.name ≠ groupId target) ↔
          groupId target ∉ emitted.map (groupId ·.name) := by
        simp
      simp only [hunknown, hnamed, ne_eq, htarget, not_false_eq_true, true_and]
      simp only [Option.toList_some, List.map_cons, List.map_nil, List.filter_cons, List.filter_nil]
      by_cases hknown : groupId target ∈ emitted.map (groupId ·.name)
      · rw [if_neg (not_not.mpr hknown), if_neg (by rwa [decide_eq_true_iff, not_not])]
        rfl
      · rw [if_pos hknown, if_pos (decide_eq_true hknown)]
        rfl

/-- A ledger warns of the emitted groups that fall back to a group which is none of them. -/
theorem warnings_eq_filterMap {config : Configuration} {groups : List Group} {ledger : Ledger}
    (hreads : LedgerReads config groups ledger) :
    ledger.warnings = (emittedGroups groups).filterMap (·.fallbackWarning (emittedGroups groups)) := by
  rw [Ledger.warnings, hreads.fallbacks, hreads.emitted, plannedFallbacks, List.filter_flatMap,
    List.map_flatMap, List.filterMap_eq_flatMap_toList]
  simp only [Group.fallbackWarning_toList]

/-- Whether a group is warned about is a matter of the identifiers of the emitted groups. -/
theorem Group.fallbackWarning_congr {emitted other : List Group} (group : Group)
    (hids : ∀ id, id ∈ emitted.map (groupId ·.name) ↔ id ∈ other.map (groupId ·.name)) :
    group.fallbackWarning emitted = group.fallbackWarning other := by
  have hunknown (target : String) : (∀ known ∈ emitted, groupId known.name ≠ groupId target) ↔
      ∀ known ∈ other, groupId known.name ≠ groupId target := by
    have hid := not_congr (hids (groupId target))
    simpa only [List.mem_map, not_exists, not_and] using hid
  unfold Group.fallbackWarning
  simp only [hunknown]

/-- The warnings of a compilation are those about the emitted groups. -/
theorem warnings_compile (config : Configuration) :
    (compile config).warnings =
      (emittedGroups config.groups).filterMap (·.fallbackWarning (emittedGroups config.groups)) :=
  warnings_eq_filterMap (ledgerReads_ofGroups config config.groups)

/-- A list that answers the rejected declarations one by one is that of the errors. -/
theorem eq_errors_of_forall₂ {config : Configuration} {errors : List CompileError}
    (hanswers : List.Forall₂ Rejected.IsAnsweredBy (rejected config.groups) errors) :
    errors = (compile config).errors := by
  have hunique : Relator.RightUnique Rejected.IsAnsweredBy :=
    fun _ _ _ ↦ Rejected.isAnsweredBy_unique
  exact hunique.forall₂ hanswers (ledgerReads_ofGroups config config.groups).errors

/-- The errors of a compilation answer the rejected declarations one by one in the order of reading, no
other list does, and each emitted group whose fallback is not emitted has one warning. -/
theorem diagnosis_compile (config : Configuration) :
    (∀ errors, List.Forall₂ Rejected.IsAnsweredBy (rejected config.groups) errors ↔
        errors = (compile config).errors) ∧
      (compile config).warnings =
        (emittedGroups config.groups).filterMap
          (·.fallbackWarning (emittedGroups config.groups)) := by
  have hreads := ledgerReads_ofGroups config config.groups
  refine ⟨fun errors ↦ ⟨fun hanswers ↦ ?_, ?_⟩, warnings_eq_filterMap hreads⟩
  · have hunique : Relator.RightUnique Rejected.IsAnsweredBy :=
      fun _ _ _ ↦ Rejected.isAnsweredBy_unique
    exact hunique.forall₂ hanswers hreads.errors
  · rintro rfl
    exact hreads.errors

end FrameSorter
