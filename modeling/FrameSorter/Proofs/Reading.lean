import Mathlib.Data.List.Induction
import Mathlib.Data.List.Nodup

/-!
# Lists read in order

A configuration is read from its first declaration to its last, and what a declaration yields depends
on the declarations before it. `withEarlier` pairs each member of a list with the members before it.
`firstComers` keeps the members that clash with no earlier member that was kept. A list of first
comers is clash-free (`pairwise_firstComers`), a member is kept by what comes before it alone
(`firstComers_concat`), and nothing is left out exactly if no member clashes with an earlier one
(`firstComers_eq_self_iff`). Where a key tells the members of a list apart, a search for the key of a
member ends at the member (`find?_eq_some_of_nodup_map`).
-/

set_option autoImplicit false
set_option relaxedAutoImplicit false

namespace FrameSorter

variable {α β : Type*}

/-! ### The members before a member -/

/-- Each member of a list with the members before it; `earlier` comes before the list. -/
def withEarlier (earlier : List α) : List α → List (List α × α)
  | [] => []
  | next :: rest => (earlier, next) :: withEarlier (earlier ++ [next]) rest

@[simp] theorem withEarlier_nil (earlier : List α) : withEarlier earlier [] = [] :=
  rfl

/-- A list that is read after another has that one before it. -/
theorem withEarlier_append (earlier first second : List α) :
    withEarlier earlier (first ++ second) =
      withEarlier earlier first ++ withEarlier (earlier ++ first) second := by
  induction first generalizing earlier with
  | nil => simp
  | cons next rest ih => simp [withEarlier, ih]

/-- The last member has all others before it. -/
theorem withEarlier_concat (earlier list : List α) (last : α) :
    withEarlier earlier (list ++ [last]) =
      withEarlier earlier list ++ [(earlier ++ list, last)] := by
  rw [withEarlier_append]
  rfl

/-- Without the members before them the members are the list. -/
@[simp] theorem map_snd_withEarlier (earlier list : List α) :
    (withEarlier earlier list).map Prod.snd = list := by
  induction list generalizing earlier with
  | nil => rfl
  | cons next rest ih => simp [withEarlier, ih]

/-- What is read is a member of the list. -/
theorem mem_of_mem_withEarlier {earlier list : List α} {reading : List α × α}
    (hreading : reading ∈ withEarlier earlier list) : reading.2 ∈ list := by
  have hmember : reading.2 ∈ (withEarlier earlier list).map Prod.snd := List.mem_map_of_mem hreading
  rwa [map_snd_withEarlier] at hmember

/-- A member and the members before it split the list. -/
theorem mem_withEarlier_iff {earlier list before : List α} {member : α} :
    (before, member) ∈ withEarlier earlier list ↔
      ∃ first second, list = first ++ member :: second ∧ before = earlier ++ first := by
  induction list generalizing earlier with
  | nil => simp
  | cons next rest ih =>
    rw [withEarlier, List.mem_cons, ih, Prod.mk.injEq]
    constructor
    · rintro (⟨rfl, rfl⟩ | ⟨first, second, rfl, rfl⟩)
      · exact ⟨[], rest, rfl, by simp⟩
      · exact ⟨next :: first, second, rfl, by simp⟩
    · rintro ⟨first, second, hlist, rfl⟩
      cases first with
      | nil =>
        obtain ⟨rfl, rfl⟩ := List.cons.inj hlist
        exact Or.inl ⟨by simp, rfl⟩
      | cons head first =>
        obtain ⟨rfl, rfl⟩ := List.cons.inj hlist
        exact Or.inr ⟨first, second, rfl, by simp⟩

/-! ### First comers -/

section FirstComers

variable (clash : α → α → Prop) [DecidableRel clash]

/-- The members that clash with no earlier member of this kind, in order. -/
def firstComers (list : List α) : List α :=
  list.foldl (fun comers next ↦
    if ∀ comer ∈ comers, ¬ clash next comer then comers ++ [next] else comers) []

/-- The last member is a first comer if it clashes with none before it. -/
theorem firstComers_concat (list : List α) (last : α) :
    firstComers clash (list ++ [last]) =
      firstComers clash list ++
        if ∀ comer ∈ firstComers clash list, ¬ clash last comer then [last] else [] := by
  rw [firstComers, List.foldl_append, List.foldl_cons, List.foldl_nil, ← firstComers]
  split <;> simp

/-- First comers are members, in their order. -/
theorem firstComers_sublist (list : List α) : (firstComers clash list).Sublist list := by
  induction list using List.reverseRecOn with
  | nil => exact List.Sublist.refl []
  | append_singleton list last ih =>
    rw [firstComers_concat]
    refine ih.append ?_
    split
    · exact List.Sublist.refl [last]
    · exact List.nil_sublist [last]

/-- No first comer clashes with an earlier one. -/
theorem pairwise_firstComers (list : List α) :
    (firstComers clash list).Pairwise fun earlier later ↦ ¬ clash later earlier := by
  induction list using List.reverseRecOn with
  | nil => exact List.Pairwise.nil
  | append_singleton list last ih =>
    rw [firstComers_concat]
    split
    · rename_i hfree
      refine List.pairwise_append.mpr ⟨ih, List.pairwise_singleton _ _, ?_⟩
      intro comer hcomer other hother
      rw [List.mem_singleton.mp hother]
      exact hfree comer hcomer
    · rwa [List.append_nil]

/-- Every member is a first comer exactly if none clashes with an earlier one. -/
theorem firstComers_eq_self_iff (list : List α) :
    firstComers clash list = list ↔ list.Pairwise fun earlier later ↦ ¬ clash later earlier := by
  constructor
  · intro h
    rw [← h]
    exact pairwise_firstComers clash list
  · intro h
    induction list using List.reverseRecOn with
    | nil => rfl
    | append_singleton list last ih =>
      obtain ⟨hlist, -, hlast⟩ := List.pairwise_append.mp h
      rw [firstComers_concat, ih hlist, if_pos]
      exact fun comer hcomer ↦ hlast comer hcomer last (List.mem_singleton_self last)

end FirstComers

/-! ### Search by a key -/

/-- A search for the key of a member finds the member if the keys are distinct. -/
theorem find?_eq_some_of_nodup_map [BEq β] [LawfulBEq β] {key : α → β} {list : List α} {member : α}
    (hkeys : (list.map key).Nodup) (hmember : member ∈ list) :
    list.find? (key · == key member) = some member := by
  obtain ⟨before, after, rfl⟩ := List.append_of_mem hmember
  rw [List.map_append, List.map_cons, List.nodup_middle, List.nodup_cons, ← List.map_append] at hkeys
  refine List.find?_eq_some_iff_append.mpr
    ⟨beq_self_eq_true _, before, after, rfl, fun other hother ↦ ?_⟩
  have hkey : key other ≠ key member := fun hsame ↦
    hkeys.1 (hsame ▸ List.mem_map_of_mem (List.mem_append_left _ hother))
  simpa using hkey

end FrameSorter
