import Mathlib.Data.List.Nodup
import Mathlib.Data.List.Pairwise
import Mathlib.Logic.Relation
import FrameSorter.Loading
import FrameSorter.Proofs.JsonRecords
import FrameSorter.Proofs.JsonTexts

/-!
# How a configuration is presented

The value of a record does not depend on the order of its members, on members that the record does not
have, or on members that only say what holds without them. What counts are the changes that the members
stand for (`record?_object_eq_some_iff`), and those of different members do not touch each other
(`AreIndependent`). So each step of a record leaves its value (`isSteady_record`), also deep within another
record. Every step of a record is one of a document, and so is a change of the blanks
(`presentationStep_record`, `presentationStep_blanks`), and a document can be presented in any of these ways
(`parseConfig_of_presented`).
-/

set_option autoImplicit false
set_option relaxedAutoImplicit false

namespace FrameSorter

namespace Json

/-! ### What the members of an object say -/

section Members

variable {α : Type} {record : Record Schema α}

/-- The changes that the members of an object stand for, with the names of those members. A member that
the record does not have stands for none. -/
inductive StandsFor (record : Record Schema α) :
    List (Literal × Tree) → List (String × (α → α)) → Prop
  | nil : StandsFor record [] []
  | unknown {key : Literal} {tree : Tree} {name : String} {members : List (Literal × Tree)}
      {changes : List (String × (α → α))} (hname : key.content? = some name)
      (hunknown : record.member? name = none) (hmembers : StandsFor record members changes) :
      StandsFor record ((key, tree) :: members) changes
  | known {key : Literal} {tree : Tree} {name : String} {members : List (Literal × Tree)}
      {changes : List (String × (α → α))} {member : Member Schema α} {change : α → α}
      (hname : key.content? = some name) (hmember : record.member? name = some member)
      (hdecode : member.read.decode tree = some change) (hmembers : StandsFor record members changes) :
      StandsFor record ((key, tree) :: members) ((name, change) :: changes)

/-- A value, changed in turn. -/
def changed (changes : List (String × (α → α))) (value : α) : α :=
  changes.foldl (fun value change ↦ change.2 value) value

/-- The names of the members that were changed last, in front of those that were present. -/
theorem reverse_names_cons (name : String) (change : α → α) (changes : List (String × (α → α)))
    (present : List String) :
    (((name, change) :: changes).map Prod.fst).reverse ++ present =
      (changes.map Prod.fst).reverse ++ name :: present := by
  simp

/-- A draft takes the members of an object as the changes that they stand for, and none of them twice. -/
theorem decodeMembers_eq_some_iff {members : List (Literal × Tree)} {draft final : Draft α}
    (hpresent : draft.present.Nodup) :
    decodeMembers record members draft = some final ↔
      ∃ changes, StandsFor record members changes ∧
        ((changes.map Prod.fst).reverse ++ draft.present).Nodup ∧
        final = ⟨changed changes draft.value, (changes.map Prod.fst).reverse ++ draft.present⟩ := by
  induction members generalizing draft with
  | nil =>
    simp only [decodeMembers, Option.some.injEq]
    constructor
    · rintro rfl
      exact ⟨[], .nil, hpresent, rfl⟩
    · rintro ⟨changes, ⟨⟩, -, rfl⟩
      rfl
  | cons member members ih =>
    obtain ⟨key, tree⟩ := member
    simp only [decodeMembers, Option.bind_eq_bind, Option.bind_eq_some_iff, decodeMember_eq_some_iff]
    constructor
    · rintro ⟨name, hname, next,
        ⟨hunknown, rfl⟩ | ⟨member, change, hmember, hfresh, hdecode, rfl⟩, hread⟩
      · obtain ⟨changes, hmembers, hnodup, rfl⟩ := (ih hpresent).mp hread
        exact ⟨changes, .unknown hname hunknown hmembers, hnodup, rfl⟩
      · have hpresent' : (draft.set name change).present.Nodup :=
          List.nodup_cons.mpr ⟨hfresh, hpresent⟩
        obtain ⟨changes, hmembers, hnodup, rfl⟩ := (ih hpresent').mp hread
        refine ⟨(name, change) :: changes, .known hname hmember hdecode hmembers, ?_⟩
        rw [reverse_names_cons]
        exact ⟨hnodup, rfl⟩
    · rintro ⟨changes, hmembers, hnodup, rfl⟩
      cases hmembers with
      | @unknown _ _ name _ _ hname hunknown hmembers =>
        exact ⟨name, hname, draft, Or.inl ⟨hunknown, rfl⟩,
          (ih hpresent).mpr ⟨changes, hmembers, hnodup, rfl⟩⟩
      | @known _ _ name _ changes member change hname hmember hdecode hmembers =>
        rw [reverse_names_cons] at hnodup
        have hpresent' : (draft.set name change).present.Nodup := (List.nodup_append.mp hnodup).2.1
        refine ⟨name, hname, draft.set name change,
          Or.inr ⟨member, change, hmember, (List.nodup_cons.mp hpresent').1, hdecode, rfl⟩,
          (ih hpresent').mpr ⟨changes, hmembers, hnodup, ?_⟩⟩
        rw [reverse_names_cons]
        rfl

/-- An object is a record if no member is repeated and no required one is missing. -/
theorem record?_object_eq_some_iff {members : List (Literal × Tree)} {value : α} :
    (Tree.object members).record? record = some value ↔
      ∃ changes, StandsFor record members changes ∧ (changes.map Prod.fst).Nodup ∧
        record.required ⊆ changes.map Prod.fst ∧ changed changes record.initial = value := by
  simp only [Tree.record?, Option.bind_eq_bind, Option.bind_eq_some_iff, Draft.complete?_eq_some_iff]
  have hstart : (Draft.start record).present.Nodup := List.nodup_nil
  simp only [decodeMembers_eq_some_iff hstart]
  simp only [Draft.start, List.append_nil, List.nodup_reverse]
  constructor
  · rintro ⟨draft, ⟨changes, hmembers, hnodup, rfl⟩, hrequired, hvalue⟩
    exact ⟨changes, hmembers, hnodup, fun name hname ↦ List.mem_reverse.mp (hrequired hname), hvalue⟩
  · rintro ⟨changes, hmembers, hnodup, hrequired, hvalue⟩
    exact ⟨_, ⟨changes, hmembers, hnodup, rfl⟩,
      fun name hname ↦ List.mem_reverse.mpr (hrequired hname), hvalue⟩

/-- What an object stands for is found again when its members change places. -/
theorem StandsFor.perm {members others : List (Literal × Tree)} {changes : List (String × (α → α))}
    (hmembers : StandsFor record members changes) (hperm : members.Perm others) :
    ∃ reordered, StandsFor record others reordered ∧ changes.Perm reordered := by
  induction hperm generalizing changes with
  | nil => exact ⟨changes, hmembers, .refl _⟩
  | cons member _ ih =>
    cases hmembers with
    | unknown hname hunknown hmembers =>
      obtain ⟨reordered, hreordered, hchanges⟩ := ih hmembers
      exact ⟨reordered, .unknown hname hunknown hreordered, hchanges⟩
    | known hname hmember hdecode hmembers =>
      obtain ⟨reordered, hreordered, hchanges⟩ := ih hmembers
      exact ⟨_, .known hname hmember hdecode hreordered, hchanges.cons _⟩
  | swap first second members =>
    cases hmembers with
    | unknown hname hunknown hmembers =>
      cases hmembers with
      | unknown hname' hunknown' hmembers =>
        exact ⟨changes, .unknown hname' hunknown' (.unknown hname hunknown hmembers), .refl _⟩
      | known hname' hmember' hdecode' hmembers =>
        exact ⟨_, .known hname' hmember' hdecode' (.unknown hname hunknown hmembers), .refl _⟩
    | known hname hmember hdecode hmembers =>
      cases hmembers with
      | unknown hname' hunknown' hmembers =>
        exact ⟨_, .unknown hname' hunknown' (.known hname hmember hdecode hmembers), .refl _⟩
      | known hname' hmember' hdecode' hmembers =>
        exact ⟨_, .known hname' hmember' hdecode' (.known hname hmember hdecode hmembers), .swap _ _ _⟩
  | trans _ _ ihFirst ihSecond =>
    obtain ⟨between, hbetween, hfirst⟩ := ihFirst hmembers
    obtain ⟨reordered, hreordered, hsecond⟩ := ihSecond hbetween
    exact ⟨reordered, hreordered, hfirst.trans hsecond⟩

/-- Every change comes from a member of the record with that name. -/
theorem StandsFor.exists_member {members : List (Literal × Tree)} {changes : List (String × (α → α))}
    (hmembers : StandsFor record members changes) {name : String} {change : α → α}
    (hchange : (name, change) ∈ changes) :
    ∃ member tree, record.member? name = some member ∧ member.read.decode tree = some change := by
  induction hmembers with
  | nil => cases hchange
  | unknown _ _ _ ih => exact ih hchange
  | known _ hmember hdecode _ ih =>
    rcases List.mem_cons.mp hchange with hsame | hchange
    · obtain ⟨rfl, rfl⟩ := Prod.mk.inj hsame
      exact ⟨_, _, hmember, hdecode⟩
    · exact ih hchange

end Members

/-! ### Records with independent members -/

section Independent

variable {α β γ : Type} {record : Record Schema α}

/-- The changes that two members stand for can be made in either order. -/
def AreIndependent (first second : Member Schema α) : Prop :=
  ∀ ⦃tree other : Tree⦄ ⦃change next : α → α⦄, first.read.decode tree = some change →
    second.read.decode other = some next → ∀ value, change (next value) = next (change value)

instance : Std.Symm (@AreIndependent α) where
  symm _ _ hindependent _ _ _ _ hdecode hdecode' value := (hindependent hdecode' hdecode value).symm

/-- Members that store their values in different places do not touch each other. -/
theorem areIndependent_of {set : β → α → α} {put : γ → α → α}
    (hset : ∀ x y value, set x (put y value) = put y (set x value)) {name other : String}
    {schema : Schema β} {schema' : Schema γ} :
    AreIndependent (Member.of name schema set) (Member.of other schema' put) := by
  intro tree tree' change next hchange hnext value
  obtain ⟨x, -, rfl⟩ := Option.map_eq_some_iff.mp hchange
  obtain ⟨y, -, rfl⟩ := Option.map_eq_some_iff.mp hnext
  exact hset x y value

/-- The member that is found has the name. -/
theorem name_of_member? {name : String} {member : Member Schema α}
    (hmember : record.member? name = some member) : member.name = name := by
  rw [Record.member?] at hmember
  simpa using List.find?_some hmember

/-- Changes in another order make the same of a value. -/
theorem changed_perm (hindependent : record.members.Pairwise AreIndependent)
    {members : List (Literal × Tree)} {changes reordered : List (String × (α → α))}
    (hmembers : StandsFor record members changes) (hnodup : (changes.map Prod.fst).Nodup)
    (hperm : changes.Perm reordered) (value : α) : changed changes value = changed reordered value := by
  refine hperm.foldl_eq' (fun first hfirst second hsecond value ↦ ?_) value
  obtain ⟨name, change⟩ := first
  obtain ⟨name', next⟩ := second
  by_cases hname : name = name'
  · -- No name is repeated, so two changes under one name are the same change.
    obtain ⟨-, rfl⟩ := Prod.mk.inj (List.inj_on_of_nodup_map hnodup hfirst hsecond hname)
    rfl
  · obtain ⟨member, tree, hmember, hdecode⟩ := hmembers.exists_member hfirst
    obtain ⟨member', tree', hmember', hdecode'⟩ := hmembers.exists_member hsecond
    have hne : member' ≠ member := by
      rintro rfl
      exact hname ((name_of_member? hmember).symm.trans (name_of_member? hmember'))
    exact hindependent.forall (List.mem_of_find?_eq_some hmember') (List.mem_of_find?_eq_some hmember)
      hne hdecode' hdecode value

/-- An object is the same record when its members change places. -/
theorem record?_permute (hindependent : record.members.Pairwise AreIndependent)
    {members others : List (Literal × Tree)} {value : α}
    (hrecord : (Tree.object members).record? record = some value) (hperm : members.Perm others) :
    (Tree.object others).record? record = some value := by
  rw [record?_object_eq_some_iff] at hrecord ⊢
  obtain ⟨changes, hmembers, hnodup, hrequired, rfl⟩ := hrecord
  obtain ⟨reordered, hothers, hchanges⟩ := hmembers.perm hperm
  have hnames := hchanges.map Prod.fst
  exact ⟨reordered, hothers, hnames.nodup hnodup, fun name hname ↦ hnames.subset (hrequired hname),
    (changed_perm hindependent hmembers hnodup hchanges _).symm⟩

/-- An object is the same record with a member in front that the record does not have. -/
theorem record?_insert {key : Literal} {tree : Tree} {name : String} {members : List (Literal × Tree)}
    {value : α} (hrecord : (Tree.object members).record? record = some value)
    (hname : key.content? = some name) (hunknown : record.member? name = none) :
    (Tree.object ((key, tree) :: members)).record? record = some value := by
  rw [record?_object_eq_some_iff] at hrecord ⊢
  obtain ⟨changes, hmembers, hrest⟩ := hrecord
  exact ⟨changes, .unknown hname hunknown hmembers, hrest⟩

/-- In front of an object stands the change that its first member stands for, if the record has it. -/
theorem exists_changes_of_record? {key : Literal} {tree : Tree} {name : String}
    {members : List (Literal × Tree)} {member : Member Schema α} {value : α}
    (hrecord : (Tree.object ((key, tree) :: members)).record? record = some value)
    (hname : key.content? = some name) (hmember : record.member? name = some member) :
    ∃ change changes, member.read.decode tree = some change ∧ StandsFor record members changes ∧
      (name :: changes.map Prod.fst).Nodup ∧ record.required ⊆ name :: changes.map Prod.fst ∧
      changed changes (change record.initial) = value := by
  obtain ⟨changes, hmembers, hrest⟩ := record?_object_eq_some_iff.mp hrecord
  cases hmembers with
  | unknown hname' hunknown =>
    cases hname.symm.trans hname'
    cases hunknown.symm.trans hmember
  | @known _ _ name' _ changes member' change hname' hmember' hdecode hmembers =>
    obtain rfl := Option.some.inj (hname.symm.trans hname')
    obtain rfl := Option.some.inj (hmember.symm.trans hmember')
    exact ⟨change, changes, hdecode, hmembers, hrest⟩

/-- An object is the same record without its first member, if that has its default and is not
required. -/
theorem record?_remove {key : Literal} {tree : Tree} {name : String} {members : List (Literal × Tree)}
    {member : Member Schema α} {change : α → α} {value : α}
    (hrecord : (Tree.object ((key, tree) :: members)).record? record = some value)
    (hname : key.content? = some name) (hmember : record.member? name = some member)
    (hoptional : name ∉ record.required) (hdecode : member.read.decode tree = some change)
    (hdefault : change record.initial = record.initial) :
    (Tree.object members).record? record = some value := by
  obtain ⟨found, changes, hfound, hmembers, hnodup, hrequired, rfl⟩ :=
    exists_changes_of_record? hrecord hname hmember
  obtain rfl := Option.some.inj (hdecode.symm.trans hfound)
  have hrest : record.required ⊆ changes.map Prod.fst := fun other hother ↦
    (List.mem_cons.mp (hrequired hother)).resolve_left fun hsame ↦ hoptional (hsame ▸ hother)
  exact record?_object_eq_some_iff.mpr
    ⟨changes, hmembers, (List.nodup_cons.mp hnodup).2, hrest, by rw [hdefault]⟩

/-- An object is the same record with its first member written in another way. -/
theorem record?_replace {key : Literal} {tree other : Tree} {name : String}
    {members : List (Literal × Tree)} {member : Member Schema α} {value : α}
    (hrecord : (Tree.object ((key, tree) :: members)).record? record = some value)
    (hname : key.content? = some name) (hmember : record.member? name = some member)
    (hother : ∀ change, member.read.decode tree = some change → member.read.decode other = some change) :
    (Tree.object ((key, other) :: members)).record? record = some value := by
  obtain ⟨change, changes, hdecode, hmembers, hrest⟩ := exists_changes_of_record? hrecord hname hmember
  exact record?_object_eq_some_iff.mpr
    ⟨(name, change) :: changes, .known hname hmember (hother change hdecode) hmembers, hrest⟩

/-- A record given by position is the same with one of its members written in another way. -/
theorem decodePositions_replace {members : List (Member Schema α)} {before after : List Tree}
    {tree other : Tree} {draft final : Draft α} {member : Member Schema α}
    (hdecode : decodePositions members (before ++ tree :: after) draft = some final)
    (hmember : members[before.length]? = some member)
    (hother : ∀ change, member.read.decode tree = some change → member.read.decode other = some change) :
    decodePositions members (before ++ other :: after) draft = some final := by
  induction before generalizing members draft with
  | nil =>
    cases members with
    | nil => cases hmember
    | cons first members =>
      obtain rfl : first = member := Option.some.inj hmember
      obtain ⟨change, hchange, hrest⟩ := Option.bind_eq_some_iff.mp hdecode
      exact Option.bind_eq_some_iff.mpr ⟨change, hother change hchange, hrest⟩
  | cons head before ih =>
    cases members with
    | nil => cases hmember
    | cons first members =>
      obtain ⟨change, hchange, hrest⟩ := Option.bind_eq_some_iff.mp hdecode
      exact Option.bind_eq_some_iff.mpr ⟨change, hchange, ih hrest hmember⟩

end Independent

/-! ### Values that no step changes -/

/-- A list has the same elements with one of its trees written in another way. -/
theorem mapM_replace {α : Type} {decode : Tree → Option α} {before after : List Tree} {tree other : Tree}
    {values : List α} (hdecode : (before ++ tree :: after).mapM decode = some values)
    (hother : ∀ value, decode tree = some value → decode other = some value) :
    (before ++ other :: after).mapM decode = some values := by
  induction before generalizing values with
  | nil =>
    obtain ⟨head, tail, hhead, htail, rfl⟩ := mapM_cons_eq_some_iff.mp hdecode
    exact mapM_cons_eq_some_iff.mpr ⟨head, tail, hother head hhead, htail, rfl⟩
  | cons first before ih =>
    obtain ⟨head, tail, hhead, htail, rfl⟩ := mapM_cons_eq_some_iff.mp hdecode
    exact mapM_cons_eq_some_iff.mpr ⟨head, tail, hhead, ih htail, rfl⟩

/-- The reader takes what the trees have, and what they have is left by each step. -/
structure Schema.IsSteady {α : Type} (schema : Schema α) : Prop where
  agrees : schema.Agrees
  keeps : ∀ {tree other : Tree} {value : α}, schema.decode tree = some value →
    schema.Step tree other → schema.decode other = some value

section Steady

variable {α β : Type}

theorem isSteady_text : schemas.text.IsSteady :=
  ⟨agrees_text, nofun⟩

theorem isSteady_optionalText : schemas.optionalText.IsSteady :=
  ⟨agrees_optionalText, nofun⟩

theorem isSteady_word : schemas.word.IsSteady :=
  ⟨agrees_word, nofun⟩

/-- A changed value. -/
theorem isSteady_map {schema : Schema α} (h : schema.IsSteady) (change : α → β) :
    (change <$> schema).IsSteady where
  agrees := agrees_map h.agrees change
  keeps hdecode hstep := by
    obtain ⟨value, hvalue, rfl⟩ := Option.map_eq_some_iff.mp hdecode
    exact Option.map_eq_some_iff.mpr ⟨value, h.keeps hvalue hstep, rfl⟩

/-- A list. -/
theorem isSteady_list {schema : Schema α} (h : schema.IsSteady) : (schemas.list schema).IsSteady where
  agrees := agrees_list h.agrees
  keeps {tree other values} hdecode hstep := by
    obtain ⟨hstep⟩ := hstep
    exact mapM_replace hdecode fun value hvalue ↦ h.keeps hvalue hstep

/-- A record. -/
theorem isSteady_record {record : Record Schema α} (hindependent : record.members.Pairwise AreIndependent)
    (h : ∀ member ∈ record.members, member.read.IsSteady) : (schemas.record record).IsSteady where
  agrees := agrees_record fun member hmember ↦ (h member hmember).agrees
  keeps {tree other value} hdecode hstep := by
    change tree.record? record = some value at hdecode
    change other.record? record = some value
    have hkeeps {member : Member Schema α} (hmember : member ∈ record.members) {tree other : Tree}
        (hstep : member.read.Step tree other) (change : α → α)
        (hchange : member.read.decode tree = some change) : member.read.decode other = some change :=
      (h member hmember).keeps hchange hstep
    -- What changes in an object changes in front of it; its members move there and back.
    cases hstep with
    | permute hperm => exact record?_permute hindependent hdecode hperm
    | insert hname hunknown =>
      exact record?_permute hindependent (record?_insert hdecode hname hunknown) List.perm_middle.symm
    | remove hname hmember hoptional hvalue hdefault =>
      have hfront := record?_permute hindependent hdecode List.perm_middle
      exact record?_remove hfront hname hmember hoptional hvalue hdefault
    | member hname hmember hstep =>
      have hfront := record?_permute hindependent hdecode List.perm_middle
      exact record?_permute hindependent
        (record?_replace hfront hname hmember (hkeeps (List.mem_of_find?_eq_some hmember) hstep))
        List.perm_middle.symm
    | position hmember hstep =>
      obtain ⟨draft, hdraft, hcomplete⟩ := Option.bind_eq_some_iff.mp hdecode
      exact Option.bind_eq_some_iff.mpr ⟨draft, decodePositions_replace hdraft hmember
        (hkeeps (List.mem_of_getElem? hmember) hstep), hcomplete⟩

end Steady

/-! ### Configurations -/

/-- The members of the pack options are stored in different places. -/
theorem areIndependent_packOptions : (PackOptions.record schemas).members.Pairwise AreIndependent := by
  simp only [PackOptions.record, List.pairwise_cons, List.forall_mem_cons, List.not_mem_nil,
    false_imp_iff, implies_true, List.Pairwise.nil, and_true]
  repeat' apply And.intro
  all_goals
    apply areIndependent_of
    exact fun _ _ _ ↦ rfl

/-- The members of a group are stored in different places. -/
theorem areIndependent_group : (Group.record schemas).members.Pairwise AreIndependent := by
  simp only [Group.record, List.pairwise_cons, List.forall_mem_cons, List.not_mem_nil, false_imp_iff,
    implies_true, List.Pairwise.nil, and_true]
  repeat' apply And.intro
  all_goals
    apply areIndependent_of
    exact fun _ _ _ ↦ rfl

/-- The members of a configuration are stored in different places. -/
theorem areIndependent_configuration : (Configuration.record schemas).members.Pairwise AreIndependent := by
  simp only [Configuration.record, List.pairwise_cons, List.forall_mem_cons, List.not_mem_nil,
    false_imp_iff, implies_true, List.Pairwise.nil, and_true]
  repeat' apply And.intro
  all_goals
    apply areIndependent_of
    exact fun _ _ _ ↦ rfl

/-- No step changes what a member of the pack options says. -/
theorem isSteady_of_mem_packOptions :
    ∀ member ∈ (PackOptions.record schemas).members, member.read.IsSteady := by
  simp only [PackOptions.record, List.forall_mem_cons]
  exact ⟨isSteady_map isSteady_text _, isSteady_map isSteady_text _, isSteady_map isSteady_word _,
    isSteady_map isSteady_word _, isSteady_map isSteady_text _, isSteady_map isSteady_text _,
    isSteady_map isSteady_text _, isSteady_map isSteady_word _, nofun⟩

theorem isSteady_packOptions : (schemas.record (PackOptions.record schemas)).IsSteady :=
  isSteady_record areIndependent_packOptions isSteady_of_mem_packOptions

/-- No step changes what a member of a group says. -/
theorem isSteady_of_mem_group : ∀ member ∈ (Group.record schemas).members, member.read.IsSteady := by
  simp only [Group.record, List.forall_mem_cons]
  exact ⟨isSteady_map isSteady_text _, isSteady_map (isSteady_list isSteady_text) _,
    isSteady_map isSteady_optionalText _, isSteady_map isSteady_optionalText _, nofun⟩

theorem isSteady_group : (schemas.record (Group.record schemas)).IsSteady :=
  isSteady_record areIndependent_group isSteady_of_mem_group

/-- No step changes what a member of a configuration says. -/
theorem isSteady_of_mem_configuration :
    ∀ member ∈ (Configuration.record schemas).members, member.read.IsSteady := by
  simp only [Configuration.record, List.forall_mem_cons]
  exact ⟨isSteady_map (isSteady_list isSteady_group) _, isSteady_map (isSteady_list isSteady_text) _,
    isSteady_map isSteady_optionalText _, isSteady_map isSteady_optionalText _,
    isSteady_map isSteady_optionalText _, isSteady_map isSteady_packOptions _, nofun⟩

theorem isSteady_configuration : (schemas.record (Configuration.record schemas)).IsSteady :=
  isSteady_record areIndependent_configuration isSteady_of_mem_configuration

/-- A document is a tree if it starts with the tree and has only blanks behind it. -/
def Tree.IsWrittenIn (tree : Tree) (document : String) : Prop :=
  ∃ rest, tree.Leads document.toList rest ∧ skipBlanks rest = []

/-- One step in which the presentation of a configuration changes: the blanks in a document, or one of
the records. -/
inductive PresentationStep (document other : String) : Prop
  | blanks {tree : Tree} (hdocument : tree.IsWrittenIn document) (hother : tree.IsWrittenIn other)
  | record {tree changed : Tree} (hdocument : tree.IsWrittenIn document)
      (hstep : (schemas.record (Configuration.record schemas)).Step tree changed)
      (hother : changed.IsWrittenIn other)

/-- What was taken from a document, if only blanks are left of it. -/
def whole {α : Type} : Except Fault (α × List Char) → Except Fault α
  | .error fault => .error fault
  | .ok (found, rest) => if skipBlanks rest = [] then .ok found else .error .malformed

theorem whole_eq_ok_iff {α : Type} {read : Except Fault (α × List Char)} {value : α} :
    whole read = .ok value ↔ ∃ rest, read = .ok (value, rest) ∧ skipBlanks rest = [] := by
  cases read with
  | error fault => simp [whole]
  | ok taken =>
    obtain ⟨found, rest⟩ := taken
    by_cases hrest : skipBlanks rest = [] <;> simp [whole, hrest]

/-- A document is a configuration if the reader takes it and leaves only blanks. -/
theorem readConfiguration_eq_ok_iff {document : String} {config : Configuration} :
    readConfiguration document = .ok config ↔
      ∃ rest, (schemas.record (Configuration.record schemas)).read document.toList = .ok (config, rest) ∧
        skipBlanks rest = [] := by
  have hwhole : readConfiguration document =
      whole (record (Configuration.record reading) document.toList) := by
    unfold readConfiguration whole
    split <;> simp_all
  rw [hwhole, whole_eq_ok_iff]
  exact Iff.rfl

/-- A document that is a tree is the configuration that the tree is. -/
theorem Tree.IsWrittenIn.readConfiguration {tree : Tree} {document : String} {config : Configuration}
    (htree : tree.IsWrittenIn document) :
    readConfiguration document = .ok config ↔
      tree.record? (Configuration.record schemas) = some config := by
  obtain ⟨behind, hleads, hbehind⟩ := htree
  have hends := endsNumber_of_skipBlanks_nil hbehind
  rw [readConfiguration_eq_ok_iff]
  constructor
  · rintro ⟨rest, hread, -⟩
    exact ((isSteady_configuration.agrees.reads hleads hends).mp hread).1
  · exact fun hdecode ↦
      ⟨behind, (isSteady_configuration.agrees.reads hleads hends).mpr ⟨hdecode, rfl⟩, hbehind⟩

/-- A document that is a configuration is a tree. -/
theorem exists_tree_of_readConfiguration {document : String} {config : Configuration}
    (hread : readConfiguration document = .ok config) : ∃ tree : Tree, tree.IsWrittenIn document := by
  obtain ⟨rest, htaken, hrest⟩ := readConfiguration_eq_ok_iff.mp hread
  obtain ⟨tree, hleads⟩ := isSteady_configuration.agrees.exists_tree htaken
  exact ⟨tree, rest, hleads, hrest⟩

/-- A step leaves the configuration. -/
theorem PresentationStep.readConfiguration {document other : String} {config : Configuration}
    (hstep : PresentationStep document other) (hread : readConfiguration document = .ok config) :
    readConfiguration other = .ok config := by
  cases hstep with
  | blanks hdocument hother =>
    rw [hdocument.readConfiguration] at hread
    exact hother.readConfiguration.mpr hread
  | record hdocument hstep hother =>
    rw [hdocument.readConfiguration] at hread
    exact hother.readConfiguration.mpr (isSteady_configuration.keeps hread hstep)

/-- Every tree is written in its text. -/
theorem Tree.isWrittenIn_characters (tree : Tree) {gap : List Char} (hgap : skipBlanks gap = []) :
    tree.IsWrittenIn (String.ofList (tree.characters gap)) := by
  refine ⟨[], ?_, rfl⟩
  rw [String.toList_ofList, ← List.append_nil (tree.characters gap)]
  exact tree.leads_characters hgap []

/-- Any tree can be written with other blanks. -/
theorem presentationStep_blanks (tree : Tree) {gap other : List Char} (hgap : skipBlanks gap = [])
    (hother : skipBlanks other = []) :
    PresentationStep (String.ofList (tree.characters gap)) (String.ofList (tree.characters other)) :=
  .blanks (tree.isWrittenIn_characters hgap) (tree.isWrittenIn_characters hother)

/-- Any step of a record can be made in a document. -/
theorem presentationStep_record {tree changed : Tree} {gap : List Char} (hgap : skipBlanks gap = [])
    (hstep : (schemas.record (Configuration.record schemas)).Step tree changed) :
    PresentationStep (String.ofList (tree.characters gap)) (String.ofList (changed.characters gap)) :=
  .record (tree.isWrittenIn_characters hgap) hstep (changed.isWrittenIn_characters hgap)

end Json

/-- A JSON document is loaded as the configuration that it is read as. -/
theorem parseConfig_json_eq_ok_iff {document : String} {file : Path} {config : Configuration} :
    parseConfig document .json file = .ok config ↔ Json.readConfiguration document = .ok config := by
  rw [parseConfig, readConfiguration]
  cases Json.readConfiguration document <;> simp

/-- A JSON document that is a configuration is a tree, and it is the same configuration in every other
presentation: after any number of steps that insert blanks, change the order of the members of a record,
insert members that a record does not have, or remove members that have their default. -/
theorem parseConfig_of_presented {document : String} {file : Path} {config : Configuration}
    (hparse : parseConfig document .json file = .ok config) :
    (∃ tree : Json.Tree, tree.IsWrittenIn document) ∧
      ∀ other, Relation.ReflTransGen Json.PresentationStep document other →
        parseConfig other .json file = .ok config := by
  rw [parseConfig_json_eq_ok_iff] at hparse
  refine ⟨Json.exists_tree_of_readConfiguration hparse, fun other hsteps ↦ ?_⟩
  rw [parseConfig_json_eq_ok_iff]
  induction hsteps with
  | refl => exact hparse
  | tail _ hstep ih => exact hstep.readConfiguration ih

namespace Json

/-- The literal of characters that all stand for themselves. -/
def Literal.plain (characters : List Char)
    (hplain : ∀ c ∈ characters, c ≠ '"' ∧ c ≠ '\\' ∧ ¬ c.toNat < 0x20) : Literal where
  pieces := characters.pmap Piece.plain hplain

/-- The key of the groups. -/
def groupsKey : Literal := .plain ['g', 'r', 'o', 'u', 'p', 's'] (by simp)

/-- The key of the effects. -/
def effectsKey : Literal := .plain ['e', 'f', 'f', 'e', 'c', 't', 's'] (by simp)

/-- The key of the pack options. -/
def packKey : Literal := .plain ['p', 'a', 'c', 'k'] (by simp)

/-- The key of the name of a group. -/
def groupNameKey : Literal := .plain ['g', 'r', 'o', 'u', 'p', 'N', 'a', 'm', 'e'] (by simp)

/-- The key of the items of a group. -/
def itemsKey : Literal := .plain ['i', 't', 'e', 'm', 's'] (by simp)

/-- The key of the namespace of a pack. -/
def namespaceKey : Literal := .plain ['n', 'a', 'm', 'e', 's', 'p', 'a', 'c', 'e'] (by simp)

/-- The key of the ticks between two rounds of sorting. -/
def intervalKey : Literal := .plain ['i', 'n', 't', 'e', 'r', 'v', 'a', 'l'] (by simp)

/-- A key that no record has. -/
def noteKey : Literal := .plain ['n', 'o', 't', 'e'] (by simp)

/-- The name of a group. -/
def oresMember : Literal × Tree :=
  (groupNameKey, .scalar (.text (.plain ['O', 'r', 'e', 's'] (by simp))))

/-- The items of a group, of which there is one. -/
def coalMember : Literal × Tree :=
  (itemsKey, .list [.scalar (.text (.plain ['m', 'o', 'd', ':', 'c', 'o', 'a', 'l'] (by simp)))])

/-- The groups, of which there is one, with its members. -/
def groupsMember (members : List (Literal × Tree)) : Literal × Tree :=
  (groupsKey, .list [.object members])

/-- The pack options, with their members. -/
def packMember (members : List (Literal × Tree)) : Literal × Tree :=
  (packKey, .object members)

/-- The namespace of a pack, which is not that by default. -/
def depotMember : Literal × Tree :=
  (namespaceKey, .scalar (.text (.plain ['d', 'e', 'p', 'o', 't'] (by simp))))

/-- The ticks between two rounds of sorting, which are those by default. -/
def intervalMember : Literal × Tree := (intervalKey, .scalar (.number (.ofInt 20)))

/-- No effects. -/
def effectsMember : Literal × Tree := (effectsKey, .list [])

/-- A note, which is a list of an empty object. -/
def noteMember : Literal × Tree := (noteKey, .list [.object []])

/-- A group and a pack, written without blanks. -/
def denseDocument : String :=
  "\x7b\"groups\":[\x7b\"groupName\":\"Ores\",\"items\":[\"mod:coal\"]\x7d],\"effects\":[]," ++
    "\"pack\":\x7b\"namespace\":\"depot\",\"interval\":20\x7d\x7d"

/-- The same with the pack first, a note in it, and the items of the group in front of its name. -/
def looseDocument : String :=
  " \x7b \"pack\" : \x7b \"namespace\" : \"depot\" , \"note\" : [ \x7b \x7d ] \x7d ," ++
    " \"groups\" : [ \x7b \"items\" : [ \"mod:coal\" ] , \"groupName\" : \"Ores\" \x7d ] \x7d"

/-- What both say. -/
def depotConfiguration : Configuration where
  groups := [{ name := "Ores", items := ["mod:coal"] }]
  pack := { packNamespace := "depot" }

/-- The tree of the document without blanks. -/
def denseTree : Tree :=
  .object [groupsMember [oresMember, coalMember], effectsMember,
    packMember [depotMember, intervalMember]]

/-- The tree of the document with blanks. -/
def looseTree : Tree :=
  .object [packMember [depotMember, noteMember], groupsMember [coalMember, oresMember]]

theorem denseDocument_eq : denseDocument = String.ofList (denseTree.characters []) := by
  decide +kernel

theorem looseDocument_eq : looseDocument = String.ofList (looseTree.characters [' ']) := by
  decide +kernel

/-- What changes in the pack options changes in a document that starts with them. -/
theorem step_of_packMember {members others : List (Literal × Tree)} (rest : List (Literal × Tree))
    (hstep : RecordStep (PackOptions.record schemas) (.object members) (.object others)) :
    (schemas.record (Configuration.record schemas)).Step (.object (packMember members :: rest))
      (.object (packMember others :: rest)) := by
  change RecordStep _ (.object ([] ++ packMember members :: rest))
    (.object ([] ++ packMember others :: rest))
  exact .member rfl rfl hstep

/-- What changes in the group changes in a document that has it last. -/
theorem step_of_groupsMember {members others : List (Literal × Tree)} (front : List (Literal × Tree))
    (hstep : RecordStep (Group.record schemas) (.object members) (.object others)) :
    (schemas.record (Configuration.record schemas)).Step (.object (front ++ [groupsMember members]))
      (.object (front ++ [groupsMember others])) := by
  have hgroup : ListStep (RecordStep (Group.record schemas)) (.list ([] ++ [.object members]))
      (.list ([] ++ [.object others])) :=
    .element hstep
  exact .member rfl rfl hgroup

/-- The documents differ in the order of the members, at the top and in the group, in the members that go
out, at the top and in the pack, in the note and in the blanks. -/
theorem presentationSteps_looseDocument :
    Relation.ReflTransGen PresentationStep denseDocument looseDocument := by
  have hpermute : (schemas.record (Configuration.record schemas)).Step denseTree
      (.object ([packMember [depotMember, intervalMember]] ++ effectsMember ::
        [groupsMember [oresMember, coalMember]])) :=
    .permute (List.reverse_perm _).symm
  have hremove : (schemas.record (Configuration.record schemas)).Step
      (.object ([packMember [depotMember, intervalMember]] ++ effectsMember ::
        [groupsMember [oresMember, coalMember]]))
      (.object (packMember ([depotMember] ++ intervalMember :: []) ::
        [groupsMember [oresMember, coalMember]])) :=
    .remove rfl rfl List.not_mem_nil rfl rfl
  have hdefault : (schemas.record (Configuration.record schemas)).Step
      (.object (packMember ([depotMember] ++ intervalMember :: []) ::
        [groupsMember [oresMember, coalMember]]))
      (.object (packMember ([depotMember] ++ []) :: [groupsMember [oresMember, coalMember]])) :=
    step_of_packMember _ (.remove rfl rfl List.not_mem_nil rfl rfl)
  have hnote : (schemas.record (Configuration.record schemas)).Step
      (.object (packMember ([depotMember] ++ []) :: [groupsMember [oresMember, coalMember]]))
      (.object ([packMember [depotMember, noteMember]] ++ [groupsMember [oresMember, coalMember]])) :=
    step_of_packMember _ (.insert rfl rfl)
  have hgroup : (schemas.record (Configuration.record schemas)).Step
      (.object ([packMember [depotMember, noteMember]] ++ [groupsMember [oresMember, coalMember]]))
      looseTree :=
    step_of_groupsMember _ (.permute (List.reverse_perm _).symm)
  rw [denseDocument_eq, looseDocument_eq]
  refine .head (presentationStep_record rfl hpermute) ?_
  refine .head (presentationStep_record rfl hremove) ?_
  refine .head (presentationStep_record rfl hdefault) ?_
  refine .head (presentationStep_record rfl hnote) ?_
  refine .head (presentationStep_record rfl hgroup) ?_
  exact .single (presentationStep_blanks looseTree rfl rfl)

end Json

/-- A group and a pack are the same configuration in both documents. -/
theorem parseConfig_of_presented_looseDocument :
    parseConfig Json.denseDocument .json ⟨"sorter.json"⟩ = .ok Json.depotConfiguration ∧
      Relation.ReflTransGen Json.PresentationStep Json.denseDocument Json.looseDocument ∧
      parseConfig Json.looseDocument .json ⟨"sorter.json"⟩ = .ok Json.depotConfiguration := by
  have hwritten : Json.denseTree.IsWrittenIn Json.denseDocument :=
    Json.denseDocument_eq ▸ Json.denseTree.isWrittenIn_characters rfl
  have hparse : parseConfig Json.denseDocument .json ⟨"sorter.json"⟩ = .ok Json.depotConfiguration :=
    parseConfig_json_eq_ok_iff.mpr (hwritten.readConfiguration.mpr rfl)
  have hsteps := Json.presentationSteps_looseDocument
  exact ⟨hparse, hsteps, (parseConfig_of_presented hparse).2 _ hsteps⟩

end FrameSorter
