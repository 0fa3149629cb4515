import Mathlib.Data.List.Forall2
import FrameSorter.Document.Record
import FrameSorter.Proofs.Reading
import FrameSorter.Proofs.Scanning

/-!
# Written configurations

A format writes a configuration with all its members under their names, in the order of their
declaration (`Configuration.written`). What it writes for a text, a number, a list or a record is a form
of its own kind, given by a `Writing`. A format reads its forms back if it does so for each of these
kinds of value (`ReadsBack`), where a list and a record are read one level deeper than their parts.
Then it reads every configuration back (`ReadsBack.configuration`).
-/

set_option autoImplicit false
set_option relaxedAutoImplicit false

namespace FrameSorter

/-- How a format writes the values that a configuration is made of. -/
structure Writing (Form : Type) where
  text : String → Form
  optionalText : Option String → Form
  word : UInt32 → Form
  list : List Form → Form
  record : (name : String) → (members : List (String × Form)) → Form

section Written

variable {Form : Type} (writing : Writing Form)

/-- The pack options with all their members. -/
def PackOptions.written (options : PackOptions) : Form :=
  writing.record "PackOptions"
    [("namespace", writing.text options.packNamespace),
     ("description", writing.text options.description),
     ("packFormat", writing.word options.packFormat),
     ("searchRadius", writing.word options.searchRadius),
     ("frameKind", writing.text options.frameKind),
     ("markerTop", writing.text options.markerTop),
     ("markerBottom", writing.text options.markerBottom),
     ("interval", writing.word options.interval)]

/-- A group with all its members. -/
def Group.written (group : Group) : Form :=
  writing.record "Group"
    [("groupName", writing.text group.name),
     ("items", writing.list (group.items.map writing.text)),
     ("itemFrame", writing.optionalText group.itemFrame),
     ("fallback", writing.optionalText group.fallback)]

/-- A configuration with all its members. -/
def Configuration.written (config : Configuration) : Form :=
  writing.record "Configuration"
    [("groups", writing.list (config.groups.map (Group.written writing))),
     ("effects", writing.list (config.effects.map writing.text)),
     ("finalFallback", writing.optionalText config.finalFallback),
     ("groupNameInFrame", writing.optionalText config.groupNameInFrame),
     ("itemNameInFrame", writing.optionalText config.itemNameInFrame),
     ("pack", config.pack.written writing)]

end Written

/-! ### The members of a record -/

variable {m : Type → Type} {Form : Type}

section Members

variable {α : Type} {record : Record m α} {done rest : List (Member m α)} {member : Member m α}
  {draft : Draft α}

/-- A member is found by its name if no other member has it. -/
theorem Record.member?_eq_some (hnames : (record.members.map Member.name).Nodup)
    (hrecord : record.members = done ++ member :: rest) :
    record.member? member.name = some member :=
  find?_eq_some_of_nodup_map hnames (hrecord ▸ List.mem_append_right _ List.mem_cons_self)

/-- After the members before it a member is not present yet. -/
theorem Draft.notMem_present (hnames : (record.members.map Member.name).Nodup)
    (hrecord : record.members = done ++ member :: rest)
    (hpresent : draft.present = (done.map Member.name).reverse) :
    member.name ∉ draft.present := by
  rw [hrecord, List.map_append, List.map_cons] at hnames
  rw [hpresent, List.mem_reverse]
  exact fun hmember ↦ (List.nodup_append.mp hnames).2.2 _ hmember _ List.mem_cons_self rfl

/-- No required member is missing if all of them are present. -/
theorem Draft.missing?_eq_none_iff : draft.missing? record = none ↔ record.required ⊆ draft.present := by
  simp [Draft.missing?, List.find?_eq_none, List.subset_def]

/-- A draft with all required members is finished. -/
theorem Draft.finish_eq_ok (hrequired : record.required ⊆ draft.present) :
    draft.finish record = .ok draft.value := by
  rw [Draft.finish, Draft.missing?_eq_none_iff.mpr hrequired]

/-- So is one whose members were given by position. -/
theorem Draft.finishPositional_eq_ok (hrequired : record.required ⊆ draft.present) :
    draft.finishPositional record = .ok draft.value := by
  rw [Draft.finishPositional, Draft.missing?_eq_none_iff.mpr hrequired]

end Members

/-- The members of a record are read from what is written under their names, and together they change
a value in this way. -/
inductive MembersRead {α : Type} (Reads : m (α → α) → Form → (α → α) → Prop) :
    List (Member m α) → List (String × Form) → (α → α) → Prop
  | nil : MembersRead Reads [] [] id
  | cons {member : Member m α} {members : List (Member m α)} {form : Form}
      {forms : List (String × Form)} {change rest : α → α} (hmember : Reads member.read form change)
      (hrest : MembersRead Reads members forms rest) :
      MembersRead Reads (member :: members) ((member.name, form) :: forms) (rest ∘ change)

/-- What is written under a name stands in place of the member with that name. -/
theorem MembersRead.map_name {α : Type} {Reads : m (α → α) → Form → (α → α) → Prop}
    {members : List (Member m α)} {forms : List (String × Form)} {change : α → α}
    (h : MembersRead Reads members forms change) : forms.map Prod.fst = members.map Member.name := by
  induction h with
  | nil => rfl
  | cons _ _ ih => rw [List.map_cons, List.map_cons, ih]

/-! ### The names in the records -/

/-- The names in a record are words, no two members have the same one, and the required
members are among them. -/
structure Record.IsWellNamed {α : Type} (record : Record m α) : Prop where
  words : ∀ name ∈ record.name :: record.members.map Member.name, IsWord name
  nodup : (record.members.map Member.name).Nodup
  required : record.required ⊆ record.members.map Member.name

/-- What has all members of a record has the required ones. -/
theorem Record.IsWellNamed.required_subset {α : Type} {record : Record m α}
    (h : record.IsWellNamed) : record.required ⊆ (record.members.map Member.name).reverse :=
  fun _ hname ↦ List.mem_reverse.mpr (h.required hname)

variable [Functor m]

theorem PackOptions.isWellNamed (reading : Reading m) :
    (PackOptions.record reading).IsWellNamed := by
  have hnames : (PackOptions.record reading).members.map Member.name =
      ["namespace", "description", "packFormat", "searchRadius", "frameKind", "markerTop",
        "markerBottom", "interval"] := rfl
  refine ⟨?_, ?_, List.nil_subset _⟩ <;> rw [hnames]
  · change ∀ name ∈ ["PackOptions", _, _, _, _, _, _, _, _], _
    decide
  · decide

theorem Group.isWellNamed (reading : Reading m) : (Group.record reading).IsWellNamed := by
  have hnames : (Group.record reading).members.map Member.name =
      ["groupName", "items", "itemFrame", "fallback"] := rfl
  refine ⟨?_, ?_, List.cons_subset.mpr ⟨List.mem_cons_self, List.nil_subset _⟩⟩ <;> rw [hnames]
  · change ∀ name ∈ ["Group", _, _, _, _], _
    decide
  · decide

theorem Configuration.isWellNamed (reading : Reading m) :
    (Configuration.record reading).IsWellNamed := by
  have hnames : (Configuration.record reading).members.map Member.name =
      ["groups", "effects", "finalFallback", "groupNameInFrame", "itemNameInFrame", "pack"] := rfl
  refine ⟨?_, ?_, List.nil_subset _⟩ <;> rw [hnames]
  · change ∀ name ∈ ["Configuration", _, _, _, _, _, _], _
    decide
  · decide

/-! ### Reading back -/

/-- A format reads back what it writes. That a form is read as a value is what `Reads` says; it may ask
for room for as many levels of parts as its number counts. -/
structure ReadsBack (reading : Reading m) (writing : Writing Form)
    (Reads : Nat → ⦃α : Type⦄ → m α → Form → α → Prop) : Prop where
  map : ∀ {levels : Nat} {α β : Type} {read : m α} {form : Form} {value : α} (change : α → β),
    Reads levels read form value → Reads levels (change <$> read) form (change value)
  text : ∀ levels content, Reads levels reading.text (writing.text content) content
  optionalText : ∀ levels content,
    Reads levels reading.optionalText (writing.optionalText content) content
  word : ∀ levels n, Reads levels reading.word (writing.word n) n
  list : ∀ {levels : Nat} {α : Type} {element : m α} {forms : List Form} {values : List α},
    List.Forall₂ (Reads levels element) forms values →
      Reads (levels + 1) (reading.list element) (writing.list forms) values
  record : ∀ {levels : Nat} {α : Type} (record : Record m α) {forms : List (String × Form)}
    {change : α → α}, record.IsWellNamed →
      MembersRead (Reads levels (α := α → α)) record.members forms change →
        Reads (levels + 1) (reading.record record) (writing.record record.name forms)
          (change record.initial)

namespace ReadsBack

variable {reading : Reading m} {writing : Writing Form}
  {Reads : Nat → ⦃α : Type⦄ → m α → Form → α → Prop} (h : ReadsBack reading writing Reads)
include h

/-- A list of texts. -/
theorem texts (levels : Nat) (contents : List String) :
    Reads (levels + 1) (reading.list reading.text) (writing.list (contents.map writing.text))
      contents := by
  refine h.list ?_
  rw [List.forall₂_map_left_iff, List.forall₂_same]
  exact fun content _ ↦ h.text levels content

/-- The pack options. -/
theorem packOptions (levels : Nat) (options : PackOptions) :
    Reads (levels + 1) (reading.record (PackOptions.record reading)) (options.written writing)
      options :=
  h.record (PackOptions.record reading) (PackOptions.isWellNamed reading)
    (.cons (h.map _ (h.text levels options.packNamespace)) <|
      .cons (h.map _ (h.text levels options.description)) <|
      .cons (h.map _ (h.word levels options.packFormat)) <|
      .cons (h.map _ (h.word levels options.searchRadius)) <|
      .cons (h.map _ (h.text levels options.frameKind)) <|
      .cons (h.map _ (h.text levels options.markerTop)) <|
      .cons (h.map _ (h.text levels options.markerBottom)) <|
      .cons (h.map _ (h.word levels options.interval)) .nil)

/-- A group. -/
theorem group (levels : Nat) (group : Group) :
    Reads (levels + 2) (reading.record (Group.record reading)) (group.written writing) group :=
  h.record (Group.record reading) (Group.isWellNamed reading)
    (.cons (h.map _ (h.text (levels + 1) group.name)) <|
      .cons (h.map _ (h.texts levels group.items)) <|
      .cons (h.map _ (h.optionalText (levels + 1) group.itemFrame)) <|
      .cons (h.map _ (h.optionalText (levels + 1) group.fallback)) .nil)

/-- A list of groups. -/
theorem groups (levels : Nat) (groups : List Group) :
    Reads (levels + 3) (reading.list (reading.record (Group.record reading)))
      (writing.list (groups.map (Group.written writing))) groups := by
  refine h.list ?_
  rw [List.forall₂_map_left_iff, List.forall₂_same]
  exact fun group _ ↦ h.group levels group

/-- A configuration. -/
theorem configuration (levels : Nat) (config : Configuration) :
    Reads (levels + 4) (reading.record (Configuration.record reading)) (config.written writing)
      config :=
  h.record (Configuration.record reading) (Configuration.isWellNamed reading)
    (.cons (h.map _ (h.groups levels config.groups)) <|
      .cons (h.map _ (h.texts (levels + 2) config.effects)) <|
      .cons (h.map _ (h.optionalText (levels + 3) config.finalFallback)) <|
      .cons (h.map _ (h.optionalText (levels + 3) config.groupNameInFrame)) <|
      .cons (h.map _ (h.optionalText (levels + 3) config.itemNameInFrame)) <|
      .cons (h.map _ (h.packOptions (levels + 2) config.pack)) .nil)

end ReadsBack

end FrameSorter
