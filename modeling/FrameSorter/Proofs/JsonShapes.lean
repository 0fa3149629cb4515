import FrameSorter.Proofs.FirstComplaint
import FrameSorter.Proofs.JsonRoundTrip

/-!
# Records by name and by position

A record is written as an object or as the list of its values in declaration order, and the end of such
a list may be left out where it only has defaults (`Shape`, `Shape.Keeps`). Each record of a
configuration may have a shape of its own (`Shapes`). The two ways of reading a record come to the same
(`reads_shape`): the members that are not left out change the value one after another
(`positions_of_reads`), and the others have their defaults already. So every configuration is read back
from all its shapes (`reads_configuration`). What no shape has is refused: a group that is an empty list,
and a list with more elements than its record has members (`HasLongList`). All of it is
`parseConfig_of_shapes`.
-/

set_option autoImplicit false
set_option relaxedAutoImplicit false

namespace FrameSorter

/-! ### What is left without the last members -/

/-- The group with defaults in place of the members behind the first so many. -/
def Group.cutTo (kept : Nat) (group : Group) : Group where
  name := if 0 < kept then group.name else ""
  items := if 1 < kept then group.items else []
  itemFrame := if 2 < kept then group.itemFrame else none
  fallback := if 3 < kept then group.fallback else none

/-- The pack options with defaults in place of the members behind the first so many. -/
def PackOptions.cutTo (kept : Nat) (options : PackOptions) : PackOptions where
  packNamespace := if 0 < kept then options.packNamespace else "sorter"
  description := if 1 < kept then options.description else "Item sorter"
  packFormat := if 2 < kept then options.packFormat else 15
  searchRadius := if 3 < kept then options.searchRadius else 64
  frameKind := if 4 < kept then options.frameKind else "minecraft:item_frame"
  markerTop := if 5 < kept then options.markerTop else "minecraft:hopper"
  markerBottom := if 6 < kept then options.markerBottom else "minecraft:observer"
  interval := if 7 < kept then options.interval else 20

/-- The configuration with defaults in place of the members behind the first so many. -/
def Configuration.cutTo (kept : Nat) (config : Configuration) : Configuration where
  groups := if 0 < kept then config.groups else []
  effects := if 1 < kept then config.effects else []
  finalFallback := if 2 < kept then config.finalFallback else none
  groupNameInFrame := if 3 < kept then config.groupNameInFrame else none
  itemNameInFrame := if 4 < kept then config.itemNameInFrame else none
  pack := if 5 < kept then config.pack else {}

namespace Json

/-! ### Shapes -/

/-- How a record is written: as an object, or as the list of its first so many values. -/
inductive Shape
  | object
  | list (kept : Nat)
  deriving DecidableEq, Repr

/-- A record in this shape. -/
def Shape.record (shape : Shape) (name : String) (members : List (String × List Token)) :
    List Token :=
  match shape with
  | .object => writing.record name members
  | .list kept => writing.list ((members.take kept).map Prod.snd)

/-- How JSON writes values with records in this shape. -/
def Shape.writing (shape : Shape) : Writing (List Token) :=
  { Json.writing with record := shape.record }

/-- A shape leaves nothing out but what is the same when it is cut off. -/
def Shape.Keeps {α : Type} (shape : Shape) (cutTo : Nat → α → α) (value : α) : Prop :=
  match shape with
  | .object => True
  | .list kept => cutTo kept value = value

instance {α : Type} [DecidableEq α] (shape : Shape) (cutTo : Nat → α → α) (value : α) :
    Decidable (shape.Keeps cutTo value) :=
  match shape with
  | .object => inferInstanceAs (Decidable True)
  | .list kept => inferInstanceAs (Decidable (cutTo kept value = value))

/-- The shapes of the records of a configuration; the groups are counted from zero. -/
structure Shapes where
  configuration : Shape
  packOptions : Shape
  group : Nat → Shape

/-- A configuration whose records are in these shapes. -/
def Shapes.written (shapes : Shapes) (config : Configuration) : List Token :=
  shapes.configuration.record "Configuration"
    [("groups", writing.list (config.groups.mapIdx fun place group ↦
       group.written (shapes.group place).writing)),
     ("effects", writing.list (config.effects.map writing.text)),
     ("finalFallback", writing.optionalText config.finalFallback),
     ("groupNameInFrame", writing.optionalText config.groupNameInFrame),
     ("itemNameInFrame", writing.optionalText config.itemNameInFrame),
     ("pack", config.pack.written shapes.packOptions.writing)]

/-- The shapes leave nothing out but defaults. The name of a group is never left out. -/
structure Shapes.Fit (shapes : Shapes) (config : Configuration) : Prop where
  configuration : shapes.configuration.Keeps Configuration.cutTo config
  packOptions : shapes.packOptions.Keeps PackOptions.cutTo config.pack
  group : ∀ place group, config.groups[place]? = some group →
    (shapes.group place).Keeps Group.cutTo group ∧ shapes.group place ≠ .list 0

/-! ### Reading by position -/

section Positions

variable {α : Type} {following : List Token} {s : List Char}

/-- Each of these members is read from what is written for it, as a change of the value. -/
def PartsRead (members : List (Member Reader α)) (parts : List (List Token × (α → α))) : Prop :=
  List.Forall₂ (fun member part ↦ Reads member.read part.1 part.2) members parts

/-- A value, changed by the parts that were read. -/
def changedBy (parts : List (List Token × (α → α))) (value : α) : α :=
  parts.foldl (fun value part ↦ part.2 value) value

theorem PartsRead.nil : PartsRead (α := α) [] [] :=
  List.Forall₂.nil

theorem PartsRead.cons {member : Member Reader α} {members : List (Member Reader α)}
    {tokens : List Token} {change : α → α} {parts : List (List Token × (α → α))}
    (hmember : Reads member.read tokens change) (hmembers : PartsRead members parts) :
    PartsRead (member :: members) ((tokens, change) :: parts) :=
  List.Forall₂.cons hmember hmembers

/-- Parts that are read by position are read under the names of their members. -/
theorem PartsRead.membersRead {members : List (Member Reader α)}
    {parts : List (List Token × (α → α))} (hparts : PartsRead members parts) :
    MembersRead (fun read form value ↦ Reads read form value) members
      ((members.map Member.name).zip (parts.map Prod.fst)) (changedBy parts) := by
  induction hparts with
  | nil => exact .nil
  | cons hmember _ ih => exact .cons hmember ih

/-- The members that a list gives by position are read one after another, up to its end. -/
theorem positions_of_reads {members : List (Member Reader α)}
    {parts : List (List Token × (α → α))} (hparts : PartsRead members parts)
    (more : List (Member Reader α)) (draft : Draft α) {isFirst : Bool}
    (h : Spells (separated isFirst (parts.map Prod.fst) ++ .mark .closeList :: following) s) :
    ∃ rest, Spells (.mark .closeList :: following) rest ∧
      positions (members ++ more) isFirst draft s =
        .ok (⟨changedBy parts draft.value, (members.map Member.name).reverse ++ draft.present⟩, rest) := by
  induction hparts generalizing draft isFirst s with
  | nil =>
    -- Behind the last of all members the reader does not look for another element.
    cases more with
    | nil => exact ⟨s, h, rfl⟩
    | cons member more =>
      obtain ⟨rest, hrest, hend⟩ := hasElement_close isFirst h
      refine ⟨rest, hrest, ?_⟩
      rw [List.nil_append, positions, bind_of_ok hend]
      rfl
  | @cons member part members parts hpart hparts ih =>
    obtain ⟨form, change⟩ := part
    obtain ⟨first, rest, rfl, hfirst⟩ := hpart.starts
    rw [List.map_cons, separated, List.append_assoc, List.append_assoc] at h
    obtain ⟨front, hfront, hmore⟩ := hasElement_next hfirst h
    obtain ⟨behind, hbehind, hread⟩ :=
      hpart.reads (endsValue_separated _ (Or.inl rfl) following) hfront
    obtain ⟨last, hlast, hrest⟩ := ih (draft.set member.name change) hbehind
    refine ⟨last, hlast, ?_⟩
    rw [List.cons_append, positions, bind_of_ok hmore, if_pos rfl, bind_of_ok hread, hrest]
    simp [Draft.set, changedBy]

/-- A record is read from a list of its first values, if the required ones are among them. -/
theorem reads_record_list {record : Record Reader α} {parts : List (List Token × (α → α))}
    (hparts : PartsRead record.members parts) (kept : Nat)
    (hrequired : record.required ⊆ (record.members.take kept).map Member.name) :
    Reads (Json.record record) (writing.list ((parts.take kept).map Prod.fst))
      (changedBy (parts.take kept) record.initial) where
  starts := ⟨_, _, rfl, by simp⟩
  reads {following s} _ hspells := by
    have htokens : writing.list ((parts.take kept).map Prod.fst) ++ following =
        .mark .openList ::
          (separated true ((parts.take kept).map Prod.fst) ++ .mark .closeList :: following) := by
      simp [writing, intercalate_eq_separated]
    rw [htokens] at hspells
    obtain ⟨front, hfront, hskip⟩ := hspells.skipBlanks_mark
    have htake : PartsRead (record.members.take kept) (parts.take kept) := List.forall₂_take kept hparts
    obtain ⟨behind, hbehind, hpositions⟩ :=
      positions_of_reads htake (record.members.drop kept) (Draft.start record) hfront
    obtain ⟨rest, hrest, hclose⟩ := hbehind.skipBlanks_mark
    rw [List.take_append_drop] at hpositions
    have hcomplete : record.required ⊆
        ((record.members.take kept).map Member.name).reverse ++ (Draft.start record).present :=
      fun name hname ↦ List.mem_append_left _ (List.mem_reverse.mpr (hrequired hname))
    refine ⟨rest, hrest, ?_⟩
    rw [Json.record, hskip]
    simp only [Mark.character]
    rw [bind_of_ok hpositions, Draft.finishPositional_eq_ok hcomplete, bind_of_ok (liftM_of_ok _ behind),
      bind_of_ok (closeList_eq_ok_iff.mpr hclose)]
    rfl

/-- A record is read from every shape that keeps its value. -/
theorem reads_shape {record : Record Reader α} (hnames : record.IsWellNamed)
    {parts : List (List Token × (α → α))} (hparts : PartsRead record.members parts)
    {cutTo : Nat → α → α} (value : α) (hvalue : changedBy parts record.initial = value)
    (hcut : ∀ kept < parts.length, changedBy (parts.take kept) record.initial = cutTo kept value)
    {shape : Shape}
    (hkeeps : shape.Keeps cutTo value)
    (hrequired : ∀ kept, shape = .list kept →
      record.required ⊆ (record.members.take kept).map Member.name) :
    Reads (Json.record record)
      (shape.record record.name ((record.members.map Member.name).zip (parts.map Prod.fst))) value := by
  cases shape with
  | object => exact hvalue ▸ reads_record hnames hparts.membersRead
  | list kept =>
    have hcutValue : changedBy (parts.take kept) record.initial = value := by
      rcases Nat.lt_or_ge kept parts.length with hshort | hlong
      · exact (hcut kept hshort).trans hkeeps
      · rw [List.take_of_length_le hlong, hvalue]
    have hread := reads_record_list hparts kept (hrequired kept rfl)
    have hlength : (parts.map Prod.fst).length ≤ (record.members.map Member.name).length := by
      rw [List.length_map, List.length_map, hparts.length_eq]
    rw [hcutValue] at hread
    rwa [Shape.record, List.map_take, List.map_snd_zip hlength, ← List.map_take]

end Positions

/-! ### Reading every shape -/

/-- A group in a shape that leaves out nothing but defaults. -/
theorem reads_group {shape : Shape} {group : Group} (hkeeps : shape.Keeps Group.cutTo group)
    (hname : shape ≠ .list 0) :
    Reads (Json.record (Group.record reading)) (group.written shape.writing) group := by
  have hparts : PartsRead (Group.record reading).members _ :=
    .cons ((reads_text group.name).map _) <|
    .cons ((readsBack.texts 0 group.items).map _) <|
    .cons ((reads_optionalText group.itemFrame).map _) <|
    .cons ((reads_optionalText group.fallback).map _) .nil
  refine reads_shape (Group.isWellNamed reading) hparts group rfl ?_ hkeeps ?_
  · intro kept hkept
    match kept, hkept with
    | 0, _ | 1, _ | 2, _ | 3, _ => rfl
  · rintro kept rfl
    obtain ⟨kept, rfl⟩ := Nat.exists_eq_add_one_of_ne_zero fun hzero ↦ hname (congrArg _ hzero)
    exact List.cons_subset.mpr ⟨List.mem_cons_self, List.nil_subset _⟩

/-- Pack options in a shape that leaves out nothing but defaults. -/
theorem reads_packOptions {shape : Shape} {options : PackOptions}
    (hkeeps : shape.Keeps PackOptions.cutTo options) :
    Reads (Json.record (PackOptions.record reading)) (options.written shape.writing) options := by
  have hparts : PartsRead (PackOptions.record reading).members _ :=
    .cons ((reads_text options.packNamespace).map _) <|
    .cons ((reads_text options.description).map _) <|
    .cons ((reads_word options.packFormat).map _) <|
    .cons ((reads_word options.searchRadius).map _) <|
    .cons ((reads_text options.frameKind).map _) <|
    .cons ((reads_text options.markerTop).map _) <|
    .cons ((reads_text options.markerBottom).map _) <|
    .cons ((reads_word options.interval).map _) .nil
  refine reads_shape (PackOptions.isWellNamed reading) hparts options rfl ?_ hkeeps
    fun _ _ ↦ List.nil_subset _
  intro kept hkept
  match kept, hkept with
  | 0, _ | 1, _ | 2, _ | 3, _ | 4, _ | 5, _ | 6, _ | 7, _ => rfl

/-- Groups that each have a shape of their own. -/
theorem reads_groups {groups : List Group} {shape : Nat → Shape}
    (hgroups : ∀ place group, groups[place]? = some group →
      (shape place).Keeps Group.cutTo group ∧ shape place ≠ .list 0) :
    List.Forall₂ (Reads (Json.record (Group.record reading)))
      (groups.mapIdx fun place group ↦ group.written (shape place).writing) groups := by
  induction groups generalizing shape with
  | nil => exact .nil
  | cons group groups ih =>
    obtain ⟨hkeeps, hname⟩ := hgroups 0 group rfl
    rw [List.mapIdx_cons]
    exact .cons (reads_group hkeeps hname) (ih fun place group hgroup ↦ hgroups (place + 1) group hgroup)

/-- A configuration in shapes that leave out nothing but defaults. -/
theorem reads_configuration {shapes : Shapes} {config : Configuration} (hfit : shapes.Fit config) :
    Reads (Json.record (Configuration.record reading)) (shapes.written config) config := by
  have hparts : PartsRead (Configuration.record reading).members _ :=
    .cons ((reads_list (reads_groups hfit.group)).map _) <|
    .cons ((readsBack.texts 0 config.effects).map _) <|
    .cons ((reads_optionalText config.finalFallback).map _) <|
    .cons ((reads_optionalText config.groupNameInFrame).map _) <|
    .cons ((reads_optionalText config.itemNameInFrame).map _) <|
    .cons ((reads_packOptions hfit.packOptions).map _) .nil
  refine reads_shape (Configuration.isWellNamed reading) hparts config rfl ?_ hfit.configuration
    fun _ _ ↦ List.nil_subset _
  intro kept hkept
  match kept, hkept with
  | 0, _ | 1, _ | 2, _ | 3, _ | 4, _ | 5, _ => rfl

/-! ### Lists that are too long -/

section Long

variable {α : Type} {record : Record Schema α} {tree : Tree} {name : String} {value : α}

/-- What a record gives for the member with this name: what stands under the name in an object, and in
the member's place in a list. -/
inductive GivesMember (record : Record Schema α) (name : String) : Tree → Tree → Prop
  | byName {members : List (Literal × Tree)} {key : Literal} {tree : Tree}
      (hmember : (key, tree) ∈ members) (hname : key.content? = some name) :
      GivesMember record name (.object members) tree
  | byPosition {trees : List Tree} {tree : Tree} (place : Nat) (htree : trees[place]? = some tree)
      (hplace : (record.members.map Member.name)[place]? = some name) :
      GivesMember record name (.list trees) tree

/-- What an object gives for a member of the record is a value of this member. -/
theorem StandsFor.exists_decode {members : List (Literal × Tree)} {changes : List (String × (α → α))}
    (hmembers : StandsFor record members changes) {key : Literal} (htree : (key, tree) ∈ members)
    (hname : key.content? = some name) {member : Member Schema α}
    (hmember : record.member? name = some member) : ∃ change, member.read.decode tree = some change := by
  induction hmembers with
  | nil => cases htree
  | unknown hname' hunknown _ ih =>
    rcases List.mem_cons.mp htree with hsame | htree
    · obtain ⟨rfl, rfl⟩ := Prod.mk.inj hsame
      obtain rfl := Option.some.inj (hname.symm.trans hname')
      cases hunknown.symm.trans hmember
    · exact ih htree
  | known hname' hmember' hdecode _ ih =>
    rcases List.mem_cons.mp htree with hsame | htree
    · obtain ⟨rfl, rfl⟩ := Prod.mk.inj hsame
      obtain rfl := Option.some.inj (hname.symm.trans hname')
      obtain rfl := Option.some.inj (hmember.symm.trans hmember')
      exact ⟨_, hdecode⟩
    · exact ih htree

/-- What a list gives in the place of a member is a value of this member. -/
theorem exists_decode_of_decodePositions {members : List (Member Schema α)} {trees : List Tree}
    {draft final : Draft α} (hdecode : decodePositions members trees draft = some final) {place : Nat}
    (htree : trees[place]? = some tree) :
    ∃ member change, members[place]? = some member ∧ member.read.decode tree = some change := by
  fun_induction decodePositions members trees draft generalizing place with
  | case1 => cases htree
  | case2 => cases hdecode
  | case3 member members first trees draft ih =>
    obtain ⟨change, hchange, hrest⟩ := Option.bind_eq_some_iff.mp hdecode
    cases place with
    | zero =>
      obtain rfl : first = tree := Option.some.inj htree
      exact ⟨member, change, rfl, hchange⟩
    | succ place => exact ih change hrest htree

/-- A list has no more elements than the record has members. -/
theorem length_le_of_decodePositions {members : List (Member Schema α)} {trees : List Tree}
    {draft final : Draft α} (hdecode : decodePositions members trees draft = some final) :
    trees.length ≤ members.length := by
  fun_induction decodePositions members trees draft with
  | case1 => exact Nat.zero_le _
  | case2 => cases hdecode
  | case3 member members tree trees draft ih =>
    obtain ⟨change, -, hrest⟩ := Option.bind_eq_some_iff.mp hdecode
    exact Nat.succ_le_succ (ih change hrest)

/-- A list that is a record has no more elements than the record has members. -/
theorem length_le_of_record? {trees : List Tree}
    (hrecord : (Tree.list trees).record? record = some value) :
    trees.length ≤ record.members.length := by
  obtain ⟨draft, hdecode, -⟩ := Option.bind_eq_some_iff.mp hrecord
  exact length_le_of_decodePositions hdecode

/-- Each of the elements that a list has is found in its tree. -/
theorem exists_value_of_mapM {decode : Tree → Option α} {trees : List Tree} {values : List α}
    (hdecode : trees.mapM decode = some values) (htree : tree ∈ trees) :
    ∃ value, decode tree = some value := by
  induction trees generalizing values with
  | nil => cases htree
  | cons first trees ih =>
    obtain ⟨head, tail, hhead, htail, -⟩ := mapM_cons_eq_some_iff.mp hdecode
    rcases List.mem_cons.mp htree with rfl | htree
    · exact ⟨head, hhead⟩
    · exact ih htail htree

/-- What a record gives for a member is a value of this member. -/
theorem GivesMember.exists_decode {given : Tree} (hgives : GivesMember record name tree given)
    (hrecord : tree.record? record = some value) (hnames : (record.members.map Member.name).Nodup)
    {member : Member Schema α} (hmember : record.member? name = some member) :
    ∃ change, member.read.decode given = some change := by
  cases hgives with
  | byName hgiven hname =>
    obtain ⟨changes, hright, -⟩ := record?_object_eq_some_iff.mp hrecord
    exact hright.exists_decode hgiven hname hmember
  | byPosition place hgiven hplace =>
    obtain ⟨draft, hdecode, -⟩ := Option.bind_eq_some_iff.mp hrecord
    obtain ⟨found, change, hfound, hchange⟩ := exists_decode_of_decodePositions hdecode hgiven
    rw [List.getElem?_map, hfound] at hplace
    obtain rfl : found.name = name := Option.some.inj hplace
    have hsame : record.member? found.name = some found :=
      find?_eq_some_of_nodup_map hnames (List.mem_of_getElem? hfound)
    obtain rfl := Option.some.inj (hmember.symm.trans hsame)
    exact ⟨change, hchange⟩

end Long

/-- One of the records of a configuration is a list of more elements than it has members. -/
inductive HasLongList (tree : Tree) : Prop
  | configuration {trees : List Tree} (htree : tree = .list trees) (hlong : 6 < trees.length)
  | packOptions {trees : List Tree}
      (hpack : GivesMember (Configuration.record schemas) "pack" tree (.list trees))
      (hlong : 8 < trees.length)
  | group {groups trees : List Tree}
      (hgroups : GivesMember (Configuration.record schemas) "groups" tree (.list groups))
      (hgroup : .list trees ∈ groups) (hlong : 4 < trees.length)

/-- A tree with a list that is too long is no configuration. -/
theorem HasLongList.record?_eq_none {tree : Tree} (hlong : HasLongList tree) :
    tree.record? (Configuration.record schemas) = none := by
  rw [Option.eq_none_iff_forall_ne_some]
  intro config hrecord
  have hnames := (Configuration.isWellNamed schemas).nodup
  cases hlong with
  | configuration htree hlong =>
    subst htree
    exact absurd (length_le_of_record? hrecord) (Nat.not_le_of_lt hlong)
  | packOptions hpack hlong =>
    obtain ⟨change, hdecode⟩ := hpack.exists_decode hrecord hnames rfl
    obtain ⟨options, hoptions, -⟩ := Option.map_eq_some_iff.mp hdecode
    exact absurd (length_le_of_record? hoptions) (Nat.not_le_of_lt hlong)
  | group hgroups hgroup hlong =>
    obtain ⟨change, hdecode⟩ := hgroups.exists_decode hrecord hnames rfl
    obtain ⟨found, hfound, -⟩ := Option.map_eq_some_iff.mp hdecode
    obtain ⟨group, hdecoded⟩ := exists_value_of_mapM hfound hgroup
    exact absurd (length_le_of_record? hdecoded) (Nat.not_le_of_lt hlong)

/-- A group that is an empty list has no name. -/
theorem groupSchema_read_of_empty {front inside rest : List Char}
    (hbracket : skipBlanks front = '[' :: inside) (hclose : skipBlanks inside = ']' :: rest) :
    groupSchema.read front = .error (.tooShort "Group" 0 4) := by
  have hleads : LeadsElements true [] inside rest := by rwa [LeadsElements]
  exact record_eq_error_of_finishPositional
    (fun member hmember ↦ (isSteady_of_mem_group member hmember).agrees) hbracket hleads rfl rfl

end Json

/-- Records may be given by name or by position. Every configuration is read back from each text that
has its records as objects or as lists, each record in its own way, where a list may leave out defaults
at its end. A group that is an empty list is refused, if nothing before it is wrong, and no list is
accepted that has more elements than its record has members. -/
theorem parseConfig_of_shapes :
    (∀ (config : Configuration) (shapes : Json.Shapes), shapes.Fit config → ∀ (text : String) file,
      Json.Spells (shapes.written config) text.toList → parseConfig text .json file = .ok config) ∧
    (∀ (document : String) (front inside rest : List Char),
      Json.LeadsToGroup document.toList front → Json.skipBlanks front = '[' :: inside →
      Json.skipBlanks inside = ']' :: rest →
        IsRefusedFor document .json (.tooShort "Group" 0 4)
          "invalid length 0, expected struct Group with 4 elements") ∧
    ∀ (document : String) file config, parseConfig document .json file = .ok config →
      (∃ tree : Json.Tree, tree.IsWrittenIn document) ∧
        ∀ tree : Json.Tree, tree.IsWrittenIn document → ¬ Json.HasLongList tree := by
  refine ⟨fun config shapes hfit text file htext ↦ ?_, fun document front inside rest hleads hbracket
    hclose ↦ ?_, fun document file config hparse ↦ ?_⟩
  · exact parseConfig_json_eq_ok_iff.mpr
      (Json.readConfiguration_of_reads (Json.reads_configuration hfit) htext)
  · have hfails := Json.groupSchema_read_of_empty hbracket hclose
    exact hleads.isRefusedFor hbracket (by decide) hfails rfl
  · rw [parseConfig_json_eq_ok_iff] at hparse
    refine ⟨Json.exists_tree_of_readConfiguration hparse, fun tree htree hlong ↦ ?_⟩
    rw [htree.readConfiguration, hlong.record?_eq_none] at hparse
    cases hparse

/-- Two shelves, of which the second has a name only, and a pack with a namespace of its own. -/
def depotShelves : Configuration where
  groups := [{ name := "Ores", items := ["minecraft:coal"] }, { name := "Rest" }]
  pack := { packNamespace := "depot" }

namespace Json

/-- A list for each record, but an object for the second group. -/
def depotShapes : Shapes where
  configuration := .list 6
  packOptions := .list 1
  group
    | 0 => .list 2
    | _ => .object

theorem depotShapes_fit : depotShapes.Fit depotShelves where
  configuration := by decide
  packOptions := by decide
  group place group hgroup := by
    match place with
    | 0 =>
      obtain rfl := Option.some.inj hgroup
      decide
    | 1 =>
      obtain rfl := Option.some.inj hgroup
      decide
    | place + 2 => cases hgroup

/-- The shelves in these shapes. -/
def depotText : String :=
  "[[[\"Ores\",[\"minecraft:coal\"]]," ++
    "\x7b\"groupName\":\"Rest\",\"items\":[],\"itemFrame\":null,\"fallback\":null\x7d]," ++
    "[],null,null,null,[\"depot\"]]"

theorem depotText_spells : Spells (depotShapes.written depotShelves) depotText.toList := by
  have htokens : depotText.toList = (depotShapes.written depotShelves).flatMap Token.characters := by
    decide +kernel
  rw [htokens]
  exact spells_compact _

/-- A list of groups of which the first is an empty list. -/
theorem leadsToGroup_emptyGroup : LeadsToGroup "[[[] ?".toList ['[', ']', ' ', '?'] := by
  have hcharacters : "[[[] ?".toList = ['[', '[', '[', ']', ' ', '?'] := by decide
  have hfirst : LeadsToElement true [] ['[', ']', ' ', '?'] ['[', ']', ' ', '?'] := rfl
  rw [hcharacters]
  exact .byPosition rfl ⟨_, [], rfl, hfirst, List.forall_mem_nil _⟩

/-- A list of groups of which the first is a list of five nulls. -/
def longGroup : Tree :=
  .list [.list [.list (List.replicate 5 (.scalar (.keyword .null)))]]

theorem longGroup_isWritten : longGroup.IsWrittenIn "[[[null,null,null,null,null]]]" := by
  have htext : "[[[null,null,null,null,null]]]" = String.ofList (longGroup.characters []) := by
    decide +kernel
  exact htext ▸ longGroup.isWrittenIn_characters rfl

theorem longGroup_hasLongList : HasLongList longGroup :=
  .group (.byPosition 0 rfl rfl) List.mem_cons_self (by decide)

end Json

/-- The shelves are read from lists and an object, an empty group is refused before the text goes wrong,
and a group of five values is not accepted. -/
theorem parseConfig_of_shapes_depotShelves :
    parseConfig Json.depotText .json ⟨"sorter.json"⟩ = .ok depotShelves ∧
      IsRefusedFor "[[[] ?" .json (.tooShort "Group" 0 4)
        "invalid length 0, expected struct Group with 4 elements" ∧
      ∀ config, parseConfig "[[[null,null,null,null,null]]]" .json ⟨"sorter.json"⟩ ≠ .ok config := by
  obtain ⟨hshapes, hempty, hlong⟩ := parseConfig_of_shapes
  refine ⟨hshapes _ _ Json.depotShapes_fit _ _ Json.depotText_spells,
    hempty _ _ _ _ Json.leadsToGroup_emptyGroup rfl rfl, fun config hparse ↦ ?_⟩
  exact (hlong _ _ _ hparse).2 _ Json.longGroup_isWritten Json.longGroup_hasLongList

end FrameSorter
