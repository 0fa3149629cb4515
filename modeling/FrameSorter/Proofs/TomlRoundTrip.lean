import FrameSorter.Compilation
import FrameSorter.Loading
import FrameSorter.Proofs.JsonRoundTrip
import FrameSorter.Proofs.TomlLines

/-!
# Configurations written in TOML

TOML writes a configuration in lines (`Toml.configurationLines`): first what has no header, then each
group under a header of its own, and then the pack options under theirs. A text that is absent has no
line, and only an empty list of groups has one. The lines make the table of the configuration
(`Toml.readDocument_of_spells`): those of each group add a table to the list of groups
(`Toml.advances_group`), and so all of them do (`Toml.advances_groups`). The members of the table are read
in whatever order they come (`Toml.TableRead`), and what they leave out keeps its default, so the table
is read as the configuration (`Toml.asRecord_configurationTable`). Every configuration is loaded from each
text that spells its lines, as the same configuration that JSON gives (`parseConfig_toml_of_spells`).
-/

set_option autoImplicit false
set_option relaxedAutoImplicit false

namespace FrameSorter

namespace Toml

/-! ### Writing -/

/-- The line of a text that may be absent; then there is none. -/
def optionalEntry (key : String) : Option String → List (String × Plain)
  | some content => [(key, .text content)]
  | none => []

/-- The lines of the pack options. -/
def packEntries (options : PackOptions) : List (String × Plain) :=
  [("namespace", .text options.packNamespace),
   ("description", .text options.description),
   ("packFormat", .number options.packFormat),
   ("searchRadius", .number options.searchRadius),
   ("frameKind", .text options.frameKind),
   ("markerTop", .text options.markerTop),
   ("markerBottom", .text options.markerBottom),
   ("interval", .number options.interval)]

/-- The lines of a group. -/
def groupEntries (group : Group) : List (String × Plain) :=
  ("groupName", .text group.name) :: ("items", .texts group.items) ::
    (optionalEntry "itemFrame" group.itemFrame ++ optionalEntry "fallback" group.fallback)

/-- The lines in front of all headers. -/
def topEntries (config : Configuration) : List (String × Plain) :=
  ("effects", .texts config.effects) ::
    (optionalEntry "finalFallback" config.finalFallback ++
      (optionalEntry "groupNameInFrame" config.groupNameInFrame ++
        optionalEntry "itemNameInFrame" config.itemNameInFrame))

/-- Groups have headers, so there is a line for them only if there are none. -/
def groupsEntry (groups : List Group) : List (String × Plain) :=
  if groups.isEmpty then [("groups", .texts [])] else []

/-- The lines of a group with its header. -/
def groupLines (group : Group) : List (List Token) :=
  elementLine "groups" :: (groupEntries group).map keyLine

/-- The lines of a configuration: what has no header, the groups, and the pack options. -/
def configurationLines (config : Configuration) : List (List Token) :=
  (topEntries config ++ groupsEntry config.groups).map keyLine ++
    (config.groups.flatMap groupLines ++
      tableLine "pack" :: (packEntries config.pack).map keyLine)

/-! ### Tables -/

/-- The tables of the groups. -/
def groupTables (groups : List Group) : List Members :=
  groups.map fun group ↦ values (groupEntries group)

/-- What the lines of the groups say: an empty list, or a list of tables. -/
def groupsValue (groups : List Group) : Value :=
  if groups.isEmpty then .list [] else .tables (groupTables groups)

/-- The table that the lines of a configuration make. -/
def configurationTable (config : Configuration) : Members :=
  values (topEntries config) ++
    [("groups", groupsValue config.groups),
     ("pack", .table .header (values (packEntries config.pack)))]

variable {s : List Char}

/-- What lines say is what their parts say. -/
theorem values_append (front back : List (String × Plain)) :
    values (front ++ back) = values front ++ values back :=
  List.map_append

/-- The keys of lines are the names of what they say. -/
theorem map_fst_values (entries : List (String × Plain)) :
    (values entries).map Prod.fst = entries.map Prod.fst := by
  rw [values, List.map_map]
  rfl

/-! ### Keys -/

/-- A text that may be absent has at most its key. -/
theorem keys_optionalEntry (key : String) (content : Option String) :
    ((optionalEntry key content).map Prod.fst).Sublist [key] := by
  cases content with
  | none => exact List.nil_sublist _
  | some content => exact List.Sublist.refl _

/-- The keys of a group. -/
theorem keys_groupEntries (group : Group) : ((groupEntries group).map Prod.fst).Sublist
    ((Group.record reading).members.map Member.name) := by
  have hoptional := (keys_optionalEntry "itemFrame" group.itemFrame).append
    (keys_optionalEntry "fallback" group.fallback)
  rw [← List.map_append] at hoptional
  exact (hoptional.cons_cons "items").cons_cons "groupName"

/-- The keys in front of all headers. -/
theorem keys_topEntries (config : Configuration) : ((topEntries config).map Prod.fst).Sublist
    ["effects", "finalFallback", "groupNameInFrame", "itemNameInFrame"] := by
  have hoptional := (keys_optionalEntry "finalFallback" config.finalFallback).append
    ((keys_optionalEntry "groupNameInFrame" config.groupNameInFrame).append
      (keys_optionalEntry "itemNameInFrame" config.itemNameInFrame))
  rw [← List.map_append, ← List.map_append] at hoptional
  exact hoptional.cons_cons "effects"

/-- A line for the groups has their key. -/
theorem keys_groupsEntry (groups : List Group) :
    ((groupsEntry groups).map Prod.fst).Sublist ["groups"] := by
  cases groups with
  | nil => exact List.Sublist.refl _
  | cons group groups => exact List.nil_sublist _

/-! ### Reading the lines -/

/-- A table with a list of tables behind its other members, if the list has any. -/
def withTables (members : Members) (tables : List Members) : Members :=
  members ++ if tables.isEmpty then [] else [("groups", .tables tables)]

/-- Behind the groups there is one member for all of them. -/
theorem withTables_groupsEntry (entries : List (String × Plain)) (groups : List Group) :
    withTables (values (entries ++ groupsEntry groups)) (groupTables groups) =
      values entries ++ [("groups", groupsValue groups)] := by
  cases groups with
  | nil => exact (List.append_nil _).trans (values_append _ _)
  | cons group groups =>
    rw [groupsEntry, if_neg (by simp), List.append_nil]
    rfl

/-- The lines under a header add a table for a group. -/
theorem advances_group {members : Members} (hmembers : "groups" ∉ members.map Prod.fst)
    (tables : List Members) (here : List String) (group : Group) {more : List (List Token)}
    (h : SpellsLines (groupLines group ++ more) s) :
    ∃ rest, SpellsLines more rest ∧
      Advances ⟨withTables members tables, here⟩ s
        ⟨withTables members (tables ++ [values (groupEntries group)]), ["groups"]⟩ rest := by
  obtain ⟨front, tail, next, hskip, hline, hend, hnext⟩ :=
    exists_line h ⟨withTables members tables, here⟩
  have hopen : openElement [] "groups" (withTables members tables) =
      .ok (members ++ [("groups", .tables (tables ++ [[]]))]) := by
    cases tables with
    | nil =>
      rw [withTables, List.isEmpty_nil, if_pos rfl, List.append_nil]
      exact openElement_of_notMem hmembers
    | cons table tables => exact openElement_append hmembers (table :: tables)
  have hheader := advances_elementLine ⟨withTables members tables, here⟩ (by decide) hline hend hopen
  have hkeys := keys_groupEntries group
  have hnames := Group.isWellNamed reading
  have hwords : ∀ entry ∈ groupEntries group, IsWord entry.1 := fun entry hentry ↦
    hnames.words _ (List.mem_cons_of_mem _ (hkeys.subset (List.mem_map_of_mem hentry)))
  have hnodup : (([] ++ values (groupEntries group)).map Prod.fst).Nodup := by
    rw [List.nil_append, map_fst_values]
    exact hkeys.nodup hnames.nodup
  obtain ⟨rest, hrest, hgroup⟩ :=
    advances_keyLines (isOpen_element hmembers tables) hwords hnodup hnext
  have htables : withTables members (tables ++ [values (groupEntries group)]) =
      members ++ [("groups", .tables (tables ++ [[] ++ values (groupEntries group)]))] := by
    rw [withTables, if_neg (by simp), List.nil_append]
  rw [htables]
  exact ⟨rest, hrest, hskip.trans (hheader.trans hgroup)⟩

/-- The lines of all groups add a table for each of them. -/
theorem advances_groups {members : Members} {groups : List Group}
    (hmembers : groups ≠ [] → "groups" ∉ members.map Prod.fst) (tables : List Members)
    (here : List String) {more : List (List Token)}
    (h : SpellsLines (groups.flatMap groupLines ++ more) s) :
    ∃ next rest, SpellsLines more rest ∧
      Advances ⟨withTables members tables, here⟩ s
        ⟨withTables members (tables ++ groupTables groups), next⟩ rest := by
  induction groups generalizing tables here s with
  | nil =>
    rw [groupTables, List.map_nil, List.append_nil]
    exact ⟨here, s, h, .refl _ s⟩
  | cons group groups ih =>
    have hnew := hmembers (List.cons_ne_nil _ _)
    rw [List.flatMap_cons, List.append_assoc] at h
    obtain ⟨front, hfront, hgroup⟩ := advances_group hnew tables here group h
    obtain ⟨next, rest, hrest, hgroups⟩ :=
      ih (fun _ ↦ hnew) (tables ++ [values (groupEntries group)]) ["groups"] hfront
    refine ⟨next, rest, hrest, hgroup.trans ?_⟩
    rwa [List.append_assoc] at hgroups

/-- The header of the pack options and the lines under it add their table. -/
theorem advances_pack {members : Members} (hmembers : "pack" ∉ members.map Prod.fst)
    (here : List String) (options : PackOptions)
    (h : SpellsLines (tableLine "pack" :: (packEntries options).map keyLine) s) :
    ∃ rest, SpellsLines [] rest ∧
      Advances ⟨members, here⟩ s
        ⟨members ++ [("pack", .table .header (values (packEntries options)))], ["pack"]⟩ rest := by
  obtain ⟨front, tail, next, hskip, hline, hend, hnext⟩ := exists_line h ⟨members, here⟩
  have hheader := advances_tableLine ⟨members, here⟩ (by decide) hline hend
    (openTable_of_notMem hmembers)
  have hkeys : (packEntries options).map Prod.fst =
      (PackOptions.record reading).members.map Member.name := rfl
  have hnames := PackOptions.isWellNamed reading
  have hwords : ∀ entry ∈ packEntries options, IsWord entry.1 := fun entry hentry ↦
    hnames.words _ (List.mem_cons_of_mem _ (hkeys ▸ List.mem_map_of_mem hentry))
  have hnodup : (([] ++ values (packEntries options)).map Prod.fst).Nodup := by
    rw [List.nil_append, map_fst_values, hkeys]
    exact hnames.nodup
  rw [← List.append_nil ((packEntries options).map keyLine)] at hnext
  obtain ⟨rest, hrest, hpack⟩ := advances_keyLines (isOpen_table hmembers) hwords hnodup hnext
  exact ⟨rest, hrest, hskip.trans (hheader.trans hpack)⟩

/-- A document that starts with a key has no byte order mark. -/
theorem skipOrderMark_of_spells {entry : String × Plain} (hkey : IsWord entry.1)
    {more : List (List Token)} (h : SpellsLines (keyLine entry :: more) s) : skipOrderMark s = s := by
  have hblank {c : Char} (hc : isBlank c) : c ≠ '\ufeff' := by
    rintro rfl
    exact absurd hc (by decide)
  have hhead : ∀ c ∈ s.head?, c ≠ '\ufeff' := by
    cases h with
    | @blank _ gap tail rest hgap hend htail _ =>
      cases gap with
      | nil => cases hend <;> rintro c ⟨⟩ <;> decide
      | cons d gap =>
        intro c hc
        obtain rfl := Option.some.inj hc
        exact hblank (hgap d List.mem_cons_self)
    | cons hline _ _ =>
      obtain ⟨c, hc, hfirst⟩ := hline.head_eq (isVisible_key hkey)
      intro d hd
      obtain rfl := Option.mem_unique hc hd
      rcases hfirst with hgap | ⟨_, hletter⟩
      · exact hblank hgap
      · rintro rfl
        exact absurd (hkey.2 '\ufeff' (List.mem_of_mem_head? hletter)) (by decide)
  unfold skipOrderMark
  split
  · exact absurd rfl (hhead '\ufeff' rfl)
  · rfl

/-- The lines of a configuration make its table. -/
theorem readDocument_of_spells {config : Configuration} {text : String}
    (h : SpellsLines (configurationLines config) text.toList) :
    readDocument text = .ok (configurationTable config) := by
  have hkeys : ((topEntries config ++ groupsEntry config.groups).map Prod.fst).Sublist
      (["effects", "finalFallback", "groupNameInFrame", "itemNameInFrame"] ++ ["groups"]) := by
    rw [List.map_append]
    exact (keys_topEntries config).append (keys_groupsEntry config.groups)
  have hwords : ∀ entry ∈ topEntries config ++ groupsEntry config.groups, IsWord entry.1 := by
    have hall : ∀ key ∈ ["effects", "finalFallback", "groupNameInFrame", "itemNameInFrame"] ++
        ["groups"], IsWord key := by decide
    exact fun entry hentry ↦ hall _ (hkeys.subset (List.mem_map_of_mem hentry))
  have hnodup : (([] ++ values (topEntries config ++ groupsEntry config.groups)).map
      Prod.fst).Nodup := by
    rw [List.nil_append, map_fst_values]
    exact hkeys.nodup (by decide)
  have hgroupsKey : config.groups ≠ [] →
      "groups" ∉ (values (topEntries config ++ groupsEntry config.groups)).map Prod.fst := by
    intro hgroups hmem
    rw [groupsEntry, if_neg (by simpa using hgroups), List.append_nil, map_fst_values] at hmem
    exact absurd ((keys_topEntries config).subset hmem) (by decide)
  have hpackKey : "pack" ∉ (values (topEntries config) ++
      [("groups", groupsValue config.groups)]).map Prod.fst := by
    rw [List.map_append, map_fst_values]
    exact fun hmem ↦ absurd
      (((keys_topEntries config).append (List.Sublist.refl ["groups"])).subset hmem) (by decide)
  have hfirst : SpellsLines (keyLine ("effects", .texts config.effects) :: _) text.toList := h
  have hmark := skipOrderMark_of_spells (show IsWord "effects" by decide) hfirst
  obtain ⟨front, hfront, htop⟩ := advances_keyLines isOpen_root hwords hnodup h
  have hstart : withTables (values (topEntries config ++ groupsEntry config.groups)) [] =
      values (topEntries config ++ groupsEntry config.groups) := List.append_nil _
  obtain ⟨here, behind, hbehind, hgroups⟩ := advances_groups hgroupsKey [] [] hfront
  rw [hstart, List.nil_append, withTables_groupsEntry] at hgroups
  obtain ⟨rest, hrest, hpack⟩ := advances_pack hpackKey here config.pack hbehind
  obtain ⟨left, hleft, hlines⟩ := htop.trans (hgroups.trans hpack) (Nat.lt_succ_self _)
  have hread : lines (text.toList.length + 1) {} text.toList =
      .ok (⟨configurationTable config, ["pack"]⟩, []) := by
    have htable : configurationTable config = values (topEntries config) ++
        [("groups", groupsValue config.groups)] ++
          [("pack", .table .header (values (packEntries config.pack)))] := by
      rw [List.append_assoc]
      rfl
    rw [htable]
    exact hlines.trans (lines_of_spells_nil hrest _ hleft)
  rw [readDocument, hmark, hread]
  rfl

/-! ### What the table says -/

variable {α : Type} {record : Record Reader α}

/-- The members of a table are read as members of a record, and together they change a value in this
way. -/
inductive TableRead (record : Record Reader α) : Members → (α → α) → Prop
  | nil : TableRead record [] id
  | cons {key : String} {value : Value} {member : Member Reader α} {members : Members}
      {change rest : α → α} (position : Nat) (hmember : record.members[position]? = some member)
      (hkey : key = member.name) (hread : member.read value = .ok change)
      (hrest : TableRead record members rest) :
      TableRead record ((key, value) :: members) (rest ∘ change)

namespace TableRead

variable {members others : Members} {change next : α → α}

/-- One part of a table is read after another. -/
theorem append (h : TableRead record members change) (hnext : TableRead record others next) :
    TableRead record (members ++ others) (next ∘ change) := by
  induction h with
  | nil => exact hnext
  | cons position hmember hkey hread _ ih =>
    rw [← Function.comp_assoc]
    exact .cons position hmember hkey hread ih

/-- The members of a table change the draft of a record. -/
theorem foldlM_setMember (h : TableRead record members change)
    (hnames : (record.members.map Member.name).Nodup) (draft : Draft α) :
    members.foldlM (setMember record) draft =
      .ok ⟨change draft.value, (members.map Prod.fst).reverse ++ draft.present⟩ := by
  induction h generalizing draft with
  | nil => rfl
  | @cons key value member members change rest position hmember hkey hread _ ih =>
    have hknown : record.member? key = some member := by
      rw [hkey]
      exact find?_eq_some_of_nodup_map hnames (List.mem_of_getElem? hmember)
    have hset : setMember record draft (key, value) = .ok (draft.set key change) := by
      rw [setMember, hknown]
      simp only [hread]
      rfl
    rw [List.foldlM_cons, hset]
    refine (ih (draft.set key change)).trans ?_
    simp [Draft.set]

/-- A table with all required members is read as a record. -/
theorem asRecord_eq (h : TableRead record members change)
    (hnames : (record.members.map Member.name).Nodup)
    (hrequired : record.required ⊆ members.map Prod.fst) (origin : Origin) :
    asRecord record (.table origin members) = .ok (change record.initial) := by
  have hfold := h.foldlM_setMember hnames (Draft.start record)
  have hfinish : Draft.finish ⟨change record.initial, (members.map Prod.fst).reverse ++ []⟩ record =
      .ok (change record.initial) :=
    Draft.finish_eq_ok fun _ hname ↦
      List.mem_append_left _ (List.mem_reverse.mpr (hrequired hname))
  change (members.foldlM (setMember record) (Draft.start record) >>= fun draft ↦
    draft.finish record) = _
  rw [hfold]
  exact hfinish

end TableRead

/-- A list is read if its elements are. -/
theorem mapM_map_eq_ok {β : Type} {read : Value → Except Fault β} {value : β → Value}
    (hread : ∀ x, read (value x) = .ok x) (xs : List β) : (xs.map value).mapM read = .ok xs := by
  induction xs with
  | nil => rfl
  | cons x xs ih =>
    rw [List.map_cons, List.mapM_cons, hread, ih]
    rfl

/-- Texts are read from their list. -/
theorem texts_value (contents : List String) :
    reading.list reading.text (Plain.texts contents).value = .ok contents := by
  have hread (content : String) : asText (.text content) = .ok content := rfl
  exact mapM_map_eq_ok hread contents

/-- A number of 32 bits is read from an integer. -/
theorem word_value (n : UInt32) : reading.word (Plain.number n).value = .ok n := by
  have hsize := n.toNat_lt
  have hrange : (0 : Int) ≤ n.toNat ∧ (n.toNat : Int) < UInt32.size := by
    simp only [UInt32.size]
    omega
  have hword : reading.word = asWord := rfl
  have hvalue : (Plain.number n).value = .integer n.toNat := rfl
  rw [hword, hvalue]
  unfold asWord
  dsimp only
  rw [if_pos hrange]
  simp

/-- A value that is read is stored. -/
theorem read_of_ok {β : Type} {name : String} {read : Reader β} {set : β → α → α} {value : Value}
    {x : β} (hread : read value = .ok x) : (Member.of name read set).read value = .ok (set x) := by
  change Except.map set (read value) = _
  rw [hread]
  rfl

/-- A text that may be absent is read if it is there. -/
theorem tableRead_optionalEntry (record : Record Reader α) {key : String}
    {set : Option String → α → α} (position : Nat)
    (hmember : record.members[position]? = some (Member.of key reading.optionalText set))
    (content : Option String) :
    TableRead record (values (optionalEntry key content))
      (content.elim id fun content ↦ set (some content)) := by
  cases content with
  | none => exact .nil
  | some content =>
    have hread : reading.optionalText (Plain.text content).value = .ok (some content) := rfl
    have htable : TableRead record (values (optionalEntry key (some content))) (id ∘ set _) :=
      .cons position hmember rfl (read_of_ok hread) .nil
    exact htable

/-- The pack options are read from their table. -/
theorem asRecord_packEntries (options : PackOptions) :
    asRecord (PackOptions.record reading) (.table .header (values (packEntries options))) =
      .ok options := by
  have hread : TableRead (PackOptions.record reading) (values (packEntries options)) _ :=
    .cons 0 rfl rfl (read_of_ok rfl) <|
      .cons 1 rfl rfl (read_of_ok rfl) <|
      .cons 2 rfl rfl (read_of_ok (word_value options.packFormat)) <|
      .cons 3 rfl rfl (read_of_ok (word_value options.searchRadius)) <|
      .cons 4 rfl rfl (read_of_ok rfl) <|
      .cons 5 rfl rfl (read_of_ok rfl) <|
      .cons 6 rfl rfl (read_of_ok rfl) <|
      .cons 7 rfl rfl (read_of_ok (word_value options.interval)) .nil
  exact hread.asRecord_eq (PackOptions.isWellNamed reading).nodup (List.nil_subset _) .header

/-- A group is read from its table. -/
theorem asRecord_groupEntries (group : Group) :
    asRecord (Group.record reading) (.table .header (values (groupEntries group))) = .ok group := by
  have hoptional := (tableRead_optionalEntry (Group.record reading) 2 rfl group.itemFrame).append
    (tableRead_optionalEntry (Group.record reading) 3 rfl group.fallback)
  rw [← values_append] at hoptional
  have hread : TableRead (Group.record reading) (values (groupEntries group)) _ :=
    .cons 0 rfl rfl (read_of_ok rfl) <|
      .cons 1 rfl rfl (read_of_ok (texts_value group.items)) hoptional
  rw [hread.asRecord_eq (Group.isWellNamed reading).nodup _ .header]
  · obtain ⟨name, items, itemFrame, fallback⟩ := group
    cases itemFrame <;> cases fallback <;> rfl
  · exact List.cons_subset.mpr ⟨List.mem_cons_self, List.nil_subset _⟩

/-- The groups are read from their tables. -/
theorem groups_value (groups : List Group) :
    reading.list (reading.record (Group.record reading)) (groupsValue groups) = .ok groups := by
  cases groups with
  | nil => rfl
  | cons group groups =>
    have htables : (groupTables (group :: groups)).map (Value.table .header) =
        (group :: groups).map fun group ↦ .table .header (values (groupEntries group)) :=
      List.map_map
    have hread := mapM_map_eq_ok asRecord_groupEntries (group :: groups)
    rw [← htables] at hread
    exact hread

/-- A configuration is read from its table. -/
theorem asRecord_configurationTable (config : Configuration) :
    asRecord (Configuration.record reading) (.table .header (configurationTable config)) =
      .ok config := by
  have hoptional := (tableRead_optionalEntry (Configuration.record reading) 2 rfl
    config.finalFallback).append <|
      (tableRead_optionalEntry (Configuration.record reading) 3 rfl config.groupNameInFrame).append
        (tableRead_optionalEntry (Configuration.record reading) 4 rfl config.itemNameInFrame)
  rw [← values_append, ← values_append] at hoptional
  have htop : TableRead (Configuration.record reading) (values (topEntries config)) _ :=
    .cons 1 rfl rfl (read_of_ok (texts_value config.effects)) hoptional
  have htables : TableRead (Configuration.record reading) [("groups", groupsValue config.groups),
      ("pack", .table .header (values (packEntries config.pack)))] _ :=
    .cons 0 rfl rfl (read_of_ok (groups_value config.groups)) <|
      .cons 5 rfl rfl (read_of_ok (asRecord_packEntries config.pack)) .nil
  have hnames := Configuration.isWellNamed reading
  rw [configurationTable, (htop.append htables).asRecord_eq hnames.nodup (List.nil_subset _) .header]
  obtain ⟨groups, effects, finalFallback, groupNameInFrame, itemNameInFrame, pack⟩ := config
  cases finalFallback <;> cases groupNameInFrame <;> cases itemNameInFrame <;> rfl

/-! ### Configurations -/

/-- A configuration is read from every text that spells its lines. -/
theorem readConfiguration_of_spells {config : Configuration} {text : String}
    (h : SpellsLines (configurationLines config) text.toList) :
    readConfiguration text = .ok config := by
  rw [readConfiguration, readDocument_of_spells h]
  exact asRecord_configurationTable config

/-- The text of a configuration without blanks, with large or small hexadecimal digits. -/
def compactText (isUpper : Bool) (config : Configuration) : String :=
  String.ofList ((configurationLines config).flatMap fun line ↦
    line.flatMap (Token.characters isUpper) ++ ['\n'])

/-- That text spells the lines of the configuration. -/
theorem spells_compactText (isUpper : Bool) (config : Configuration) :
    SpellsLines (configurationLines config) (compactText isUpper config).toList := by
  rw [compactText, String.toList_ofList]
  generalize configurationLines config = lines
  induction lines with
  | nil => exact .nil (List.forall_mem_nil _)
  | cons line lines ih =>
    rw [List.flatMap_cons, List.append_assoc, List.singleton_append]
    exact .cons (spells_compact isUpper _ line) (.lineFeed _) ih

end Toml

/-- A configuration that is written in TOML is read back, whatever blanks stand between the tokens,
whatever blank lines stand between the lines and whatever the file is called. So it compiles to the same
as what is read from JSON. -/
theorem parseConfig_toml_of_spells (config : Configuration) (file jsonFile : Path)
    {text json : String}
    (htext : Toml.SpellsLines (Toml.configurationLines config) text.toList)
    (hjson : Json.Spells (config.written Json.writing) json.toList) :
    parseConfig text .toml file = .ok config ∧
      (parseConfig text .toml file).map compile = (parseConfig json .json jsonFile).map compile := by
  have htoml : parseConfig text .toml file = .ok config := by
    rw [parseConfig, readConfiguration, Toml.readConfiguration_of_spells htext]
  refine ⟨htoml, ?_⟩
  rw [htoml, parseConfig, readConfiguration, Json.readConfiguration_of_spells hjson]

/-- The shelf is read back from TOML with large hexadecimal digits, as it is from JSON. -/
theorem parseConfig_toml_compactText_escapedShelf :
    Toml.SpellsLines (Toml.configurationLines escapedShelf)
        (Toml.compactText true escapedShelf).toList ∧
      Json.Spells (escapedShelf.written Json.writing) (Json.compactText escapedShelf).toList ∧
      parseConfig (Toml.compactText true escapedShelf) .toml ⟨"sorter.toml"⟩ = .ok escapedShelf ∧
      (parseConfig (Toml.compactText true escapedShelf) .toml ⟨"sorter.toml"⟩).map compile =
        (parseConfig (Json.compactText escapedShelf) .json ⟨"sorter.json"⟩).map compile :=
  ⟨Toml.spells_compactText true escapedShelf, Json.spells_compactText escapedShelf,
    parseConfig_toml_of_spells escapedShelf ⟨"sorter.toml"⟩ ⟨"sorter.json"⟩
      (Toml.spells_compactText true escapedShelf) (Json.spells_compactText escapedShelf)⟩

example : ((escapedShelf.groups.flatMap Toml.groupLines).flatMap fun line ↦
    line.flatMap (Toml.Token.characters true) ++ ['\n']) =
      "[[groups]]\ngroupName=\"Ores \\\"\\\\\\u000A\\u0001 é\"\n".toList ++
        "items=[\"minecraft:coal\",\"\"]\nfallback=\"null\"\n".toList := by
  cbv

end FrameSorter
