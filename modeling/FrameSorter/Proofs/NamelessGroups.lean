import FrameSorter.Proofs.FirstComplaint

/-!
# Groups without a name

Of the members of a group only the name has no default, so a group object without one is refused when
its closing brace is reached. A group object that repeats a member is refused before, at the colon of the
second one. Either way the groups before it have to be accepted (`IsAcceptedGroup`), the members up to
this point have to be right (`IsBodyWith`, `IsBodyRepeating`), and everything behind it may be anything
(`isRefusedFor_missing_groupName`).
-/

set_option autoImplicit false
set_option relaxedAutoImplicit false

namespace FrameSorter

namespace Json

/-! ### What stands before -/

/-- The text is the object of a group that is accepted. -/
def IsAcceptedGroup (text : String) : Prop :=
  ∃ members group, (Tree.object members).IsWrittenIn text ∧
    (Tree.object members).record? (Group.record schemas) = some group

/-- In braces the text is an object, and these are the members of a group in it, each of them once and
of its type. The others are none that a group has. -/
def IsBodyWith (names : List String) (body : String) : Prop :=
  ∃ members changes, (Tree.object members).IsWrittenIn ("\x7b" ++ body ++ "\x7d") ∧
    StandsFor (Group.record schemas) members changes ∧ changes.map Prod.fst = names ∧ names.Nodup

/-- Behind an opening brace the text has members of an object, of which these are the members of a group,
each of them once and of its type, and then this member of a group up to its colon. -/
def IsBodyUpTo (names : List String) (name : String) (body : String) : Prop :=
  ∃ members changes front key afterKey, LeadsToMember true members body.toList front ∧
    StandsFor (Group.record schemas) members changes ∧ changes.map Prod.fst = names ∧ names.Nodup ∧
    skipBlanks front = Literal.characters key ++ afterKey ∧ key.content? = some name ∧
    skipBlanks afterKey = [':']

/-- The groups with a comma behind each of them. -/
def listed (groups : List String) : String :=
  String.join (groups.map (· ++ ","))

/-- A document with these groups and then this text. -/
def documentWith (groups : List String) (group : String) : String :=
  "\x7b\"groups\":[" ++ listed groups ++ group

section Front

variable {trees : List Tree} {s inside front : List Char}

/-- Behind a comma the first element of a list is a further one. -/
theorem LeadsToElement.behind_comma (hleads : LeadsToElement true trees inside front)
    (hcomma : skipBlanks s = ',' :: inside) : LeadsToElement false trees s front := by
  cases trees with
  | nil =>
    obtain rfl : front = inside := hleads
    exact hcomma
  | cons tree trees =>
    obtain ⟨start, behind, hstart, htree, htrees⟩ := hleads
    obtain rfl : start = inside := hstart
    exact ⟨start, behind, hcomma, htree, htrees⟩

/-- Accepted groups lead to whatever stands behind them. -/
theorem leadsToElement_listed {groups : List String} (hgroups : ∀ text ∈ groups, IsAcceptedGroup text)
    (front : List Char) :
    ∃ trees, LeadsToElement true trees ((listed groups).toList ++ front) front ∧
      ∀ tree ∈ trees, ∃ group, groupSchema.decode tree = some group := by
  induction groups with
  | nil => exact ⟨[], rfl, List.forall_mem_nil _⟩
  | cons text groups ih =>
    obtain ⟨⟨members, group, ⟨blanks, hwritten, hblanks⟩, hgroup⟩, hrest⟩ :=
      List.forall_mem_cons.mp hgroups
    obtain ⟨trees, hleads, hright⟩ := ih hrest
    have htext : (listed (text :: groups)).toList ++ front =
        text.toList ++ (',' :: ((listed groups).toList ++ front)) := by
      simp [listed]
    have hcomma : skipBlanks (blanks ++ (',' :: ((listed groups).toList ++ front))) =
        ',' :: ((listed groups).toList ++ front) :=
      skipBlanks_append_of_nil hblanks _
    refine ⟨.object members :: trees, ?_, List.forall_mem_cons.mpr ⟨⟨group, hgroup⟩, hright⟩⟩
    rw [htext]
    exact ⟨_, _, rfl, hwritten.append _, hleads.behind_comma hcomma⟩

/-- A document with accepted groups is right up to what stands behind them. -/
theorem leadsToGroup_documentWith {groups : List String}
    (hgroups : ∀ text ∈ groups, IsAcceptedGroup text) (group : String) :
    LeadsToGroup (documentWith groups group).toList group.toList := by
  obtain ⟨trees, hleads, hright⟩ := leadsToElement_listed hgroups group.toList
  have hdocument : (documentWith groups group).toList =
      '\x7b' :: (groupsKey.characters ++ ':' :: '[' :: ((listed groups).toList ++ group.toList)) := by
    simp only [documentWith, String.toList_append]
    rfl
  have hgroups : LeadsToNextGroup ('[' :: ((listed groups).toList ++ group.toList)) group.toList :=
    ⟨_, trees, rfl, hleads, hright⟩
  have hfirst (inside : List Char) : LeadsToMember true [] inside inside := rfl
  rw [hdocument]
  exact .byName rfl (hfirst _) .nil List.nodup_nil List.not_mem_nil rfl rfl rfl hgroups

end Front

/-! ### What the group is refused for -/

section Groups

variable {names : List String} {name body : String}

/-- A group without a name is refused at its closing brace. -/
theorem groupSchema_read_of_isBodyWith (hbody : IsBodyWith names body) (hname : "groupName" ∉ names)
    (rest : String) :
    groupSchema.read ("\x7b" ++ body ++ "\x7d" ++ rest).toList =
      .error (.missingMember "Group" "groupName") := by
  obtain ⟨members, changes, ⟨blanks, hwritten, -⟩, hright, rfl, hdistinct⟩ := hbody
  rw [Tree.Leads] at hwritten
  obtain ⟨inside, hbrace, hmembers⟩ := hwritten
  have hmissing : (Draft.mk (changed changes (Group.record schemas).initial)
      (changes.map Prod.fst).reverse).missing? ((Group.record schemas).map Schema.read) =
        some "groupName" := by
    have hrequired : ((Group.record schemas).map Schema.read).required = ["groupName"] := rfl
    rw [Draft.missing?, hrequired, List.find?_cons_of_pos]
    rw [decide_eq_true_iff]
    exact mt List.mem_reverse.mp hname
  rw [String.toList_append]
  refine record_eq_error_of_finish (fun member hmember ↦ (isSteady_of_mem_group member hmember).agrees)
    (skipBlanks_append hbrace _) (hmembers.append _) (hright.decodeMembers hdistinct) ?_
  rw [Draft.finish, hmissing]
  rfl

/-- A group that repeats a member is refused at the colon of the second one. -/
theorem groupSchema_read_of_isBodyUpTo (hbody : IsBodyUpTo names name body) (hname : name ∈ names)
    (rest : String) :
    groupSchema.read ("\x7b" ++ body ++ rest).toList = .error (.repeatedMember "Group" name) := by
  obtain ⟨members, changes, front, key, afterKey, hleads, hright, rfl, hdistinct, hkey, hcontent, -⟩ :=
    hbody
  obtain ⟨change, hchange, rfl⟩ := List.mem_map.mp hname
  obtain ⟨member, -, hmember, -⟩ := hright.exists_member hchange
  have hbrace : skipBlanks ("\x7b" ++ body ++ rest).toList = '\x7b' :: (body.toList ++ rest.toList) := by
    simp only [String.toList_append]
    rfl
  refine record_eq_error_of_member (fun member hmember ↦ (isSteady_of_mem_group member hmember).agrees)
    hbrace (hleads.append _) (hright.decodeMembers hdistinct) (skipBlanks_append_literal hkey _)
    hcontent ?_
  exact memberValue_of_present hmember (List.mem_reverse.mpr hname)

end Groups

end Json

/-- A group without a name is refused for that, and one that repeats a member is refused for that,
whichever is reached first. The groups before it are accepted, the members before the end of the object
or before the second occurrence are right, and the rest of the document may be anything. -/
theorem isRefusedFor_group {groups : List String}
    (hgroups : ∀ text ∈ groups, Json.IsAcceptedGroup text) (names : List String) (body rest : String) :
    (Json.IsBodyWith names body → "groupName" ∉ names →
      IsRefusedFor (Json.documentWith groups ("\x7b" ++ body ++ "\x7d" ++ rest)) .json
        (.missingMember "Group" "groupName") "missing field `groupName`") ∧
      ∀ name ∈ names, Json.IsBodyUpTo names name body →
        IsRefusedFor (Json.documentWith groups ("\x7b" ++ body ++ rest)) .json
          (.repeatedMember "Group" name) ("duplicate field `" ++ name ++ "`") := by
  have hbrace (text : String) : Json.skipBlanks ("\x7b" ++ text).toList = '\x7b' :: text.toList := by
    rw [String.toList_append]
    rfl
  refine ⟨fun hbody hname ↦ ?_, fun name hname hbody ↦ ?_⟩
  · have hfails := Json.groupSchema_read_of_isBodyWith hbody hname rest
    have hleads := Json.leadsToGroup_documentWith hgroups ("\x7b" ++ body ++ "\x7d" ++ rest)
    rw [String.append_assoc, String.append_assoc] at hfails hleads ⊢
    exact hleads.isRefusedFor (hbrace _) (by decide) hfails rfl
  · have hfails := Json.groupSchema_read_of_isBodyUpTo hbody hname rest
    have hleads := Json.leadsToGroup_documentWith hgroups ("\x7b" ++ body ++ rest)
    rw [String.append_assoc] at hfails hleads ⊢
    exact hleads.isRefusedFor (hbrace _) (by decide) hfails rfl

namespace Json

/-- The object of a group with a name only. -/
def namedGroup : String := "\x7b\"groupName\":\"items\"\x7d"

theorem namedGroup_isAccepted : IsAcceptedGroup namedGroup := by
  refine ⟨[(groupNameKey, .scalar (.text itemsKey))], { name := "items" }, ?_, by decide⟩
  have htext : namedGroup = String.ofList
      ((Tree.object [(groupNameKey, .scalar (.text itemsKey))]).characters []) := by
    decide +kernel
  exact htext ▸ Tree.isWrittenIn_characters _ rfl

/-- The items of a group, and no name. -/
theorem isBodyWith_items : IsBodyWith ["items"] "\"items\":[]" := by
  refine ⟨[(itemsKey, .list [])], _, ?_, .known rfl rfl rfl .nil, rfl, List.nodup_singleton _⟩
  have htext : "\x7b" ++ "\"items\":[]" ++ "\x7d" =
      String.ofList ((Tree.object [(itemsKey, .list [])]).characters []) := by
    decide +kernel
  exact htext ▸ Tree.isWrittenIn_characters _ rfl

/-- The items of a group, and its items again. -/
theorem isBodyUpTo_items : IsBodyUpTo ["items"] "items" "\"items\":[], \"items\" :" := by
  refine ⟨[(itemsKey, .list [])], _, ' ' :: (itemsKey.characters ++ [' ', ':']), itemsKey, [' ', ':'],
    ?_, .known rfl rfl rfl .nil, rfl, List.nodup_singleton _, rfl, rfl, rfl⟩
  have hcharacters : "\"items\":[], \"items\" :".toList =
      '"' :: 'i' :: 't' :: 'e' :: 'm' :: 's' :: '"' :: ':' :: '[' :: ']' :: ',' :: ' ' ::
        (itemsKey.characters ++ [' ', ':']) := by decide
  rw [hcharacters]
  simp only [LeadsToMember, Tree.Leads, LeadsElements]
  exact ⟨_, _, _, _, rfl, rfl, rfl, ⟨_, rfl, rfl⟩, rfl⟩

end Json

/-- Behind a group with a name one with nothing but items is refused, and so is one that has them
twice, in documents that go on with no JSON. -/
theorem isRefusedFor_group_namedGroup :
    IsRefusedFor (Json.documentWith [Json.namedGroup] ("\x7b" ++ "\"items\":[]" ++ "\x7d" ++ "?")) .json
        (.missingMember "Group" "groupName") "missing field `groupName`" ∧
      IsRefusedFor (Json.documentWith [Json.namedGroup]
          ("\x7b" ++ "\"items\":[], \"items\" :" ++ "?")) .json
        (.repeatedMember "Group" "items") "duplicate field `items`" := by
  have hgroups : ∀ text ∈ [Json.namedGroup], Json.IsAcceptedGroup text :=
    List.forall_mem_singleton.mpr Json.namedGroup_isAccepted
  have hnameless := (isRefusedFor_group hgroups ["items"] "\"items\":[]" "?").1
  have hrepeated := (isRefusedFor_group hgroups ["items"] "\"items\":[], \"items\" :" "?").2
  exact ⟨hnameless Json.isBodyWith_items (by decide),
    hrepeated "items" List.mem_cons_self Json.isBodyUpTo_items⟩

end FrameSorter
