import FrameSorter.Proofs.Presentation

/-!
# The first complaint

A document is read from left to right, and the first thing that is wrong with it ends the reading. So
what comes before a fault has to be right, and what comes behind it does not matter. A text can be right
up to an element of a list (`LeadsToElement`) or up to a member of an object (`LeadsToMember`): then the
fault of the reader that takes this part is the fault of the list (`list_eq_error`) or of the record
(`record_eq_error_of_member`). A record has faults of its own, too, which come up where its members end
(`record_eq_error_of_finish`, `record_eq_error_of_finishPositional`). For groups this comes to
`LeadsToGroup.isRefusedFor`: a document that is right up to a group has the fault of this group.
-/

set_option autoImplicit false
set_option relaxedAutoImplicit false

namespace FrameSorter

namespace Json

/-! ### Texts that go on -/

section Append

variable {isFirst : Bool} {s rest : List Char}

/-- Blanks are skipped up to the first part of a text, whatever stands behind it. -/
theorem skipBlanks_append {c : Char} (hskip : skipBlanks s = c :: rest) (more : List Char) :
    skipBlanks (s ++ more) = c :: (rest ++ more) := by
  have hskip' : s.dropWhile isBlank = c :: rest := hskip
  rw [skipBlanks, List.dropWhile_append, hskip', List.isEmpty_cons]
  rfl

/-- A comma is where it was. -/
theorem LeadsComma.append (hcomma : LeadsComma isFirst s rest) (more : List Char) :
    LeadsComma isFirst (s ++ more) (rest ++ more) := by
  cases isFirst with
  | true => exact congrArg (· ++ more) hcomma
  | false => exact skipBlanks_append hcomma more

/-- A literal is where it was. -/
theorem skipBlanks_append_literal {key : Literal} (hkey : skipBlanks s = key.characters ++ rest)
    (more : List Char) : skipBlanks (s ++ more) = key.characters ++ (rest ++ more) :=
  (skipBlanks_append hkey more).trans (congrArg _ (List.append_assoc _ _ _))

mutual

/-- A text that starts with a value starts with it when it goes on. -/
theorem Tree.Leads.append {tree : Tree} {s rest : List Char} (hleads : tree.Leads s rest)
    (more : List Char) : tree.Leads (s ++ more) (rest ++ more) := by
  match tree with
  | .scalar scalar =>
    rw [Tree.Leads] at hleads ⊢
    obtain ⟨first, behind, hscalar, -⟩ := scalar.exists_cons
    rw [hscalar] at hleads ⊢
    exact (skipBlanks_append hleads more).trans (congrArg _ (List.append_assoc _ _ _))
  | .list trees =>
    rw [Tree.Leads] at hleads ⊢
    obtain ⟨inside, hopen, htrees⟩ := hleads
    exact ⟨inside ++ more, skipBlanks_append hopen more, htrees.append more⟩
  | .object members =>
    rw [Tree.Leads] at hleads ⊢
    obtain ⟨inside, hopen, hmembers⟩ := hleads
    exact ⟨inside ++ more, skipBlanks_append hopen more, hmembers.append more⟩

/-- So does one that starts with the elements of a list. -/
theorem LeadsElements.append {trees : List Tree} {isFirst : Bool} {s rest : List Char}
    (hleads : LeadsElements isFirst trees s rest) (more : List Char) :
    LeadsElements isFirst trees (s ++ more) (rest ++ more) := by
  match trees with
  | [] =>
    rw [LeadsElements] at hleads ⊢
    exact skipBlanks_append hleads more
  | tree :: trees =>
    rw [LeadsElements] at hleads ⊢
    obtain ⟨front, behind, hcomma, htree, htrees⟩ := hleads
    exact ⟨front ++ more, behind ++ more, hcomma.append more, htree.append more, htrees.append more⟩

/-- So does one that starts with the members of an object. -/
theorem LeadsMembers.append {members : List (Literal × Tree)} {isFirst : Bool} {s rest : List Char}
    (hleads : LeadsMembers isFirst members s rest) (more : List Char) :
    LeadsMembers isFirst members (s ++ more) (rest ++ more) := by
  match members with
  | [] =>
    rw [LeadsMembers] at hleads ⊢
    exact skipBlanks_append hleads more
  | (key, tree) :: members =>
    rw [LeadsMembers] at hleads ⊢
    obtain ⟨front, afterKey, value, behind, hcomma, hkey, hcolon, htree, hmembers⟩ := hleads
    exact ⟨front ++ more, afterKey ++ more, value ++ more, behind ++ more, hcomma.append more,
      skipBlanks_append_literal hkey more, skipBlanks_append hcolon more, htree.append more,
      hmembers.append more⟩

end

end Append

/-! ### Up to an element -/

/-- The text starts with elements of a list, and here stands the next one. -/
def LeadsToElement (isFirst : Bool) : List Tree → List Char → List Char → Prop
  | [], s, front => LeadsComma isFirst s front
  | tree :: trees, s, front =>
    ∃ start behind, LeadsComma isFirst s start ∧ tree.Leads start behind ∧
      LeadsToElement false trees behind front

section Elements

variable {α : Type} {schema : Schema α} {isFirst : Bool} {s front : List Char} {trees : List Tree}
  {fault : Fault}

/-- A number ends in front of the comma before the next element. -/
theorem LeadsToElement.endsNumber (hleads : LeadsToElement false trees s front) : EndsNumber s := by
  cases trees with
  | nil => exact endsNumber_of_skipBlanks hleads (by decide)
  | cons tree trees =>
    obtain ⟨start, behind, hcomma, -⟩ := hleads
    exact endsNumber_of_skipBlanks hcomma (by decide)

/-- Elements are characters of the text. -/
theorem LeadsToElement.length_le (hleads : LeadsToElement isFirst trees s front) :
    trees.length ≤ s.length := by
  induction trees generalizing isFirst s with
  | nil => exact Nat.zero_le _
  | cons tree trees ih =>
    obtain ⟨start, behind, hcomma, htree, htrees⟩ := hleads
    have hstart := hcomma.length_le
    have htreeLength := htree.length_lt htrees.endsNumber
    have htreesLength := ih htrees
    rw [List.length_cons]
    omega

/-- In front of a character that does not close the list the reader finds an element. -/
theorem hasElement_of_leadsComma {first : Char} {more : List Char}
    (hcomma : LeadsComma isFirst s front) (hfirst : skipBlanks front = first :: more)
    (hopen : first ≠ ']') : hasElement isFirst s = .ok (true, skipBlanks front) :=
  hasElement_eq_true_iff.mpr ⟨front, first, more, hcomma, hfirst, hopen, hfirst⟩

/-- Elements that are right up to one that fails have its fault. -/
theorem elements_eq_error (h : schema.Agrees) {steps : Nat} {first : Char} {more : List Char}
    (hleads : LeadsToElement isFirst trees s front)
    (hright : ∀ tree ∈ trees, ∃ value, schema.decode tree = some value)
    (hfirst : skipBlanks front = first :: more) (hopen : first ≠ ']')
    (hfails : schema.read (skipBlanks front) = .error fault) (hsteps : trees.length < steps) :
    elements schema.read steps isFirst s = .error fault := by
  induction trees generalizing isFirst s steps with
  | nil =>
    obtain ⟨steps, rfl⟩ := Nat.exists_eq_add_one.mpr hsteps
    rw [elements, bind_of_ok (hasElement_of_leadsComma hleads hfirst hopen), if_pos rfl]
    exact bind_of_error hfails _
  | cons tree trees ih =>
    obtain ⟨steps, rfl⟩ := Nat.exists_eq_add_one.mpr ((Nat.zero_le _).trans_lt hsteps)
    obtain ⟨start, behind, hcomma, htree, htrees⟩ := hleads
    obtain ⟨⟨value, hvalue⟩, hrest⟩ := List.forall_mem_cons.mp hright
    have hread := (h.reads (Tree.leads_skipBlanks.mpr htree) htrees.endsNumber).mpr ⟨hvalue, rfl⟩
    rw [elements, bind_of_ok (hasElement_of_leads hcomma htree), if_pos rfl, bind_of_ok hread]
    exact bind_of_error (ih htrees hrest (Nat.lt_of_succ_lt_succ hsteps)) _

/-- A list that is right up to an element that fails has its fault. -/
theorem list_eq_error (h : schema.Agrees) {inside more : List Char} {first : Char}
    (hbracket : skipBlanks s = '[' :: inside) (hleads : LeadsToElement true trees inside front)
    (hright : ∀ tree ∈ trees, ∃ value, schema.decode tree = some value)
    (hfirst : skipBlanks front = first :: more) (hopen : first ≠ ']')
    (hfails : schema.read (skipBlanks front) = .error fault) :
    list schema.read s = .error fault := by
  have hsteps := Nat.lt_succ_of_le hleads.length_le
  rw [list, hbracket]
  exact bind_of_error (elements_eq_error h hleads hright hfirst hopen hfails hsteps) _

end Elements

/-! ### Up to a member -/

/-- The text starts with members of an object, and here stands the key of the next one. -/
def LeadsToMember (isFirst : Bool) : List (Literal × Tree) → List Char → List Char → Prop
  | [], s, front => LeadsComma isFirst s front
  | (key, tree) :: members, s, front =>
    ∃ start afterKey value behind, LeadsComma isFirst s start ∧
      skipBlanks start = key.characters ++ afterKey ∧ skipBlanks afterKey = ':' :: value ∧
      tree.Leads value behind ∧ LeadsToMember false members behind front

section Members

variable {α : Type} {record : Record Schema α} {isFirst : Bool} {s inside front afterKey : List Char}
  {trees : List (Literal × Tree)} {key : Literal} {name : String} {draft final : Draft α}
  {fault : Fault}

/-- A number ends in front of the comma before the next member. -/
theorem LeadsToMember.endsNumber (hleads : LeadsToMember false trees s front) : EndsNumber s := by
  cases trees with
  | nil => exact endsNumber_of_skipBlanks hleads (by decide)
  | cons member trees =>
    obtain ⟨start, afterKey, value, behind, hcomma, -⟩ := hleads
    exact endsNumber_of_skipBlanks hcomma (by decide)

/-- Members are characters of the text. -/
theorem LeadsToMember.length_le (hleads : LeadsToMember isFirst trees s front) :
    trees.length ≤ s.length := by
  induction trees generalizing isFirst s with
  | nil => exact Nat.zero_le _
  | cons member trees ih =>
    obtain ⟨start, afterKey, value, behind, hcomma, hkey, hcolon, htree, htrees⟩ := hleads
    have hstart := hcomma.length_le
    have hkeyLength := length_le_of_skipBlanks hkey
    have hcolonLength := length_lt_of_skipBlanks hcolon
    have htreeLength := htree.length_lt htrees.endsNumber
    have htreesLength := ih htrees
    rw [List.length_cons]
    omega

/-- Members are found in a text that goes on. -/
theorem LeadsToMember.append (hleads : LeadsToMember isFirst trees s front) (more : List Char) :
    LeadsToMember isFirst trees (s ++ more) (front ++ more) := by
  induction trees generalizing isFirst s with
  | nil => exact LeadsComma.append hleads more
  | cons member trees ih =>
    obtain ⟨start, afterKey, value, behind, hcomma, hkey, hcolon, htree, htrees⟩ := hleads
    exact ⟨start ++ more, afterKey ++ more, value ++ more, behind ++ more, hcomma.append more,
      skipBlanks_append_literal hkey more, skipBlanks_append hcolon more, htree.append more, ih htrees⟩

/-- What a draft has taken when members were right. -/
theorem StandsFor.decodeMembers {changes : List (String × (α → α))}
    (hright : StandsFor record trees changes) (hdistinct : (changes.map Prod.fst).Nodup) :
    decodeMembers record trees (Draft.start record) =
      some ⟨changed changes record.initial, (changes.map Prod.fst).reverse⟩ := by
  have hstart : (Draft.start record).present.Nodup := List.nodup_nil
  refine (decodeMembers_eq_some_iff hstart).mpr ⟨changes, hright, ?_, ?_⟩
  · rwa [Draft.start, List.append_nil, List.nodup_reverse]
  · rw [Draft.start, List.append_nil]

variable (h : ∀ member ∈ record.members, member.read.Agrees)
include h

/-- Members that are right up to one that fails have its fault. -/
theorem members_eq_error {steps : Nat} (hleads : LeadsToMember isFirst trees s front)
    (hright : decodeMembers record trees draft = some final)
    (hkey : skipBlanks front = key.characters ++ afterKey) (hname : key.content? = some name)
    (hfails : memberValue (record.map Schema.read) final name afterKey = .error fault)
    (hsteps : trees.length < steps) :
    members (record.map Schema.read) steps isFirst draft s = .error fault := by
  induction trees generalizing isFirst s steps draft with
  | nil =>
    obtain ⟨steps, rfl⟩ := Nat.exists_eq_add_one.mpr hsteps
    obtain rfl := Option.some.inj hright
    have hnext := (nextKey_of_leads hleads hkey).mpr ⟨hname, rfl⟩
    rw [members, bind_of_ok hnext]
    exact bind_of_error hfails _
  | cons member trees ih =>
    obtain ⟨key', tree⟩ := member
    obtain ⟨steps, rfl⟩ := Nat.exists_eq_add_one.mpr ((Nat.zero_le _).trans_lt hsteps)
    obtain ⟨start, afterKey', value, behind, hcomma, hkey', hcolon, htree, htrees⟩ := hleads
    obtain ⟨name', hname', hright⟩ := Option.bind_eq_some_iff.mp hright
    obtain ⟨draft', hdecode, hright⟩ := Option.bind_eq_some_iff.mp hright
    have hnext := (nextKey_of_leads hcomma hkey').mpr ⟨hname', rfl⟩
    have hvalue := (reads_memberValue h hcolon htree htrees.endsNumber).mpr ⟨hdecode, rfl⟩
    rw [members, bind_of_ok hnext]
    refine (bind_of_ok hvalue _).trans ?_
    exact ih htrees hright (Nat.lt_of_succ_lt_succ hsteps)

omit h in
/-- A member that is not present yet has the fault of its value. -/
theorem memberValue_eq_error {member : Member Schema α} {value : List Char}
    (hmember : record.member? name = some member) (hnew : name ∉ draft.present)
    (hcolon : skipBlanks s = ':' :: value) (hfails : member.read.read value = .error fault) :
    memberValue (record.map Schema.read) draft name s = .error fault := by
  rw [memberValue, Record.member?_map, hmember]
  simp only [Option.map_some, hnew, if_false]
  rw [bind_of_ok (colon_eq_ok_iff.mpr hcolon)]
  exact bind_of_error hfails _

omit h in
/-- A member that is present already is repeated, whatever its value is. -/
theorem memberValue_of_present {member : Member Schema α}
    (hmember : record.member? name = some member) (hpresent : name ∈ draft.present) :
    memberValue (record.map Schema.read) draft name s =
      .error (.repeatedMember record.name name) := by
  rw [memberValue, Record.member?_map, hmember]
  simp only [Option.map_some, hpresent, if_true]
  rfl

/-- A record that is right up to a member that fails has its fault. -/
theorem record_eq_error_of_member (hbrace : skipBlanks s = '\x7b' :: inside)
    (hleads : LeadsToMember true trees inside front)
    (hright : decodeMembers record trees (Draft.start record) = some final)
    (hkey : skipBlanks front = key.characters ++ afterKey) (hname : key.content? = some name)
    (hfails : memberValue (record.map Schema.read) final name afterKey = .error fault) :
    Json.record (record.map Schema.read) s = .error fault := by
  have hsteps := Nat.lt_succ_of_le hleads.length_le
  rw [Json.record, hbrace]
  exact bind_of_error (members_eq_error h hleads hright hkey hname hfails hsteps) _

/-- A record whose members are right, but not all that it needs, has the fault that is found at its
end. -/
theorem record_eq_error_of_finish {rest : List Char} (hbrace : skipBlanks s = '\x7b' :: inside)
    (hleads : LeadsMembers true trees inside rest)
    (hright : decodeMembers record trees (Draft.start record) = some final)
    (hfinish : final.finish (record.map Schema.read) = .error fault) :
    Json.record (record.map Schema.read) s = .error fault := by
  have hsteps := hleads.length_lt.trans (Nat.lt_succ_self _)
  obtain ⟨last, hread, -⟩ := (reads_members h hleads hsteps).mpr ⟨hright, rfl⟩
  rw [Json.record, hbrace]
  refine (bind_of_ok hread _).trans ?_
  rw [hfinish]
  rfl

end Members

/-! ### By position -/

section Positions

variable {α : Type} {record : Record Schema α} {s inside : List Char} {fault : Fault}

/-- Blanks in front of a record do not matter. -/
theorem record_skipBlanks (record : Record Reader α) (s : List Char) :
    Json.record record (skipBlanks s) = Json.record record s := by
  simp only [Json.record, skipBlanks_skipBlanks]

/-- A record that is a list has the fault of its first member. -/
theorem record_eq_error_of_first {member : Member Schema α} {members : List (Member Schema α)}
    {more : List Char} {first : Char} (hrecord : record.members = member :: members)
    (hbracket : skipBlanks s = '[' :: inside) (hfirst : skipBlanks inside = first :: more)
    (hopen : first ≠ ']') (hfails : member.read.read (skipBlanks inside) = .error fault) :
    Json.record (record.map Schema.read) s = .error fault := by
  have hmore : hasElement true inside = .ok (true, skipBlanks inside) :=
    hasElement_of_leadsComma rfl hfirst hopen
  have hmembers : (record.map Schema.read).members =
      member.map Schema.read :: members.map (Member.map Schema.read) := by
    rw [Record.map, hrecord, List.map_cons]
  rw [Json.record, hbracket]
  refine bind_of_error ?_ _
  rw [hmembers, positions, bind_of_ok hmore, if_pos rfl]
  exact bind_of_error hfails _

/-- A record that is a list of right members, but of too few, has the fault that is found at its
end. -/
theorem record_eq_error_of_finishPositional {trees : List Tree} {final : Draft α} {rest : List Char}
    (h : ∀ member ∈ record.members, member.read.Agrees) (hbracket : skipBlanks s = '[' :: inside)
    (hleads : LeadsElements true trees inside rest)
    (hright : decodePositions record.members trees (Draft.start record) = some final)
    (hfinish : final.finishPositional (record.map Schema.read) = .error fault) :
    Json.record (record.map Schema.read) s = .error fault := by
  obtain ⟨last, hread, -⟩ := (reads_positions h hleads).mpr ⟨hright, rfl⟩
  rw [Json.record, hbracket]
  refine (bind_of_ok hread _).trans ?_
  rw [hfinish]
  rfl

end Positions

/-! ### Up to a group -/

/-- How a group is read. -/
def groupSchema : Schema Group :=
  schemas.record (Group.record schemas)

/-- A list of groups is right up to here, where the next one stands. -/
def LeadsToNextGroup (s front : List Char) : Prop :=
  ∃ inside trees, skipBlanks s = '[' :: inside ∧ LeadsToElement true trees inside front ∧
    ∀ tree ∈ trees, ∃ group, groupSchema.decode tree = some group

/-- A document is right up to here, where a group stands. The groups are the member of an object with
this name, behind other members, or the first element of a list. -/
inductive LeadsToGroup (s front : List Char) : Prop
  | byName {inside keyFront afterKey groups : List Char} {members : List (Literal × Tree)}
      {changes : List (String × (Configuration → Configuration))} {key : Literal}
      (hbrace : skipBlanks s = '\x7b' :: inside) (hleads : LeadsToMember true members inside keyFront)
      (hright : StandsFor (Configuration.record schemas) members changes)
      (hdistinct : (changes.map Prod.fst).Nodup) (hnew : "groups" ∉ changes.map Prod.fst)
      (hkey : skipBlanks keyFront = key.characters ++ afterKey) (hname : key.content? = some "groups")
      (hcolon : skipBlanks afterKey = ':' :: groups) (hgroups : LeadsToNextGroup groups front)
  | byPosition {inside : List Char} (hbracket : skipBlanks s = '[' :: inside)
      (hgroups : LeadsToNextGroup inside front)

section Groups

variable {s front more : List Char} {first : Char} {fault : Fault}

/-- A list of groups has the fault of the first that fails. -/
theorem LeadsToNextGroup.list_eq_error (hleads : LeadsToNextGroup s front)
    (hfirst : skipBlanks front = first :: more) (hopen : first ≠ ']')
    (hfails : groupSchema.read front = .error fault) : list groupSchema.read s = .error fault := by
  obtain ⟨inside, trees, hbracket, helements, hright⟩ := hleads
  have hskipped : groupSchema.read (skipBlanks front) = .error fault :=
    (record_skipBlanks _ front).trans hfails
  exact Json.list_eq_error isSteady_group.agrees hbracket helements hright hfirst hopen hskipped

/-- A configuration has the fault of the first group that fails. -/
theorem LeadsToGroup.record_eq_error (hleads : LeadsToGroup s front)
    (hfirst : skipBlanks front = first :: more) (hopen : first ≠ ']')
    (hfails : groupSchema.read front = .error fault) :
    Json.record (Configuration.record reading) s = .error fault := by
  change Json.record ((Configuration.record schemas).map Schema.read) s = .error fault
  have hmembers : ∀ member ∈ (Configuration.record schemas).members, member.read.Agrees :=
    fun member hmember ↦ (isSteady_of_mem_configuration member hmember).agrees
  cases hleads with
  | @byName inside keyFront afterKey groups members changes key hbrace hleads hright hdistinct hnew
      hkey hname hcolon hgroups =>
    have hread := hgroups.list_eq_error hfirst hopen hfails
    refine record_eq_error_of_member hmembers hbrace hleads (hright.decodeMembers hdistinct) hkey
      hname ?_
    exact memberValue_eq_error rfl (mt List.mem_reverse.mp hnew) hcolon (map_of_error hread _)
  | @byPosition inside hbracket hgroups =>
    obtain ⟨groups, trees, hlist, helements⟩ := hgroups
    have hskipped : LeadsToNextGroup (skipBlanks inside) front :=
      ⟨groups, trees, (skipBlanks_skipBlanks inside).trans hlist, helements⟩
    have hread := hskipped.list_eq_error hfirst hopen hfails
    exact record_eq_error_of_first rfl hbracket hlist (by decide) (map_of_error hread _)

end Groups

end Json

/-- A document in some format is no configuration, because of this fault, which is worded like this. -/
def IsRefusedFor (document : String) (format : Format) (fault : Fault) (reason : String) : Prop :=
  (∀ file, parseConfig document format file = .error (.parse file format fault)) ∧
    fault.reason format = some reason

/-- A document that a reader finds fault with is no configuration. -/
theorem parseConfig_of_fault {document : String} {format : Format} {fault : Fault}
    (hread : readConfiguration format document = .error fault) (file : Path) :
    parseConfig document format file = .error (.parse file format fault) := by
  rw [parseConfig, hread]

/-- A fault of the reader is why a document is no configuration. -/
theorem isRefusedFor_of_read {document : String} {format : Format} {fault : Fault} {reason : String}
    (hread : readConfiguration format document = .error fault)
    (hreason : fault.reason format = some reason) : IsRefusedFor document format fault reason :=
  ⟨parseConfig_of_fault hread, hreason⟩

/-- A document that is right up to a group has the fault of this group, whatever stands behind it. -/
theorem Json.LeadsToGroup.isRefusedFor {document : String} {front more : List Char} {first : Char}
    {fault : Fault} {reason : String} (hleads : LeadsToGroup document.toList front)
    (hfirst : skipBlanks front = first :: more) (hopen : first ≠ ']')
    (hfails : groupSchema.read front = .error fault) (hreason : fault.reason .json = some reason) :
    IsRefusedFor document .json fault reason := by
  refine isRefusedFor_of_read ?_ hreason
  change Json.readConfiguration document = .error fault
  rw [Json.readConfiguration, hleads.record_eq_error hfirst hopen hfails]

end FrameSorter
