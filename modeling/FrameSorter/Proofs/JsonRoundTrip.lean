import FrameSorter.Loading
import FrameSorter.Proofs.JsonTokens
import FrameSorter.Proofs.WrittenConfiguration

/-!
# Configurations written in JSON

JSON writes a configuration as one object with all its members (`Json.writing`). A reader takes a value
from the tokens that were written for it, whatever blanks stand between them and whatever follows the
value (`Json.Reads`): texts and numbers from one token, lists and records from their parts
(`Json.reads_list`, `Json.reads_record`). So JSON reads back what it writes (`Json.readsBack`), and every
configuration is loaded from each text that spells it (`parseConfig_of_spells`).
-/

set_option autoImplicit false
set_option relaxedAutoImplicit false

namespace FrameSorter

namespace Json

/-! ### Writing -/

/-- A member of an object: its name, a colon and its value. -/
def memberTokens (member : String × List Token) : List Token :=
  .text member.1 :: .mark .colon :: member.2

/-- How JSON writes the values of a configuration: a record is an object, and an absent text is null. -/
def writing : Writing (List Token) where
  text content := [.text content]
  optionalText
    | some content => [.text content]
    | none => [.null]
  word n := [.number n.toNat]
  list elements :=
    .mark .openList :: ([.mark .comma].intercalate elements ++ [.mark .closeList])
  record _ members :=
    .mark .openObject ::
      ([.mark .comma].intercalate (members.map memberTokens) ++ [.mark .closeObject])

/-- The parts of a list or an object, with a comma in front of all or of all but the first. -/
def separated (isFirst : Bool) : List (List Token) → List Token
  | [] => []
  | part :: parts => (if isFirst then [] else [.mark .comma]) ++ part ++ separated false parts

/-- The parts with commas between them. -/
theorem intercalate_eq_separated (parts : List (List Token)) :
    [.mark .comma].intercalate parts = separated true parts := by
  induction parts with
  | nil => rfl
  | cons part parts ih =>
    cases parts with
    | nil => simp [separated]
    | cons next parts =>
      rw [List.intercalate_cons_cons, ih]
      simp [separated]

/-- Every part but the first has a comma. -/
theorem length_le_length_separated (isFirst : Bool) (parts : List (List Token)) :
    parts.length ≤ (separated isFirst parts).length + 1 := by
  have hcommas (parts : List (List Token)) : parts.length ≤ (separated false parts).length := by
    induction parts with
    | nil => exact Nat.zero_le _
    | cons part parts ih =>
      simp only [separated, List.length_append, List.length_cons, Bool.false_eq_true, if_false]
      omega
  cases parts with
  | nil => exact Nat.zero_le _
  | cons part parts =>
    have hparts := hcommas parts
    simp only [separated, List.length_append, List.length_cons]
    omega

/-! ### Reading -/

/-- The tokens that may stand behind a value: none, a comma, or the end of what holds the value. -/
def EndsValue (following : List Token) : Prop :=
  ∀ token ∈ following.head?,
    token = .mark .comma ∨ token = .mark .closeList ∨ token = .mark .closeObject

/-- A reader takes a value from the tokens in front of any text. The first of them does not close a
list. -/
structure Reads {α : Type} (read : Reader α) (tokens : List Token) (value : α) : Prop where
  starts : ∃ first more, tokens = first :: more ∧ first ≠ .mark .closeList
  reads : ∀ {following : List Token} {s : List Char}, EndsValue following →
    Spells (tokens ++ following) s → ∃ rest, Spells following rest ∧ read s = .ok (value, rest)

/-- A changed value is read from the same tokens. -/
theorem Reads.map {α β : Type} {read : Reader α} {tokens : List Token} {value : α}
    (hread : Reads read tokens value) (change : α → β) :
    Reads (change <$> read) tokens (change value) where
  starts := hread.starts
  reads hends hspells := by
    obtain ⟨rest, hrest, hvalue⟩ := hread.reads hends hspells
    exact ⟨rest, hrest, map_of_ok hvalue change⟩

variable {following : List Token} {s : List Char}

/-- What stands behind a part of a list or an object ends it. -/
theorem endsValue_separated (parts : List (List Token)) {sign : Mark}
    (hsign : sign = .closeList ∨ sign = .closeObject) (following : List Token) :
    EndsValue (separated false parts ++ .mark sign :: following) := by
  cases parts with
  | nil =>
    rintro token ⟨⟩
    rcases hsign with rfl | rfl
    · exact Or.inr (Or.inl rfl)
    · exact Or.inr (Or.inr rfl)
  | cons part parts =>
    rintro token ⟨⟩
    exact Or.inl rfl

/-- Behind a value no number goes on. -/
theorem EndsValue.not_continuesNumber (hends : EndsValue following) (h : Spells following s) :
    ∀ c ∈ s.head?, ¬ continuesNumber c := by
  have hblank {c : Char} (hc : isBlank c) : ¬ continuesNumber c := by
    simp only [isBlank, Bool.or_eq_true, beq_iff_eq] at hc
    rcases hc with ((rfl | rfl) | rfl) | rfl <;> decide
  cases h with
  | nil hgap => exact fun c hc ↦ hblank (hgap c (List.mem_of_mem_head? hc))
  | @cons gap token tokens text hgap htext =>
    intro c hc
    cases gap with
    | nil =>
      rcases hends token rfl with rfl | rfl | rfl
      all_goals
        obtain rfl := Option.some.inj hc
        decide
    | cons d gap =>
      obtain rfl := Option.some.inj hc
      exact hblank (hgap d List.mem_cons_self)

/-! ### Texts and numbers -/

/-- A text is read from its literal. -/
theorem reads_text (content : String) : Reads text [.text content] content where
  starts := ⟨_, [], rfl, by simp⟩
  reads _ hspells := by
    obtain ⟨rest, hrest, hskip⟩ := hspells.skipBlanks_eq
    obtain ⟨behind, hquote, hread⟩ := readLiteral_append content rest
    refine ⟨rest, hrest, ?_⟩
    rw [text, hskip, Token.characters, hquote]
    exact hread

/-- A text that is present is read from its literal, and an absent one from `null`. -/
theorem reads_optionalText (content : Option String) :
    Reads optionalText (writing.optionalText content) content := by
  cases content with
  | none =>
    refine ⟨⟨_, [], rfl, by simp⟩, fun _ hspells ↦ ?_⟩
    obtain ⟨rest, hrest, hskip⟩ := hspells.skipBlanks_eq
    refine ⟨rest, hrest, ?_⟩
    rw [optionalText, hskip]
    rfl
  | some content =>
    refine ⟨⟨_, [], rfl, by simp⟩, fun _ hspells ↦ ?_⟩
    obtain ⟨rest, hrest, hskip⟩ := hspells.skipBlanks_eq
    obtain ⟨behind, hquote, hread⟩ := readLiteral_append content rest
    have htext : text ('"' :: behind) = .ok (content, rest) := hread
    refine ⟨rest, hrest, ?_⟩
    rw [optionalText, hskip, Token.characters, hquote]
    change Except.map _ (text ('"' :: behind)) = _
    rw [htext]
    rfl

/-- A number is read from its digits. -/
theorem reads_word (n : UInt32) : Reads word [.number n.toNat] n where
  starts := ⟨_, [], rfl, by simp⟩
  reads hends hspells := by
    obtain ⟨rest, hrest, hskip⟩ := hspells.skipBlanks_eq
    have hsize : n.toNat < UInt64.size := by
      have := n.toNat_lt
      simp only [UInt64.size]
      omega
    have hread := readNumber_append hsize (hends.not_continuesNumber hrest)
    obtain ⟨first, digits, hdigits, -⟩ := toDigits_eq_cons n.toNat
    have hdigit : first.isDigit := isDigit_of_mem_toDigits (hdigits ▸ List.mem_cons_self)
    refine ⟨rest, hrest, ?_⟩
    rw [word, hskip, Token.characters]
    rw [hdigits, List.cons_append] at hread ⊢
    simp [hdigit, hread, n.toNat_lt]

/-! ### Lists -/

/-- In front of its closing bracket a list has no further element. -/
theorem hasElement_close (isFirst : Bool) (h : Spells (.mark .closeList :: following) s) :
    ∃ rest, Spells (.mark .closeList :: following) rest ∧
      hasElement isFirst s = .ok (false, rest) := by
  obtain ⟨rest, hrest, hskip⟩ := h.skipBlanks_mark
  refine ⟨']' :: rest, hrest.cons_append (.mark .closeList), ?_⟩
  rw [hasElement, hskip]
  rfl

/-- In front of another token, behind a comma unless it is the first, a list has one. -/
theorem hasElement_next {isFirst : Bool} {first : Token} {more : List Token}
    (hfirst : first ≠ .mark .closeList)
    (h : Spells ((if isFirst then [] else [.mark .comma]) ++ first :: more) s) :
    ∃ rest, Spells (first :: more) rest ∧ hasElement isFirst s = .ok (true, rest) := by
  obtain ⟨c, cs, hcharacters, -, hclose⟩ := first.characters_eq_cons
  have hbracket : c ≠ ']' := fun hc ↦ hfirst (hclose hc)
  cases isFirst with
  | true =>
    have hfront : Spells (first :: more) s := h
    obtain ⟨rest, hrest, hskip⟩ := hfront.skipBlanks_eq
    refine ⟨first.characters ++ rest, hrest.cons_append first, ?_⟩
    rw [hasElement, hskip, hcharacters]
    simp
  | false =>
    have hcomma : Spells (.mark .comma :: first :: more) s := h
    obtain ⟨rest, hrest, hskip⟩ := hcomma.skipBlanks_mark
    obtain ⟨behind, hbehind, hnext⟩ := hrest.skipBlanks_eq
    refine ⟨first.characters ++ behind, hbehind.cons_append first, ?_⟩
    rw [hasElement, hskip]
    simp [Mark.character, hnext, hcharacters, hbracket]

/-- The elements of a list are read one after another. -/
theorem elements_of_reads {α : Type} {element : Reader α} {forms : List (List Token)}
    {values : List α} (hforms : List.Forall₂ (Reads element) forms values) {isFirst : Bool}
    {steps : Nat} (hsteps : forms.length < steps)
    (h : Spells (separated isFirst forms ++ .mark .closeList :: following) s) :
    ∃ rest, Spells (.mark .closeList :: following) rest ∧
      elements element steps isFirst s = .ok (values, rest) := by
  induction hforms generalizing isFirst steps s with
  | nil =>
    obtain ⟨steps, rfl⟩ := Nat.exists_eq_add_one.mpr hsteps
    obtain ⟨rest, hrest, hhas⟩ := hasElement_close isFirst h
    refine ⟨rest, hrest, ?_⟩
    rw [elements, bind_of_ok hhas]
    rfl
  | @cons form value forms values hform hforms ih =>
    obtain ⟨steps, rfl⟩ := Nat.exists_eq_add_one.mpr (Nat.zero_lt_of_lt hsteps)
    obtain ⟨first, more, rfl, hfirst⟩ := hform.starts
    rw [separated, List.append_assoc, List.append_assoc] at h
    obtain ⟨front, hfront, hhas⟩ := hasElement_next hfirst h
    obtain ⟨behind, hbehind, hread⟩ :=
      hform.reads (endsValue_separated forms (Or.inl rfl) following) hfront
    obtain ⟨rest, hrest, htail⟩ := ih (Nat.lt_of_succ_lt_succ hsteps) hbehind
    refine ⟨rest, hrest, ?_⟩
    rw [elements, bind_of_ok hhas, if_pos rfl, bind_of_ok hread, bind_of_ok htail]
    rfl

/-- A list is read from its elements in brackets. -/
theorem reads_list {α : Type} {element : Reader α} {forms : List (List Token)} {values : List α}
    (hforms : List.Forall₂ (Reads element) forms values) :
    Reads (list element) (writing.list forms) values where
  starts := ⟨_, _, rfl, by simp⟩
  reads {following s} _ hspells := by
    have htokens : writing.list forms ++ following =
        .mark .openList :: (separated true forms ++ .mark .closeList :: following) := by
      simp [writing, intercalate_eq_separated]
    rw [htokens] at hspells
    obtain ⟨front, hfront, hskip⟩ := hspells.skipBlanks_mark
    have hsteps : forms.length < front.length + 1 := by
      have htokens := hfront.length_le
      have hforms := length_le_length_separated true forms
      simp only [List.length_append, List.length_cons] at htokens
      omega
    obtain ⟨behind, hbehind, helements⟩ := elements_of_reads hforms hsteps hfront
    obtain ⟨rest, hrest, hclose⟩ := hbehind.skipBlanks_mark
    have hclosed : closeList behind = .ok ((), rest) := by
      rw [closeList, hclose]
      rfl
    refine ⟨rest, hrest, ?_⟩
    rw [list, hskip]
    simp only [Mark.character]
    rw [bind_of_ok helements, bind_of_ok hclosed]
    rfl

/-! ### Records -/

/-- In front of its closing brace an object has no further member. -/
theorem nextKey_close (isFirst : Bool) (h : Spells (.mark .closeObject :: following) s) :
    ∃ rest, Spells (.mark .closeObject :: following) rest ∧ nextKey isFirst s = .ok (none, rest) := by
  obtain ⟨rest, hrest, hskip⟩ := h.skipBlanks_mark
  refine ⟨'\x7d' :: rest, hrest.cons_append (.mark .closeObject), ?_⟩
  rw [nextKey, hskip]
  rfl

/-- The literal in front of the first member is its key. -/
theorem nextKey_literal {key : String} {rest : List Char}
    (hskip : skipBlanks s = (literal key).toList ++ rest) : nextKey true s = .ok (some key, rest) := by
  obtain ⟨behind, hquote, hread⟩ := readLiteral_append key rest
  rw [nextKey, hskip, hquote]
  change Except.map _ (readLiteral behind) = _
  rw [hread]
  rfl

/-- A literal, behind a comma unless it is the first, is the key of the next member. -/
theorem nextKey_next {isFirst : Bool} {key : String} {more : List Token}
    (h : Spells ((if isFirst then [] else [.mark .comma]) ++ .text key :: more) s) :
    ∃ rest, Spells more rest ∧ nextKey isFirst s = .ok (some key, rest) := by
  cases isFirst with
  | true =>
    have hfront : Spells (.text key :: more) s := h
    obtain ⟨rest, hrest, hskip⟩ := hfront.skipBlanks_eq
    exact ⟨rest, hrest, nextKey_literal hskip⟩
  | false =>
    have hfirst : Spells (.mark .comma :: .text key :: more) s := h
    obtain ⟨front, hfront, hcomma⟩ := hfirst.skipBlanks_mark
    obtain ⟨rest, hrest, hskip⟩ := hfront.skipBlanks_eq
    obtain ⟨behind, hquote, hread⟩ := readLiteral_append key rest
    refine ⟨rest, hrest, ?_⟩
    rw [nextKey, hcomma]
    simp only [Mark.character, Bool.false_eq_true, if_false]
    rw [hskip, Token.characters, hquote]
    change Except.map _ (readLiteral behind) = _
    rw [hread]
    rfl

variable {α : Type} {record : Record Reader α}

/-- A known member that is not present yet comes to what stands behind its colon. -/
theorem memberValue_of_colon {member : Member Reader α} {draft : Draft α} {name : String}
    {front : List Char} (hmember : record.member? name = some member) (hnew : name ∉ draft.present)
    (hcolon : skipBlanks s = ':' :: front) :
    memberValue record draft name s = (draft.set name <$> member.read) front := by
  have hread : colon s = .ok ((), front) := by
    rw [colon, hcolon]
    rfl
  rw [memberValue, hmember]
  simp only [hnew, if_false]
  rw [bind_of_ok hread]
  rfl

/-- It is read if its value is. -/
theorem memberValue_of_reads {member : Member Reader α} {draft : Draft α} {form : List Token}
    {change : α → α} (hmember : record.member? member.name = some member)
    (hnew : member.name ∉ draft.present) (hread : Reads member.read form change)
    (hends : EndsValue following) (h : Spells (.mark .colon :: (form ++ following)) s) :
    ∃ rest, Spells following rest ∧
      memberValue record draft member.name s = .ok (draft.set member.name change, rest) := by
  obtain ⟨front, hfront, hskip⟩ := h.skipBlanks_mark
  obtain ⟨rest, hrest, hvalue⟩ := hread.reads hends hfront
  exact ⟨rest, hrest, (memberValue_of_colon hmember hnew hskip).trans (map_of_ok hvalue _)⟩

/-- The members of an object are read one after another. -/
theorem members_of_reads (hnames : (record.members.map Member.name).Nodup)
    {todo : List (Member Reader α)} {forms : List (String × List Token)} {change : α → α}
    (hforms : MembersRead (fun read form value ↦ Reads read form value) todo forms change)
    {done : List (Member Reader α)} (hrecord : record.members = done ++ todo) {draft : Draft α}
    (hpresent : draft.present = (done.map Member.name).reverse) {isFirst : Bool} {steps : Nat}
    (hsteps : forms.length < steps)
    (h : Spells (separated isFirst (forms.map memberTokens) ++ .mark .closeObject :: following) s) :
    ∃ rest, Spells (.mark .closeObject :: following) rest ∧
      members record steps isFirst draft s =
        .ok (⟨change draft.value, (record.members.map Member.name).reverse⟩, rest) := by
  induction hforms generalizing done draft isFirst steps s with
  | nil =>
    obtain ⟨steps, rfl⟩ := Nat.exists_eq_add_one.mpr hsteps
    obtain ⟨rest, hrest, hkey⟩ := nextKey_close isFirst h
    refine ⟨rest, hrest, ?_⟩
    rw [members, bind_of_ok hkey, hrecord, List.append_nil, ← hpresent]
    rfl
  | @cons member todo form forms change changes hform hforms ih =>
    obtain ⟨steps, rfl⟩ := Nat.exists_eq_add_one.mpr (Nat.zero_lt_of_lt hsteps)
    rw [List.map_cons, separated, memberTokens, List.append_assoc, List.append_assoc] at h
    obtain ⟨front, hfront, hkey⟩ := nextKey_next h
    obtain ⟨behind, hbehind, hvalue⟩ :=
      memberValue_of_reads (Record.member?_eq_some hnames hrecord)
        (Draft.notMem_present hnames hrecord hpresent) hform
        (endsValue_separated _ (Or.inr rfl) following) hfront
    have hmore : record.members = (done ++ [member]) ++ todo := by
      rw [hrecord, List.append_assoc, List.singleton_append]
    have hset : (draft.set member.name change).present =
        ((done ++ [member]).map Member.name).reverse := by
      simp [Draft.set, hpresent]
    obtain ⟨rest, hrest, hmembers⟩ := ih hmore hset (Nat.lt_of_succ_lt_succ hsteps) hbehind
    refine ⟨rest, hrest, ?_⟩
    rw [members, bind_of_ok hkey]
    exact (bind_of_ok hvalue _).trans hmembers

/-- A record is read from an object with all its members. -/
theorem reads_record (hnames : record.IsWellNamed) {forms : List (String × List Token)}
    {change : α → α}
    (hforms : MembersRead (fun read form value ↦ Reads read form value) record.members forms change) :
    Reads (Json.record record) (writing.record record.name forms) (change record.initial) where
  starts := ⟨_, _, rfl, by simp⟩
  reads {following s} _ hspells := by
    have htokens : writing.record record.name forms ++ following =
        .mark .openObject ::
          (separated true (forms.map memberTokens) ++ .mark .closeObject :: following) := by
      simp [writing, intercalate_eq_separated]
    rw [htokens] at hspells
    obtain ⟨front, hfront, hskip⟩ := hspells.skipBlanks_mark
    have hsteps : forms.length < front.length + 1 := by
      have htokens := hfront.length_le
      have hforms := length_le_length_separated true (forms.map memberTokens)
      simp only [List.length_append, List.length_cons, List.length_map] at htokens hforms
      omega
    have hstart : (Draft.start record).present =
        (([] : List (Member Reader α)).map Member.name).reverse := rfl
    obtain ⟨behind, hbehind, hmembers⟩ :=
      members_of_reads hnames.nodup hforms (List.nil_append _).symm hstart hsteps hfront
    obtain ⟨rest, hrest, hclose⟩ := hbehind.skipBlanks_mark
    have hclosed : closeObject behind = .ok ((), rest) := by
      rw [closeObject, hclose]
      rfl
    refine ⟨rest, hrest, ?_⟩
    rw [Json.record, hskip]
    simp only [Mark.character]
    rw [bind_of_ok hmembers, Draft.finish_eq_ok hnames.required_subset, bind_of_ok (liftM_of_ok _ behind),
      bind_of_ok hclosed]
    rfl

/-! ### Configurations -/

/-- JSON reads back what it writes, at any depth. -/
theorem readsBack : ReadsBack reading writing fun _ ⦃_⦄ read form value ↦ Reads read form value where
  map change hread := hread.map change
  text _ := reads_text
  optionalText _ := reads_optionalText
  word _ := reads_word
  list := reads_list
  record _ _ _ hnames hforms := reads_record hnames hforms

/-- A text that spells nothing but a configuration is read as that. -/
theorem readConfiguration_of_reads {config : Configuration} {tokens : List Token} {text : String}
    (hreads : Reads (Json.record (Configuration.record reading)) tokens config)
    (h : Spells tokens text.toList) : readConfiguration text = .ok config := by
  rw [← List.append_nil tokens] at h
  obtain ⟨rest, hrest, hread⟩ := hreads.reads (by simp [EndsValue]) h
  rw [readConfiguration, hread]
  simp [hrest.skipBlanks_nil]

/-- A configuration is read from every text that spells it. -/
theorem readConfiguration_of_spells {config : Configuration} {text : String}
    (h : Spells (config.written writing) text.toList) : readConfiguration text = .ok config :=
  readConfiguration_of_reads (readsBack.configuration 0 config) h

/-- The text of a configuration without blanks. -/
def compactText (config : Configuration) : String :=
  String.ofList ((config.written writing).flatMap Token.characters)

/-- That text spells the configuration. -/
theorem spells_compactText (config : Configuration) :
    Spells (config.written writing) (compactText config).toList := by
  rw [compactText, String.toList_ofList]
  exact spells_compact _

end Json

/-- A configuration that is written in JSON is read back, whatever blanks stand between the tokens and
whatever the file is called. -/
theorem parseConfig_of_spells (config : Configuration) (file : Path) {text : String}
    (htext : Json.Spells (config.written Json.writing) text.toList) :
    parseConfig text .json file = .ok config := by
  rw [parseConfig, readConfiguration, Json.readConfiguration_of_spells htext]

/-- A configuration with characters that have to be escaped. -/
def escapedShelf : Configuration where
  groups :=
    [{ name := "Ores \"\\\n\x01 é", items := ["minecraft:coal", ""], fallback := some "null" }]
  finalFallback := some "kill @s\t"
  pack := { packNamespace := "depot", packFormat := 4294967295, searchRadius := 0 }

/-- It is read back from its text without blanks. -/
theorem parseConfig_compactText_escapedShelf :
    Json.Spells (escapedShelf.written Json.writing) (Json.compactText escapedShelf).toList ∧
      parseConfig (Json.compactText escapedShelf) .json ⟨"sorter.json"⟩ = .ok escapedShelf :=
  ⟨Json.spells_compactText escapedShelf,
    parseConfig_of_spells escapedShelf ⟨"sorter.json"⟩ (Json.spells_compactText escapedShelf)⟩

example : (escapedShelf.groups.flatMap (Group.written Json.writing)).flatMap Json.Token.characters =
    "\x7b\"groupName\":\"Ores \\\"\\\\\\n\\u0001 é\",\"items\":[\"minecraft:coal\",\"\"],".toList ++
      "\"itemFrame\":null,\"fallback\":\"null\"\x7d".toList := by
  cbv

end FrameSorter
