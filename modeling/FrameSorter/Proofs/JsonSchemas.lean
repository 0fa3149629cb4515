import FrameSorter.Proofs.JsonTrees
import FrameSorter.Proofs.WrittenConfiguration

/-!
# Values in JSON trees

Each kind of value that a configuration has is found in a tree in its own way: a text is a literal, a
number has no sign, no fraction and no power of ten, a list has values of one kind as its elements, and a
record is an object or a list (`Schema.decode`). The readers find the same in every text that starts with
the tree, and take nothing from a text that starts with no tree (`Schema.Agrees`).
-/

set_option autoImplicit false
set_option relaxedAutoImplicit false

namespace FrameSorter

section Records

variable {m n : Type → Type} {α : Type}

/-- The member that is read in another way. -/
def Member.map (change : m (α → α) → n (α → α)) (member : Member m α) : Member n α where
  name := member.name
  read := change member.read

/-- The record whose members are read in another way. -/
def Record.map (change : m (α → α) → n (α → α)) (record : Record m α) : Record n α where
  name := record.name
  initial := record.initial
  members := record.members.map (Member.map change)
  required := record.required

/-- Its members have the same names. -/
theorem Record.member?_map (change : m (α → α) → n (α → α)) (record : Record m α) (name : String) :
    (record.map change).member? name = (record.member? name).map (Member.map change) :=
  List.find?_map

/-- The value, if no required member is missing. -/
def Draft.complete? (draft : Draft α) (record : Record m α) : Option α :=
  if record.required ⊆ draft.present then some draft.value else none

section Drafts

variable {draft : Draft α} {record : Record m α} {value : α}

/-- A value is complete if all required members are present. -/
theorem Draft.complete?_eq_some_iff :
    draft.complete? record = some value ↔ record.required ⊆ draft.present ∧ draft.value = value := by
  rw [Draft.complete?, Option.ite_none_right_eq_some, Option.some.injEq]

/-- A draft is finished if its value is complete. -/
theorem Draft.finish_eq_ok_iff :
    draft.finish record = .ok value ↔ draft.complete? record = some value := by
  rw [Draft.complete?_eq_some_iff, Draft.finish, ← Draft.missing?_eq_none_iff]
  cases draft.missing? record <;> simp

/-- So is a draft of members that were given by position. -/
theorem Draft.finishPositional_eq_ok_iff :
    draft.finishPositional record = .ok value ↔ draft.complete? record = some value := by
  rw [Draft.complete?_eq_some_iff, Draft.finishPositional, ← Draft.missing?_eq_none_iff]
  cases draft.missing? record <;> simp

end Drafts

end Records

namespace Json

/-! ### What stands in a tree -/

/-- The text that a tree is. -/
def Tree.text? : Tree → Option String
  | .scalar (.text literal) => literal.content?
  | _ => none

/-- The text that a tree is, or none if it is `null`. -/
def Tree.optionalText? : Tree → Option (Option String)
  | .scalar (.text literal) => literal.content?.map some
  | .scalar (.keyword .null) => some none
  | _ => none

/-- The whole number of 32 bits that a number is: it has digits only. -/
def Numeral.word? (numeral : Numeral) : Option UInt32 :=
  match numeral.isNegative, numeral.fraction, numeral.power with
  | false, none, none =>
    let value := Nat.ofDigitChars 10 numeral.whole.characters 0
    if value < UInt32.size then some value.toUInt32 else none
  | _, _, _ => none

/-- The whole number of 32 bits that a tree is. -/
def Tree.word? : Tree → Option UInt32
  | .scalar (.number numeral) => numeral.word?
  | _ => none

/-- The elements that a tree has, each of them found in the same way. -/
def Tree.list? {α : Type} (element : Tree → Option α) : Tree → Option (List α)
  | .list elements => elements.mapM element
  | _ => none

/-- How a kind of value is read from a text and found in a tree, and the ways in which a tree may change
that presents such a value. -/
structure Schema (α : Type) where
  read : Reader α
  decode : Tree → Option α
  Step : Tree → Tree → Prop

instance : Functor Schema where
  map change schema :=
    { read := change <$> schema.read
      decode := fun tree ↦ (schema.decode tree).map change
      Step := schema.Step }

section Records

variable {α : Type} (record : Record Schema α)

/-- A member with this name. One that the record does not have is left out. -/
def decodeMember (draft : Draft α) (name : String) (tree : Tree) : Option (Draft α) :=
  match record.member? name with
  | none => some draft
  | some member =>
    if name ∈ draft.present then none else (member.read.decode tree).map (draft.set name)

/-- The members of an object. -/
def decodeMembers : List (Literal × Tree) → Draft α → Option (Draft α)
  | [], draft => some draft
  | (key, tree) :: members, draft => do
    let name ← key.content?
    let draft ← decodeMember record draft name tree
    decodeMembers members draft

/-- The members that a list gives by position. -/
def decodePositions : List (Member Schema α) → List Tree → Draft α → Option (Draft α)
  | _, [], draft => some draft
  | [], _ :: _, _ => none
  | member :: members, tree :: trees, draft => do
    let change ← member.read.decode tree
    decodePositions members trees (draft.set member.name change)

/-- The record that a tree is. -/
def Tree.record? : Tree → Option α
  | .list elements => do
    (← decodePositions record.members elements (Draft.start record)).complete? record
  | .object members => do
    (← decodeMembers record members (Draft.start record)).complete? record
  | .scalar _ => none

end Records

/-! ### Readers in sequence -/

section Sequence

variable {α β : Type} {read : Reader α} {s rest : List Char}

/-- One reader after another takes a value if both do. -/
theorem bind_eq_ok_iff {next : α → Reader β} {value : β} :
    (read >>= next) s = .ok (value, rest) ↔
      ∃ taken behind, read s = .ok (taken, behind) ∧ next taken behind = .ok (value, rest) := by
  change Except.bind (read s) _ = _ ↔ _
  cases read s with
  | error fault => simp [Except.bind]
  | ok result =>
    constructor
    · exact fun hnext ↦ ⟨result.1, result.2, rfl, hnext⟩
    · rintro ⟨taken, behind, ⟨⟩, hnext⟩
      exact hnext

/-- A changed value is taken if the value is. -/
theorem map_eq_ok_iff {change : α → β} {value : β} :
    (change <$> read) s = .ok (value, rest) ↔
      ∃ taken, read s = .ok (taken, rest) ∧ change taken = value := by
  have hmap : change <$> read = read >>= fun taken ↦ pure (change taken) := rfl
  rw [hmap, bind_eq_ok_iff]
  constructor
  · rintro ⟨taken, behind, hread, hvalue⟩
    obtain ⟨rfl, rfl⟩ := Prod.mk.inj (Except.ok.inj hvalue)
    exact ⟨taken, hread, rfl⟩
  · rintro ⟨taken, hread, rfl⟩
    exact ⟨taken, rest, hread, rfl⟩

end Sequence

/-! ### Texts and numbers -/

section Scalars

variable {s rest : List Char}

/-- A value of another kind is never taken. -/
theorem mismatch_ne_ok {α : Type} {expected : Expected} {taken : α × List Char} :
    (mismatch s expected : Except Fault (α × List Char)) ≠ .ok taken := by
  unfold mismatch
  split <;> nofun

/-- A text is taken from a literal. -/
theorem text_eq_ok_iff {content : String} :
    text s = .ok (content, rest) ↔
      ∃ inside, skipBlanks s = '"' :: inside ∧ readLiteral inside = .ok (content, rest) := by
  unfold text
  split
  next inside hskip => simp [hskip]
  next hskip =>
    simp only [mismatch_ne_ok, false_iff]
    rintro ⟨inside, hquote, -⟩
    exact hskip inside hquote

/-- A text or none is taken from a literal or from `null`. -/
theorem optionalText_eq_ok_iff {content : Option String} :
    optionalText s = .ok (content, rest) ↔
      (∃ text inside, content = some text ∧ skipBlanks s = '"' :: inside ∧
        readLiteral inside = .ok (text, rest)) ∨
      content = none ∧ skipBlanks s = Keyword.null.characters ++ rest := by
  unfold optionalText
  split
  next behind hskip =>
    cases hword : afterWord? ['u', 'l', 'l'] behind with
    | none =>
      have hnone : ¬ behind = ['u', 'l', 'l'] ++ rest := fun hbehind ↦ by
        rw [afterWord?_eq_some_iff.mpr hbehind] at hword
        cases hword
      simpa [hskip, Keyword.characters] using fun _ ↦ hnone
    | some behind' =>
      rw [afterWord?_eq_some_iff] at hword
      simp [hskip, hword, Keyword.characters, eq_comm]
  next hskip =>
    have hnull : skipBlanks s ≠ Keyword.null.characters ++ rest := hskip _
    cases htext : text (skipBlanks s) with
    | error fault =>
      simp only [Except.map, hnull, and_false, or_false, reduceCtorEq, false_iff]
      rintro ⟨text, inside, -, hquote, hread⟩
      rw [(text_eq_ok_iff).mpr ⟨inside, (skipBlanks_skipBlanks s).trans hquote, hread⟩] at htext
      cases htext
    | ok taken =>
      obtain ⟨found, behind⟩ := taken
      obtain ⟨inside, hquote, hread⟩ := text_eq_ok_iff.mp htext
      rw [skipBlanks_skipBlanks] at hquote
      simp [Except.map, hquote, hread, Keyword.characters, eq_comm]

/-- A whole number of 32 bits has its value. -/
theorem toUInt32_eq_iff {value : Nat} (hvalue : value < UInt32.size) {n : UInt32} :
    value.toUInt32 = n ↔ value = n.toNat := by
  rw [← UInt32.toNat_inj]
  exact Eq.congr_left (UInt32.toNat_ofNat_of_lt' hvalue)

/-- Only digits are an integer. -/
theorem number?_eq_integer_iff {parts : NumberParts} {value : Int} :
    parts.number? = some (.integer value) ↔
      (parts.fraction = [] ∧ parts.power = none ∧
        (if parts.isNegative then
          0 < Nat.ofDigitChars 10 parts.whole 0 ∧ Nat.ofDigitChars 10 parts.whole 0 ≤ Nat.pow 2 63
        else Nat.ofDigitChars 10 parts.whole 0 < UInt64.size)) ∧
      (if parts.isNegative then -(Nat.ofDigitChars 10 parts.whole 0 : Int)
        else Nat.ofDigitChars 10 parts.whole 0) = value := by
  have hfloating : (parts.double?.map fun d ↦ Number.floating (floatingText parts.isNegative d)) ≠
      some (.integer value) := by
    cases parts.double? <;> simp
  rw [NumberParts.number?]
  split_ifs
  all_goals simp_all

/-- It is an integer exactly if it is one of 64 bits, with or without a sign. -/
theorem Numeral.number?_ofInt {n value : Int} :
    (ofInt n).parts.number? = some (.integer value) ↔ (-2 ^ 63 ≤ n ∧ n < 2 ^ 64) ∧ n = value := by
  have hsize : Nat.ofDigitChars 10 (ofInt n).parts.whole 0 = n.natAbs := Nat.ofDigitChars_ten_toDigits
  have hsign : (ofInt n).parts.isNegative = decide (n < 0) := rfl
  have hlimits : Nat.pow 2 63 = 2 ^ 63 ∧ UInt64.size = 2 ^ 64 := ⟨rfl, rfl⟩
  have hothers : (ofInt n).parts.fraction = [] ∧ (ofInt n).parts.power = none := ⟨rfl, rfl⟩
  rw [number?_eq_integer_iff, hsize, hsign, hlimits.1, hlimits.2]
  by_cases hn : n < 0
  · simp only [hothers, hn, decide_true, if_true, true_and]
    omega
  · simp only [hothers, hn, decide_false, Bool.false_eq_true, if_false, true_and]
    omega

/-- A number of digits only has the value of its digits. -/
theorem number?_eq_word_iff (numeral : Numeral) (n : UInt32) :
    numeral.parts.number? = some (.integer n.toNat) ↔ numeral.word? = some n := by
  have hsize : n.toNat < UInt32.size := n.toNat_lt
  obtain ⟨isNegative, whole, fraction, power, hzero⟩ := numeral
  rw [number?_eq_integer_iff]
  cases isNegative with
  | true =>
    refine iff_of_false ?_ (by simp [Numeral.word?])
    rintro ⟨⟨-, -, hpositive⟩, hvalue⟩
    simp only [Numeral.parts, if_true] at hpositive hvalue
    omega
  | false =>
    cases fraction with
    | some digits => simp [Numeral.word?, Numeral.parts, digits.nonempty]
    | none =>
      cases power with
      | some power => simp [Numeral.word?, Numeral.parts]
      | none =>
        have hsizes : UInt32.size < UInt64.size := by decide
        simp only [Numeral.word?, Numeral.parts, Option.map_none, Option.getD_none, true_and,
          Bool.false_eq_true, if_false, Int.natCast_inj, Option.ite_none_right_eq_some,
          Option.some.injEq]
        constructor
        · rintro ⟨-, hvalue⟩
          have hword : Nat.ofDigitChars 10 whole.characters 0 < UInt32.size := hvalue ▸ hsize
          exact ⟨hword, (toUInt32_eq_iff hword).mpr hvalue⟩
        · rintro ⟨hword, hvalue⟩
          exact ⟨hword.trans hsizes, (toUInt32_eq_iff hword).mp hvalue⟩

/-- A whole number is taken from its digits. -/
theorem word_eq_ok_iff {n : UInt32} :
    word s = .ok (n, rest) ↔
      ∃ first more value, skipBlanks s = first :: more ∧ (first = '-' ∨ first.isDigit) ∧
        readNumber (first :: more) = .ok (.integer value, rest) ∧ value = n.toNat := by
  unfold word
  split
  next hskip => simp [hskip]
  next first more hskip =>
    by_cases hfirst : first = '-' ∨ first.isDigit
    · rw [if_pos hfirst]
      split
      next fault hread => simp [hskip, hread]
      next written behind hread => simp [hskip, hread]
      next found behind hread =>
        have hnumber : (∃ c cs value, first :: more = c :: cs ∧ (c = '-' ∨ c.isDigit) ∧
            readNumber (c :: cs) = .ok (.integer value, rest) ∧ value = n.toNat) ↔
              found = n.toNat ∧ behind = rest := by
          constructor
          · rintro ⟨c, cs, value, hc, -, hvalue, rfl⟩
            obtain ⟨rfl, rfl⟩ := List.cons.inj hc
            simpa [hread] using hvalue
          · rintro ⟨rfl, rfl⟩
            exact ⟨first, more, _, rfl, hfirst, hread, rfl⟩
        rw [hskip, hnumber]
        have hsize : n.toNat < UInt32.size := n.toNat_lt
        split_ifs with hrange
        · have hvalue : found = n.toNat ↔ found.toNat = n.toNat := by omega
          rw [hvalue, ← toUInt32_eq_iff (by omega)]
          simp
        · have hvalue : found ≠ n.toNat := by omega
          simp [hvalue]
    · rw [if_neg hfirst]
      simp only [mismatch_ne_ok, false_iff]
      rintro ⟨c, cs, value, hnumber, hc, -⟩
      rw [hskip] at hnumber
      exact hfirst ((List.cons.inj hnumber).1 ▸ hc)

end Scalars

/-! ### The values of a configuration -/

/-- A change in one of the elements of a list. -/
inductive ListStep (Step : Tree → Tree → Prop) : Tree → Tree → Prop
  | element {before after : List Tree} {tree other : Tree} (hstep : Step tree other) :
      ListStep Step (.list (before ++ tree :: after)) (.list (before ++ other :: after))

/-- A change in a record that leaves its value: the members of an object change places, a member comes
in that the record does not have, a member goes out that has its default and is not required, or a
member is changed in turn. -/
inductive RecordStep {α : Type} (record : Record Schema α) : Tree → Tree → Prop
  | permute {members others : List (Literal × Tree)} (hperm : members.Perm others) :
      RecordStep record (.object members) (.object others)
  | insert {before after : List (Literal × Tree)} {key : Literal} {tree : Tree} {name : String}
      (hname : key.content? = some name) (hunknown : record.member? name = none) :
      RecordStep record (.object (before ++ after)) (.object (before ++ (key, tree) :: after))
  | remove {before after : List (Literal × Tree)} {key : Literal} {tree : Tree} {name : String}
      {member : Member Schema α} {change : α → α} (hname : key.content? = some name)
      (hmember : record.member? name = some member) (hoptional : name ∉ record.required)
      (hdecode : member.read.decode tree = some change)
      (hdefault : change record.initial = record.initial) :
      RecordStep record (.object (before ++ (key, tree) :: after)) (.object (before ++ after))
  | member {before after : List (Literal × Tree)} {key : Literal} {tree other : Tree} {name : String}
      {member : Member Schema α} (hname : key.content? = some name)
      (hmember : record.member? name = some member) (hstep : member.read.Step tree other) :
      RecordStep record (.object (before ++ (key, tree) :: after))
        (.object (before ++ (key, other) :: after))
  | position {before after : List Tree} {tree other : Tree} {member : Member Schema α}
      (hmember : record.members[before.length]? = some member)
      (hstep : member.read.Step tree other) :
      RecordStep record (.list (before ++ tree :: after)) (.list (before ++ other :: after))

/-- The values of a configuration in JSON. -/
def schemas : Reading Schema where
  text := { read := text, decode := Tree.text?, Step := fun _ _ ↦ False }
  optionalText :=
    { read := optionalText, decode := Tree.optionalText?, Step := fun _ _ ↦ False }
  word := { read := word, decode := Tree.word?, Step := fun _ _ ↦ False }
  list element :=
    { read := list element.read
      decode := Tree.list? element.decode
      Step := ListStep element.Step }
  record record :=
    { read := Json.record (record.map Schema.read)
      decode := Tree.record? record
      Step := RecordStep record }

/-- The reader takes from a text what the tree in front of it has, and takes something from a text only
if there is a tree in front of it. -/
structure Schema.Agrees {α : Type} (schema : Schema α) : Prop where
  reads : ∀ {tree : Tree} {s rest behind : List Char} {value : α}, tree.Leads s rest →
    EndsNumber rest →
      (schema.read s = .ok (value, behind) ↔ schema.decode tree = some value ∧ behind = rest)
  exists_tree : ∀ {s rest : List Char} {value : α}, schema.read s = .ok (value, rest) →
    ∃ tree : Tree, tree.Leads s rest

section Agreement

variable {α β : Type} {s rest behind : List Char}

/-- A changed value. -/
theorem agrees_map {schema : Schema α} (h : schema.Agrees) (change : α → β) :
    (change <$> schema).Agrees where
  reads {tree s rest behind value} hleads hends := by
    change (change <$> schema.read) s = _ ↔ (schema.decode tree).map change = _ ∧ _
    simp only [map_eq_ok_iff, h.reads hleads hends, Option.map_eq_some_iff]
    constructor
    · rintro ⟨taken, ⟨hdecode, hbehind⟩, hchange⟩
      exact ⟨⟨taken, hdecode, hchange⟩, hbehind⟩
    · rintro ⟨⟨taken, hdecode, hchange⟩, hbehind⟩
      exact ⟨taken, ⟨hdecode, hbehind⟩, hchange⟩
  exists_tree {s rest value} hread := by
    obtain ⟨taken, htaken, -⟩ := map_eq_ok_iff.mp hread
    exact h.exists_tree htaken

namespace Tree.Leads

variable {tree : Tree} {inside more : List Char} {c : Char} (hleads : tree.Leads s rest)
include hleads

/-- The first character behind the blanks is that of the value. -/
theorem startsWith (hfirst : skipBlanks s = c :: more) : tree.StartsWith c := by
  obtain ⟨first, behind, hskip, hstarts⟩ := hleads.exists_cons
  rw [hskip] at hfirst
  exact (List.cons.inj hfirst).1 ▸ hstarts

/-- What starts with a quotation mark is a literal. -/
theorem exists_literal (hquote : skipBlanks s = '"' :: inside) :
    ∃ literal : Literal, tree = .scalar (.text literal) ∧ inside = literal.inside ++ rest := by
  have hstarts := hleads.startsWith hquote
  match tree with
  | .scalar (.keyword word) => cases word <;> cases hstarts
  | .scalar (.number numeral) => exact absurd hstarts (by decide : ¬ ('"' = '-' ∨ '"'.isDigit))
  | .scalar (.text literal) =>
    rw [Tree.Leads, hquote] at hleads
    exact ⟨literal, rfl, (List.cons.inj hleads).2⟩

/-- What starts with a minus sign or a digit is a number. -/
theorem exists_numeral (hnumber : skipBlanks s = c :: more) (hc : c = '-' ∨ c.isDigit) :
    ∃ numeral : Numeral, tree = .scalar (.number numeral) ∧
      c :: more = numeral.characters ++ rest := by
  have hstarts := hleads.startsWith hnumber
  have hmarks : ∀ mark ∈ ['n', 't', 'f', '"', '[', '\x7b'], ¬ (mark = '-' ∨ mark.isDigit) := by
    simp
  match tree with
  | .scalar (.number numeral) =>
    rw [Tree.Leads, hnumber] at hleads
    exact ⟨numeral, rfl, hleads⟩
  | .scalar (.keyword word) =>
    refine absurd hc (hmarks c ?_)
    cases word <;> (obtain rfl := Option.some.inj hstarts; decide)
  | .scalar (.text _) | .list _ | .object _ =>
    refine absurd hc (hmarks c ?_)
    obtain rfl : c = _ := hstarts
    decide

/-- What starts with `null` is nothing else. -/
theorem eq_null (hnull : skipBlanks s = Keyword.null.characters ++ more) :
    tree = .scalar (.keyword .null) ∧ more = rest := by
  have hstarts := hleads.startsWith hnull
  match tree with
  | .scalar (.keyword .null) =>
    rw [Tree.Leads, hnull] at hleads
    exact ⟨rfl, List.append_cancel_left hleads⟩
  | .scalar (.number numeral) => exact absurd hstarts (by decide : ¬ ('n' = '-' ∨ 'n'.isDigit))

/-- What starts with a bracket is a list. -/
theorem exists_elements (hopen : skipBlanks s = '[' :: inside) :
    ∃ trees, tree = .list trees ∧ LeadsElements true trees inside rest := by
  have hstarts := hleads.startsWith hopen
  match tree with
  | .scalar value => exact absurd (by simp) (Scalar.StartsWith.notMem hstarts)
  | .list trees =>
    rw [Tree.Leads] at hleads
    obtain ⟨inside', hopen', helements⟩ := hleads
    rw [hopen] at hopen'
    exact ⟨trees, rfl, (List.cons.inj hopen').2 ▸ helements⟩

/-- What starts with a brace is an object. -/
theorem exists_members (hopen : skipBlanks s = '\x7b' :: inside) :
    ∃ members, tree = .object members ∧ LeadsMembers true members inside rest := by
  have hstarts := hleads.startsWith hopen
  match tree with
  | .scalar value => exact absurd (by simp) (Scalar.StartsWith.notMem hstarts)
  | .object members =>
    rw [Tree.Leads] at hleads
    obtain ⟨inside', hopen', hmembers⟩ := hleads
    rw [hopen] at hopen'
    exact ⟨members, rfl, (List.cons.inj hopen').2 ▸ hmembers⟩

end Tree.Leads

/-- Texts. -/
theorem agrees_text : schemas.text.Agrees where
  reads {tree s rest behind value} hleads _ := by
    change text s = _ ↔ tree.text? = _ ∧ _
    rw [text_eq_ok_iff]
    constructor
    · rintro ⟨inside, hquote, hread⟩
      obtain ⟨literal, rfl, rfl⟩ := hleads.exists_literal hquote
      exact (readLiteral_iff literal).mp hread
    · rintro ⟨hcontent, rfl⟩
      match tree with
      | .scalar (.text literal) =>
        rw [Tree.Leads] at hleads
        exact ⟨literal.inside ++ behind, hleads, (readLiteral_iff literal).mpr ⟨hcontent, rfl⟩⟩
  exists_tree {s rest value} hread := by
    obtain ⟨inside, hquote, hliteral⟩ := text_eq_ok_iff.mp hread
    obtain ⟨literal, rfl⟩ := exists_literal_of_read hliteral
    exact ⟨.scalar (.text literal), by rwa [Tree.Leads]⟩

/-- Texts that may be `null`. -/
theorem agrees_optionalText : schemas.optionalText.Agrees where
  reads {tree s rest behind value} hleads _ := by
    change optionalText s = _ ↔ tree.optionalText? = _ ∧ _
    rw [optionalText_eq_ok_iff]
    constructor
    · rintro (⟨content, inside, rfl, hquote, hread⟩ | ⟨rfl, hnull⟩)
      · obtain ⟨literal, rfl, rfl⟩ := hleads.exists_literal hquote
        obtain ⟨hcontent, hbehind⟩ := (readLiteral_iff literal).mp hread
        exact ⟨by rw [Tree.optionalText?, hcontent, Option.map_some], hbehind⟩
      · obtain ⟨rfl, hbehind⟩ := hleads.eq_null hnull
        exact ⟨rfl, hbehind⟩
    · rintro ⟨hcontent, rfl⟩
      match tree with
      | .scalar (.text literal) =>
        obtain ⟨content, hliteral, rfl⟩ := Option.map_eq_some_iff.mp hcontent
        rw [Tree.Leads] at hleads
        exact Or.inl ⟨content, literal.inside ++ behind, rfl, hleads,
          (readLiteral_iff literal).mpr ⟨hliteral, rfl⟩⟩
      | .scalar (.keyword .null) =>
        rw [Tree.Leads] at hleads
        exact Or.inr ⟨(Option.some.inj hcontent).symm, hleads⟩
  exists_tree {s rest value} hread := by
    rcases optionalText_eq_ok_iff.mp hread with ⟨content, inside, -, hquote, hliteral⟩ | ⟨-, hnull⟩
    · obtain ⟨literal, rfl⟩ := exists_literal_of_read hliteral
      exact ⟨.scalar (.text literal), by rwa [Tree.Leads]⟩
    · exact ⟨.scalar (.keyword .null), by rwa [Tree.Leads]⟩

/-- A number is read as its parts say. -/
theorem readNumber_characters (numeral : Numeral) (hends : EndsNumber rest) {number : Number} :
    readNumber (numeral.characters ++ rest) = .ok (number, behind) ↔
      numeral.parts.number? = some number ∧ behind = rest := by
  simp only [readNumber, ofText?_characters numeral hends]
  cases numeral.parts.number? <;> simp [eq_comm]

/-- Only numbers are read as such. -/
theorem exists_numeral_of_read {number : Number} (hread : readNumber s = .ok (number, rest)) :
    ∃ numeral : Numeral, s = numeral.characters ++ rest := by
  unfold readNumber at hread
  split at hread
  next => cases hread
  next parts behind hparts =>
    split at hread
    next => cases hread
    next found hvalue =>
      obtain ⟨-, rfl⟩ := Prod.mk.inj (Except.ok.inj hread)
      exact exists_numeral hparts

/-- Whole numbers of 32 bits. -/
theorem agrees_word : schemas.word.Agrees where
  reads {tree s rest behind value} hleads hends := by
    change word s = _ ↔ tree.word? = _ ∧ _
    rw [word_eq_ok_iff]
    constructor
    · rintro ⟨first, more, n, hnumber, hfirst, hread, rfl⟩
      obtain ⟨numeral, rfl, htext⟩ := hleads.exists_numeral hnumber hfirst
      rw [htext, readNumber_characters numeral hends] at hread
      exact ⟨(number?_eq_word_iff numeral value).mp hread.1, hread.2⟩
    · rintro ⟨hword, rfl⟩
      match tree with
      | .scalar (.number numeral) =>
        rw [Tree.Leads] at hleads
        obtain ⟨first, more, hnumeral, hfirst⟩ := numeral.exists_cons
        have hread := (readNumber_characters numeral hends).mpr
          ⟨(number?_eq_word_iff numeral value).mpr hword, rfl⟩
        simp only [Scalar.characters, hnumeral, List.cons_append] at hleads hread
        exact ⟨first, more ++ behind, _, hleads, hfirst, hread, rfl⟩
  exists_tree {s rest value} hread := by
    obtain ⟨first, more, n, hnumber, hfirst, hinteger, rfl⟩ := word_eq_ok_iff.mp hread
    obtain ⟨numeral, htext⟩ := exists_numeral_of_read hinteger
    exact ⟨.scalar (.number numeral), by rw [Tree.Leads, hnumber, htext]; rfl⟩

end Agreement

end Json

end FrameSorter
