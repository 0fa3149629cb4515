import FrameSorter.Proofs.QuotedTexts
import FrameSorter.Proofs.Scanning

/-!
# Data in compounds

The game writes the data of an entity as a compound of named values. A value is a text in quotation marks
of one of two kinds or a compound again (`Snbt.Tag`), and `Snbt.value` reads one from the front of a text,
down to a bounded depth. What is written of a value is read back in front of any rest (`IsReadAs`): a
quoted text is (`isReadAs_quote`), and so is a compound if its members are (`isReadAs_compound`). Hence
what is written of two values differs, and neither is the beginning of the other
(`IsReadAs.append_inj`).
-/

set_option autoImplicit false
set_option relaxedAutoImplicit false

namespace FrameSorter.Snbt

/-! ### The reader -/

/-- A value: a text, or a compound of values under their names. -/
inductive Tag
  | text (content : String)
  | compound (members : List (String × Tag))

/-- Takes something from the front of a text and leaves the rest. -/
abbrev Reader (α : Type) := List Char → Option (α × List Char)

/-- The characters of a name that needs no quotation marks. -/
def isNameCharacter (c : Char) : Bool :=
  c.isAlphanum || c == '_' || c == '-' || c == '.' || c == '+'

/-- A name and the colon behind it. -/
def name : Reader String := fun s ↦
  match s.takeWhile isNameCharacter, s.dropWhile isNameCharacter with
  | c :: more, ':' :: rest => some (String.ofList (c :: more), rest)
  | _, _ => none

/-- A value under its name. -/
def member (value : Reader Tag) : Reader (String × Tag) := fun s ↦ do
  let (key, rest) ← name s
  let (tag, rest) ← value rest
  return ((key, tag), rest)

/-- The members of a compound, each behind a comma, up to its closing brace. Every member takes a
character. -/
def commaMembers (value : Reader Tag) : (steps : Nat) → Reader (List (String × Tag))
  | 0, _ => none
  | _ + 1, '\x7d' :: rest => some ([], rest)
  | steps + 1, ',' :: rest => do
    let (first, rest) ← member value rest
    let (others, rest) ← commaMembers value steps rest
    return (first :: others, rest)
  | _ + 1, _ => none

/-- The members of a compound behind its opening brace: the first one needs no comma. -/
def members (value : Reader Tag) : Reader (List (String × Tag)) := fun s ↦
  match s with
  | '\x7d' :: rest => some ([], rest)
  | s => commaMembers value (s.length + 1) (',' :: s)

/-- A value that is not nested deeper than `depth`. -/
def value : (depth : Nat) → Reader Tag
  | 0, _ => none
  | depth + 1, '\x7b' :: rest =>
    (members (value depth) rest).map fun (tags, rest) ↦ (.compound tags, rest)
  | _ + 1, c :: rest =>
    if c = '"' ∨ c = '\'' then
      (Quoted.scan c rest).map fun (content, rest) ↦ (.text (String.ofList content), rest)
    else none
  | _ + 1, [] => none

/-- The value that a text is. Each level of nesting takes a character. -/
def ofText? (text : String) : Option Tag :=
  match value text.toList.length text.toList with
  | some (tag, []) => some tag
  | _ => none

/-! ### What is read back -/

/-- A text that is read as a value whatever follows it. -/
def IsReadAs (depth : Nat) (text : List Char) (tag : Tag) : Prop :=
  ∀ rest, value depth (text ++ rest) = some (tag, rest)

/-- A name that needs no quotation marks. -/
def IsName (key : String) : Prop :=
  key ≠ "" ∧ ∀ c ∈ key.toList, isNameCharacter c

instance : DecidablePred IsName :=
  fun key ↦ decidable_of_iff (key ≠ "" ∧ key.toList.all isNameCharacter)
    (by rw [IsName, List.all_eq_true])

variable {depth : Nat}

/-- No text that is read as a value is the beginning of one that is read as another value. -/
theorem IsReadAs.append_inj {text text' rest rest' : List Char} {tag tag' : Tag}
    (htext : IsReadAs depth text tag) (htext' : IsReadAs depth text' tag')
    (hsame : text ++ rest = text' ++ rest') : tag = tag' ∧ rest = rest' := by
  have hread := htext rest
  rw [hsame, htext' rest', Option.some.injEq, Prod.mk.injEq] at hread
  exact ⟨hread.1.symm, hread.2.symm⟩

/-- A whole text that is read as a value is that value. -/
theorem IsReadAs.ofText?_eq {text : String} {tag : Tag}
    (htext : IsReadAs text.toList.length text.toList tag) : ofText? text = some tag := by
  have hread := htext []
  rw [List.append_nil] at hread
  rw [ofText?, hread]

/-- A quoted text is read as the text. -/
theorem isReadAs_quote {delimiter : Char} (hdelimiter : delimiter = '"' ∨ delimiter = '\'')
    (content : String) :
    IsReadAs (depth + 1) (Quoted.quote content delimiter).toList (.text content) := by
  intro rest
  have hbackslash : delimiter ≠ '\\' := by
    rcases hdelimiter with rfl | rfl <;> decide
  have hbrace : delimiter ≠ '\x7b' := by
    rcases hdelimiter with rfl | rfl <;> decide
  rw [Quoted.toList_quote_append, value, if_pos hdelimiter, Quoted.scan_escape hbackslash]
  · simp
  · exact hbrace

/-- A name is read up to its colon. -/
theorem name_append {key : String} (hkey : IsName key) (rest : List Char) :
    name (key.toList ++ ':' :: rest) = some (key, rest) := by
  have hcolon : ∀ c ∈ (':' :: rest).head?, ¬ isNameCharacter c := by
    rintro c ⟨⟩
    decide
  obtain ⟨first, more, hfirst⟩ :=
    List.exists_cons_of_ne_nil fun hempty ↦ hkey.1 (String.toList_eq_nil_iff.mp hempty)
  have hread : some (String.ofList (first :: more), rest) = some (key, rest) := by
    rw [← hfirst, String.ofList_toList]
  rw [name, takeWhile_append_of_head hkey.2 hcolon, dropWhile_append_of_head hkey.2 hcolon]
  simp only [hfirst, hread]

/-- A text that lists members, each behind a comma. -/
inductive ListsMembers (value : Reader Tag) : List (String × Tag) → List Char → Prop
  | nil : ListsMembers value [] []
  | cons {key : String} {tag : Tag} {others : List (String × Tag)} {text more : List Char}
      (hkey : IsName key) (htext : ∀ rest, value (text ++ rest) = some (tag, rest))
      (hmore : ListsMembers value others more) :
      ListsMembers value ((key, tag) :: others) (',' :: (key.toList ++ ':' :: (text ++ more)))

/-- Listed members are read up to the closing brace. -/
theorem commaMembers_append {value : Reader Tag} {tags : List (String × Tag)} {text : List Char}
    (htext : ListsMembers value tags text) {steps : Nat} (hsteps : tags.length < steps)
    (rest : List Char) :
    commaMembers value steps (text ++ '\x7d' :: rest) = some (tags, rest) := by
  induction htext generalizing steps with
  | nil =>
    obtain ⟨more, rfl⟩ := Nat.exists_eq_add_of_lt hsteps
    rfl
  | @cons key tag others text more hkey htext hmore ih =>
    obtain ⟨spare, rfl⟩ := Nat.exists_eq_add_of_lt hsteps
    have hfirst : member value (key.toList ++ ':' :: (text ++ (more ++ '\x7d' :: rest))) =
        some ((key, tag), more ++ '\x7d' :: rest) := by
      simp [member, name_append hkey, htext]
    have hothers : commaMembers value (others.length + 1 + spare) (more ++ '\x7d' :: rest) =
        some (others, rest) :=
      ih (by omega)
    simp [commaMembers, hfirst, hothers]

/-- A list has a character for each of its members. -/
theorem ListsMembers.length_le {value : Reader Tag} {tags : List (String × Tag)} {text : List Char}
    (htext : ListsMembers value tags text) : tags.length ≤ text.length := by
  induction htext with
  | nil => exact Nat.le_refl 0
  | cons hkey htext hmore ih =>
    simp only [List.length_cons, List.length_append]
    omega

/-- Behind its first comma a list starts with a name, and so with no brace. -/
theorem ListsMembers.exists_cons {value : Reader Tag} {tags : List (String × Tag)} {text : List Char}
    (htext : ListsMembers value tags (',' :: text)) :
    ∃ first more, text = first :: more ∧ first ≠ '\x7d' := by
  cases htext with
  | @cons key tag others text more hkey htext hmore =>
    obtain ⟨first, characters, hfirst⟩ :=
      List.exists_cons_of_ne_nil fun hempty ↦ hkey.1 (String.toList_eq_nil_iff.mp hempty)
    have hname : isNameCharacter first := hkey.2 first (hfirst ▸ List.mem_cons_self)
    refine ⟨first, _, by rw [hfirst, List.cons_append], ?_⟩
    rintro rfl
    exact absurd hname (by decide)

/-- A compound is read if its members are. -/
theorem isReadAs_compound {tags : List (String × Tag)} {text : List Char}
    (htext : ListsMembers (value depth) tags (',' :: text)) :
    IsReadAs (depth + 1) ('\x7b' :: (text ++ ['\x7d'])) (.compound tags) := by
  intro rest
  have hsteps : tags.length < (text ++ '\x7d' :: rest).length + 1 := by
    have hlength := htext.length_le
    simp only [List.length_cons, List.length_append] at hlength ⊢
    omega
  have hlist : commaMembers (value depth) ((text ++ '\x7d' :: rest).length + 1)
      (',' :: (text ++ '\x7d' :: rest)) = some (tags, rest) :=
    commaMembers_append htext hsteps rest
  -- Without a member the brace would end the compound before any comma is looked for.
  have hread : members (value depth) (text ++ '\x7d' :: rest) = some (tags, rest) := by
    obtain ⟨first, more, rfl, hfirst⟩ := htext.exists_cons
    rw [List.cons_append] at hlist ⊢
    rw [members, hlist]
    rintro _ ⟨⟩
    exact hfirst rfl
  simp [value, hread]

/-- A compound with one member is read if the member is. -/
theorem isReadAs_singleton {key : String} {text : List Char} {tag : Tag} (hkey : IsName key)
    (htext : IsReadAs depth text tag) :
    IsReadAs (depth + 1) ('\x7b' :: (key.toList ++ ':' :: (text ++ ['\x7d'])))
      (.compound [(key, tag)]) := by
  have hlist := isReadAs_compound (.cons hkey htext .nil)
  rwa [List.append_nil, List.append_assoc, List.cons_append] at hlist

end FrameSorter.Snbt
