import FrameSorter.Json.Literal
import FrameSorter.Json.Reader
import FrameSorter.Proofs.Scanning

/-!
# The tokens of a JSON document

A JSON document is a list of tokens: the marks between values, literals, whole numbers and `null`
(`Token`). Blanks may stand around them, so many texts spell the same tokens (`Spells`); without any
blanks it is one (`spells_compact`). Behind the blanks a text goes on with its first token
(`Spells.skipBlanks_eq`). What a literal says is read back from it, whatever characters it has
(`readLiteral_append`), and so is a whole number of 64 bits, unless the text goes on with something that
could be part of the number (`readNumber_append`).
-/

set_option autoImplicit false
set_option relaxedAutoImplicit false

namespace FrameSorter.Json

/-! ### Tokens and their texts -/

/-- What stands between the values of a document. -/
inductive Mark
  | openList
  | closeList
  | openObject
  | closeObject
  | comma
  | colon
  deriving DecidableEq, Repr

/-- The character of a mark. -/
def Mark.character : Mark → Char
  | .openList => '['
  | .closeList => ']'
  | .openObject => '\x7b'
  | .closeObject => '\x7d'
  | .comma => ','
  | .colon => ':'

/-- A part of a document that blanks may surround but not divide. -/
inductive Token
  | mark (sign : Mark)
  | text (content : String)
  | number (n : Nat)
  | null
  deriving DecidableEq, Repr

/-- How a token is written. -/
def Token.characters : Token → List Char
  | .mark sign => [sign.character]
  | .text content => (literal content).toList
  | .number n => Nat.toDigits 10 n
  | .null => ['n', 'u', 'l', 'l']

/-- A text that consists of these tokens, with blanks or none around each of them. -/
inductive Spells : List Token → List Char → Prop
  | nil {gap : List Char} (hgap : ∀ c ∈ gap, isBlank c) : Spells [] gap
  | cons {gap : List Char} {token : Token} {tokens : List Token} {text : List Char}
      (hgap : ∀ c ∈ gap, isBlank c) (htext : Spells tokens text) :
      Spells (token :: tokens) (gap ++ (token.characters ++ text))

/-- The tokens without blanks. -/
theorem spells_compact (tokens : List Token) : Spells tokens (tokens.flatMap Token.characters) := by
  induction tokens with
  | nil => exact .nil (List.forall_mem_nil _)
  | cons token tokens ih => exact @Spells.cons [] token tokens _ (List.forall_mem_nil _) ih

/-- Every token starts with a character that is no blank, and only one of them closes a list. -/
theorem Token.characters_eq_cons (token : Token) :
    ∃ first more, token.characters = first :: more ∧ ¬ isBlank first ∧
      (first = ']' → token = .mark .closeList) := by
  cases token with
  | mark sign => exact ⟨sign.character, [], rfl, by cases sign <;> decide, by cases sign <;> decide⟩
  | text content =>
    refine ⟨'"', content.toList.flatMap escapeCharacter ++ ['"'], ?_, by decide,
      fun hclose ↦ absurd hclose (by decide)⟩
    rw [characters, literal, String.toList_ofList]
  | number n =>
    obtain ⟨first, digits, hdigits, -⟩ := toDigits_eq_cons n
    have hdigit : first.isDigit := isDigit_of_mem_toDigits (hdigits ▸ List.mem_cons_self)
    refine ⟨first, digits, hdigits, fun hblank ↦ ?_, fun hclose ↦ ?_⟩
    · simp only [isBlank, Bool.or_eq_true, beq_iff_eq] at hblank
      rcases hblank with ((rfl | rfl) | rfl) | rfl <;> exact absurd hdigit (by decide)
    · exact absurd (hclose ▸ hdigit) (by decide)
  | null => exact ⟨'n', ['u', 'l', 'l'], rfl, by decide, by decide⟩

section Spells

variable {token : Token} {tokens : List Token} {s : List Char}

/-- Behind the blanks stands the first token. -/
theorem Spells.skipBlanks_eq (h : Spells (token :: tokens) s) :
    ∃ rest, Spells tokens rest ∧ skipBlanks s = token.characters ++ rest := by
  cases h with
  | cons hgap htext =>
    refine ⟨_, htext, dropWhile_append_of_head hgap ?_⟩
    obtain ⟨first, more, hfirst, hblank, -⟩ := token.characters_eq_cons
    rw [hfirst]
    rintro c ⟨⟩
    exact hblank

/-- Behind the blanks stands the first mark. -/
theorem Spells.skipBlanks_mark {sign : Mark} (h : Spells (.mark sign :: tokens) s) :
    ∃ rest, Spells tokens rest ∧ skipBlanks s = sign.character :: rest :=
  h.skipBlanks_eq

/-- Behind the last token stand blanks only. -/
theorem Spells.skipBlanks_nil (h : Spells [] s) : skipBlanks s = [] := by
  cases h with
  | nil hgap => exact List.dropWhile_eq_nil_iff.mpr hgap

/-- A token needs no blanks in front. -/
theorem Spells.cons_append (token : Token) (h : Spells tokens s) :
    Spells (token :: tokens) (token.characters ++ s) :=
  @Spells.cons [] token tokens s (List.forall_mem_nil _) h

/-- A text has as many characters as tokens at least. -/
theorem Spells.length_le (h : Spells tokens s) : tokens.length ≤ s.length := by
  induction h with
  | nil => exact Nat.zero_le _
  | @cons gap token tokens text hgap htext ih =>
    obtain ⟨first, more, hfirst, -⟩ := token.characters_eq_cons
    simp only [List.length_append, List.length_cons, hfirst]
    omega

end Spells

/-! ### Literals -/

/-- The digit of a number below sixteen has that number as its value. -/
theorem hexValue?_hexDigit {n : Nat} (hn : n < 16) : hexValue? (hexDigit n) = some n := by
  revert n
  decide

/-- A control character that is escaped by its code point is that code unit. -/
theorem codeUnit?_hexDigit {n : Nat} (hn : n < 0x20) :
    codeUnit? '0' '0' (hexDigit (n / 16)) (hexDigit (n % 16)) = some n := by
  have hzero : hexValue? '0' = some 0 := rfl
  have hhigh := hexValue?_hexDigit (n := n / 16) (by omega)
  have hlow := hexValue?_hexDigit (n := n % 16) (by omega)
  simp only [codeUnit?, hzero, hhigh, hlow, Option.bind_eq_bind, Option.bind_some, Option.pure_def]
  congr 1
  omega

/-- The escape of a character is read as the character. -/
theorem readCharacters_escapeCharacter (c : Char) (s : List Char) :
    readCharacters (escapeCharacter c ++ s) = prepend c (readCharacters s) := by
  unfold escapeCharacter
  split_ifs with hquote hbackslash hb hf hn hr ht hcontrol
  all_goals try subst c
  all_goals try rfl
  · have hunit := codeUnit?_hexDigit hcontrol
    have hhigh : isHighSurrogate c.toNat = false := by
      simp only [isHighSurrogate, Bool.and_eq_false_imp, decide_eq_true_eq]
      omega
    have hlow : isLowSurrogate c.toNat = false := by
      simp only [isLowSurrogate, Bool.and_eq_false_imp, decide_eq_true_eq]
      omega
    simp only [List.cons_append, List.nil_append, readCharacters, hunit, hhigh, hlow,
      Char.ofNat_toNat, Bool.false_eq_true, if_false]
  · rw [List.singleton_append, readCharacters, if_neg (not_or.mpr ⟨hbackslash, hcontrol⟩)]
    · exact hquote
    · exact fun _ _ _ _ _ hc _ ↦ hbackslash hc
    · exact fun _ _ hc _ ↦ hbackslash hc

/-- The characters of a literal are those of the text that it says. -/
theorem readCharacters_flatMap (characters rest : List Char) :
    readCharacters (characters.flatMap escapeCharacter ++ '"' :: rest) = .ok (characters, rest) := by
  induction characters with
  | nil => rfl
  | cons c characters ih =>
    rw [List.flatMap_cons, List.append_assoc, readCharacters_escapeCharacter, ih]
    rfl

/-- A literal starts with a quotation mark, and behind it the text is read back. -/
theorem readLiteral_append (content : String) (rest : List Char) :
    ∃ s, (literal content).toList ++ rest = '"' :: s ∧ readLiteral s = .ok (content, rest) := by
  refine ⟨content.toList.flatMap escapeCharacter ++ '"' :: rest, ?_, ?_⟩
  · simp [literal]
  · rw [readLiteral, readCharacters_flatMap]
    simp [Except.map]

/-! ### Whole numbers -/

/-- Whether a number could go on with this character. -/
def continuesNumber (c : Char) : Bool :=
  c.isDigit || c == '.' || c == 'e' || c == 'E'

section Numbers

variable {n : Nat} {rest : List Char}

/-- The digits of a number are a whole part. -/
theorem wholePart?_toDigits (hrest : ∀ c ∈ rest.head?, ¬ continuesNumber c) :
    wholePart? (Nat.toDigits 10 n ++ rest) = some (Nat.toDigits 10 n, rest) := by
  have hstop : ∀ c ∈ rest.head?, ¬ c.isDigit := fun c hc hdigit ↦
    hrest c hc (by simp [continuesNumber, hdigit])
  have hsplit : splitDigits (Nat.toDigits 10 n ++ rest) = (Nat.toDigits 10 n, rest) :=
    Prod.ext (takeWhile_append_of_head (fun _ ↦ isDigit_of_mem_toDigits) hstop)
      (dropWhile_append_of_head (fun _ ↦ isDigit_of_mem_toDigits) hstop)
  obtain ⟨first, digits, hdigits, hzero⟩ := toDigits_eq_cons n
  rw [wholePart?, hsplit, hdigits]
  split
  · rename_i heq
    cases (Prod.mk.inj heq).1
  · rename_i heq
    obtain ⟨rfl, hmore⟩ := List.cons.inj (Prod.mk.inj heq).1
    rw [hzero rfl] at hmore
    cases hmore
  · rename_i heq
    rw [← heq]

/-- What does not continue a number is neither a fraction nor a power of ten. -/
theorem fractionPart?_powerPart?_eq (hrest : ∀ c ∈ rest.head?, ¬ continuesNumber c) :
    fractionPart? rest = some ([], rest) ∧ powerPart? rest = some (none, rest) := by
  cases rest with
  | nil => exact ⟨rfl, rfl⟩
  | cons c rest =>
    have hc := hrest c rfl
    simp only [continuesNumber, Bool.or_eq_true, beq_iff_eq, not_or] at hc
    obtain ⟨⟨⟨-, hpoint⟩, he⟩, hE⟩ := hc
    refine ⟨?_, ?_⟩
    · rw [fractionPart?]
      exact fun _ h ↦ hpoint (List.cons.inj h).1
    · unfold powerPart?
      exact if_neg (not_or.mpr ⟨he, hE⟩)

/-- A whole number is read back where the text does not go on with a part of a number. -/
theorem readNumber_append (hn : n < UInt64.size) (hrest : ∀ c ∈ rest.head?, ¬ continuesNumber c) :
    readNumber (Nat.toDigits 10 n ++ rest) = .ok (.integer n, rest) := by
  obtain ⟨hfraction, hpower⟩ := fractionPart?_powerPart?_eq hrest
  have hparts : NumberParts.ofText? (Nat.toDigits 10 n ++ rest) =
      some (⟨false, Nat.toDigits 10 n, [], none⟩, rest) := by
    have hwhole := wholePart?_toDigits (n := n) hrest
    obtain ⟨first, digits, hdigits, -⟩ := toDigits_eq_cons n
    have hdigit : first.isDigit := isDigit_of_mem_toDigits (hdigits ▸ List.mem_cons_self)
    have hsign : first ≠ '-' := by
      rintro rfl
      exact absurd hdigit (by decide)
    rw [hdigits, List.cons_append] at hwhole ⊢
    simp [NumberParts.ofText?, hsign, hwhole, hfraction, hpower]
  rw [readNumber, hparts]
  simp [NumberParts.number?, hn]

end Numbers

end FrameSorter.Json
