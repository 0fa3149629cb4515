import FrameSorter.Proofs.Scanning
import FrameSorter.Ron.Token
import FrameSorter.Text.Quoted

/-!
# The tokens of a RON document

A RON document is a list of tokens: the marks between values, names, texts in quotation marks and
whole numbers (`Token`). Some tokens may be left out (`Piece`), and blanks may stand around all of them,
so many texts spell the same pieces (`Spells`); the one without blanks either has every optional token
or none of them (`spells_characters`). Behind the blanks a text goes on with its first token
(`Spells.skipGap_eq`). A name is read where something stands behind it that ends a name
(`identifier?_append`), a text is read back whatever characters it has (`string_append`), and so is a
number of 32 bits in front of what may stand behind a value (`readWord_append`).
-/

set_option autoImplicit false
set_option relaxedAutoImplicit false

namespace FrameSorter.Ron

/-! ### Tokens and their texts -/

/-- What stands between the values of a document. -/
inductive Mark
  | openList
  | closeList
  | openRecord
  | closeRecord
  | comma
  | colon
  deriving DecidableEq, Repr

/-- The character of a mark. -/
def Mark.character : Mark → Char
  | .openList => '['
  | .closeList => ']'
  | .openRecord => '('
  | .closeRecord => ')'
  | .comma => ','
  | .colon => ':'

/-- A part of a document that blanks may surround but not divide. -/
inductive Token
  | mark (sign : Mark)
  | name (word : String)
  | text (content : String)
  | number (n : Nat)
  deriving DecidableEq, Repr

/-- How a token is written. In a text, only backslashes and quotation marks are escaped. -/
def Token.characters : Token → List Char
  | .mark sign => [sign.character]
  | .name word => word.toList
  | .text content => (Quoted.quote content '"').toList
  | .number n => Nat.toDigits 10 n

/-- A text starts with a quotation mark. -/
theorem Token.characters_text (content : String) :
    (Token.text content).characters = '"' :: (Quoted.escape '"' content.toList ++ ['"']) := by
  rw [characters, Quoted.quote, String.toList_ofList]

/-- A token that has to be there, or one that may be left out. -/
inductive Piece
  | required (token : Token)
  | optional (token : Token)
  deriving DecidableEq, Repr

/-- How a piece is written, by whether optional tokens are. -/
def Piece.characters (writesOptional : Bool) : Piece → List Char
  | .required token => token.characters
  | .optional token => if writesOptional then token.characters else []

/-- A text that consists of these pieces, with blanks or none around each token. -/
inductive Spells : List Piece → List Char → Prop
  | nil {gap : List Char} (hgap : ∀ c ∈ gap, isBlank c) : Spells [] gap
  | required {gap : List Char} {token : Token} {pieces : List Piece} {text : List Char}
      (hgap : ∀ c ∈ gap, isBlank c) (htext : Spells pieces text) :
      Spells (.required token :: pieces) (gap ++ (token.characters ++ text))
  | optional {gap : List Char} {token : Token} {pieces : List Piece} {text : List Char}
      (hgap : ∀ c ∈ gap, isBlank c) (htext : Spells pieces text) :
      Spells (.optional token :: pieces) (gap ++ (token.characters ++ text))
  | omitted {token : Token} {pieces : List Piece} {text : List Char}
      (htext : Spells pieces text) : Spells (.optional token :: pieces) text

/-- The pieces without blanks. -/
theorem spells_characters (writesOptional : Bool) (pieces : List Piece) :
    Spells pieces (pieces.flatMap (Piece.characters writesOptional)) := by
  induction pieces with
  | nil => exact .nil (List.forall_mem_nil _)
  | cons piece pieces ih =>
    rw [List.flatMap_cons]
    cases piece with
    | required token => exact @Spells.required [] token pieces _ (List.forall_mem_nil _) ih
    | optional token =>
      cases writesOptional with
      | true => exact @Spells.optional [] token pieces _ (List.forall_mem_nil _) ih
      | false => exact .omitted ih

/-! ### Blanks -/

variable {c : Char} {rest : List Char}

/-- Whether nothing is skipped in front of this character. -/
def IsVisible (c : Char) : Prop :=
  ¬ isBlank c ∧ c ≠ '/'

instance : DecidablePred IsVisible :=
  fun _ ↦ inferInstanceAs (Decidable (_ ∧ _))

/-- Blanks are skipped. -/
theorem skipGap_append {gap : List Char} (hgap : ∀ c ∈ gap, isBlank c) (s : List Char) :
    skipGap .blanks (gap ++ s) = skipGap .blanks s := by
  induction gap with
  | nil => rfl
  | cons c gap ih =>
    obtain ⟨hc, hgap⟩ := List.forall_mem_cons.mp hgap
    have hslash : c ≠ '/' := by
      rintro rfl
      exact absurd hc (by decide)
    rw [List.cons_append, skipGap, if_pos hc, ih hgap]
    · exact fun _ h ↦ absurd h hslash
    · exact fun _ h ↦ absurd h hslash

/-- A visible character is not. -/
theorem skipGap_of_isVisible (hc : IsVisible c) : skipGap .blanks (c :: rest) = .ok (c :: rest) := by
  rw [skipGap, if_neg hc.1, if_neg hc.2]
  · exact fun _ h ↦ absurd h hc.2
  · exact fun _ h ↦ absurd h hc.2

/-- Whether a value or a name may start with this character: it is visible, closes nothing and begins
no attribute. -/
def IsStart (c : Char) : Prop :=
  IsVisible c ∧ c ∉ [']', ')', '#']

instance : DecidablePred IsStart :=
  fun _ ↦ inferInstanceAs (Decidable (_ ∧ _))

/-- Letters and digits may. -/
theorem isStart_of_isAlphanum (hc : c.isAlphanum) : IsStart c := by
  have hothers : ∀ d ∈ [' ', '\t', '\n', '\r', '/', ']', ')', '#'], ¬ d.isAlphanum := by simp
  have hc : c ∉ [' ', '\t', '\n', '\r', '/', ']', ')', '#'] := fun hmem ↦ hothers c hmem hc
  simpa [IsStart, IsVisible, isBlank, and_assoc] using hc

/-- A mark is visible. -/
theorem Mark.isVisible (sign : Mark) : IsVisible sign.character := by
  cases sign <;> decide

namespace Spells

variable {token : Token} {pieces : List Piece} {s : List Char}

/-- An optional token is there like a required one, or it is left out. -/
theorem required_or_omitted (h : Spells (.optional token :: pieces) s) :
    Spells (.required token :: pieces) s ∨ Spells pieces s := by
  cases h with
  | optional hgap htext => exact .inl (.required hgap htext)
  | omitted htext => exact .inr htext

/-- A required token may stand in place of an optional one. -/
theorem optional_of_required (h : Spells (.required token :: pieces) s) :
    Spells (.optional token :: pieces) s := by
  cases h with
  | required hgap htext => exact .optional hgap htext

/-- Behind the blanks stands the first token. -/
theorem skipGap_eq (h : Spells (.required token :: pieces) s) {more : List Char}
    (htoken : token.characters = c :: more) (hc : IsVisible c) :
    ∃ rest, Spells pieces rest ∧ skipGap .blanks s = .ok (token.characters ++ rest) := by
  cases h with
  | @required gap _ _ rest hgap hrest =>
    refine ⟨rest, hrest, ?_⟩
    rw [skipGap_append hgap, htoken, List.cons_append, skipGap_of_isVisible hc]

/-- If no blank stands in front, the text starts with the first token. -/
theorem eq_append (h : Spells (.required token :: pieces) (c :: s)) (hc : IsVisible c) :
    ∃ rest, Spells pieces rest ∧ c :: s = token.characters ++ rest := by
  generalize htext : c :: s = text at h
  cases h with
  | @required gap _ _ rest hgap hrest =>
    refine ⟨rest, hrest, ?_⟩
    cases gap with
    | nil => rfl
    | cons d gap =>
      obtain ⟨rfl, -⟩ := List.cons.inj htext
      exact absurd (hgap c List.mem_cons_self) hc.1

/-- A token stands in front of the text of the pieces behind it. -/
theorem append (token : Token) (h : Spells pieces rest) :
    Spells (.required token :: pieces) (token.characters ++ rest) :=
  @required [] token pieces rest (List.forall_mem_nil _) h

variable {sign : Mark}

/-- Behind the blanks stands the mark. -/
theorem skipGap_mark (h : Spells (.required (.mark sign) :: pieces) s) :
    ∃ rest, Spells pieces rest ∧ skipGap .blanks s = .ok (sign.character :: rest) :=
  h.skipGap_eq rfl sign.isVisible

/-- If no blank stands in front, the text starts with the mark. -/
theorem eq_cons_mark (h : Spells (.required (.mark sign) :: pieces) (c :: s)) (hc : IsVisible c) :
    c = sign.character ∧ Spells pieces s := by
  obtain ⟨rest, hrest, htext⟩ := h.eq_append hc
  obtain ⟨rfl, rfl⟩ := List.cons.inj htext
  exact ⟨rfl, hrest⟩

/-- In front of a mark only blanks stand. -/
theorem head_mark (h : Spells (.required (.mark sign) :: pieces) s) :
    ∃ c rest, s = c :: rest ∧ (isBlank c ∨ c = sign.character) := by
  cases h with
  | @required gap _ _ rest hgap _ =>
    cases gap with
    | nil => exact ⟨sign.character, rest, rfl, .inr rfl⟩
    | cons d gap => exact ⟨d, _, rfl, .inl (hgap d List.mem_cons_self)⟩

/-- If there are no tokens, only blanks are left. -/
theorem skipGap_nil (h : Spells [] s) : skipGap .blanks s = .ok [] := by
  cases h with
  | nil hgap =>
    have hskip := skipGap_append hgap []
    rwa [List.append_nil] at hskip

end Spells

/-! ### Signs -/

/-- What is skipped between two tokens. -/
theorem between_of_skipGap {s front : List Char} (h : skipGap .blanks s = .ok front) :
    between s = .ok ((), front) := by
  rw [between, h]
  rfl

/-- A character that stands in front is taken. -/
theorem take_cons (c : Char) (rest : List Char) : take c (c :: rest) = .ok (true, rest) := by
  rw [take, if_pos rfl]

/-- Another one is not. -/
theorem take_of_ne {d : Char} (hd : d ≠ c) : take c (d :: rest) = .ok (false, d :: rest) := by
  rw [take, if_neg hd]

/-- A character that has to be there is taken. -/
theorem expect_cons (c : Char) (rest : List Char) : expect c (c :: rest) = .ok ((), rest) := by
  rw [expect, bind_of_ok (take_cons c rest)]
  rfl

/-- A comma is taken with the blanks around it. -/
theorem comma_of_skipGap {s front behind : List Char} (hfront : skipGap .blanks s = .ok (',' :: front))
    (hbehind : skipGap .blanks front = .ok behind) : comma s = .ok (true, behind) := by
  rw [comma, bind_of_ok (between_of_skipGap hfront), bind_of_ok (take_cons ',' front), if_pos rfl,
    bind_of_ok (between_of_skipGap hbehind)]
  rfl

/-- In front of another character there is no comma. -/
theorem comma_of_ne {s : List Char} (hs : skipGap .blanks s = .ok (c :: rest)) (hc : c ≠ ',') :
    comma s = .ok (false, c :: rest) := by
  rw [comma, bind_of_ok (between_of_skipGap hs), bind_of_ok (take_of_ne hc)]
  rfl

/-! ### Names -/

/-- Whether a name ends in front of this character. -/
def EndsName (c : Char) : Prop :=
  isBlank c ∨ c = ':' ∨ c = '('

instance : DecidablePred EndsName :=
  fun _ ↦ inferInstanceAs (Decidable (_ ∨ _))

/-- What ends a name could not be part of it, and begins no raw text or name either. -/
theorem EndsName.not_part (hc : EndsName c) :
    ¬ isIdentifierPart c ∧ ¬ isRawIdentifierPart c ∧ c ≠ '"' ∧ c ≠ '#' := by
  simp only [EndsName, isBlank, Bool.or_eq_true, beq_iff_eq] at hc
  rcases hc with (((rfl | rfl) | rfl) | rfl) | rfl | rfl <;> decide

/-- A word is read as a name. -/
theorem identifier?_append {word : String} (hword : IsWord word) (hc : EndsName c) :
    identifier? (word.toList ++ c :: rest) = some (word, c :: rest) := by
  obtain ⟨hstop, hraw, hquote, hsign⟩ := hc.not_part
  have hparts : ∀ d ∈ word.toList, isIdentifierPart d := fun d hd ↦ by
    simp [isIdentifierPart, Char.isAlphanum, hword.2 d hd]
  have hends : ∀ d ∈ (c :: rest).head?, ¬ isIdentifierPart d := by
    rintro d ⟨⟩
    exact hstop
  have hplain : plainIdentifier? (word.toList ++ c :: rest) = some (word, c :: rest) := by
    rw [plainIdentifier?, takeWhile_append_of_head hparts hends,
      dropWhile_append_of_head hparts hends, String.ofList_toList]
    simp [hraw]
  obtain ⟨first, more, hfirst, hletter⟩ := hword.toList_eq_cons
  have hstart : isIdentifierStart first := by
    simp [isIdentifierStart, hletter]
  -- Behind a letter r no raw text and no raw name begins.
  have hsecond : ∀ d ∈ (more ++ c :: rest).head?, d ≠ '"' ∧ d ≠ '#' := by
    cases more with
    | nil =>
      rintro d ⟨⟩
      exact ⟨hquote, hsign⟩
    | cons second more =>
      rintro d ⟨⟩
      have hletter := hword.2 second (hfirst ▸ List.mem_cons_of_mem _ List.mem_cons_self)
      refine ⟨?_, ?_⟩ <;> rintro rfl <;> exact absurd hletter (by decide)
  rw [hfirst, List.cons_append] at hplain ⊢
  rw [identifier?, if_pos hstart, hplain]
  · exact fun _ hrest ↦ by simp at hrest
  · exact fun _ _ hrest ↦ (hsecond '"' (by rw [hrest]; rfl)).1 rfl
  · exact fun _ _ hrest ↦ (hsecond '#' (by rw [hrest]; rfl)).2 rfl

/-- A word is found in front of a text that does not go on with it. -/
theorem afterIdentifier?_append (word : String) (hrest : ¬ goesOn rest) :
    afterIdentifier? word (word.toList ++ rest) = some rest := by
  have hword (characters : List Char) : afterWord? characters (characters ++ rest) = some rest := by
    induction characters with
    | nil => rfl
    | cons c characters ih => rw [List.cons_append, afterWord?, if_pos rfl, ih]
  rw [afterIdentifier?, hword]
  simp [hrest]

/-! ### Texts -/

/-- The characters of a text are read back from their escapes. -/
theorem readCharacters_escape (characters rest : List Char) {steps : Nat}
    (hsteps : characters.length < steps) :
    readCharacters steps (Quoted.escape '"' characters ++ '"' :: rest) = .ok (characters, rest) := by
  induction characters generalizing steps with
  | nil =>
    obtain ⟨steps, rfl⟩ := Nat.exists_eq_add_one.mpr hsteps
    rw [Quoted.escape, List.nil_append, readCharacters, if_pos rfl]
  | cons c characters ih =>
    obtain ⟨steps, rfl⟩ := Nat.exists_eq_add_one.mpr (Nat.zero_lt_of_lt hsteps)
    have hcharacters := ih (Nat.lt_of_succ_lt_succ hsteps)
    rw [Quoted.escape]
    split_ifs with hescaped
    · have hescape : escape? (c :: (Quoted.escape '"' characters ++ '"' :: rest)) =
          some (c, Quoted.escape '"' characters ++ '"' :: rest) := by
        rcases hescaped with rfl | rfl <;> rfl
      rw [List.cons_append, List.cons_append, readCharacters, if_neg (by decide), if_pos rfl, hescape]
      simp only [hcharacters]
      rfl
    · obtain ⟨hbackslash, hquote⟩ := not_or.mp hescaped
      rw [List.cons_append, readCharacters, if_neg hquote, if_neg hbackslash, hcharacters]
      rfl

/-- Escapes make a text no shorter. -/
theorem length_le_length_escape (delimiter : Char) (characters : List Char) :
    characters.length ≤ (Quoted.escape delimiter characters).length := by
  induction characters with
  | nil => exact Nat.zero_le _
  | cons c characters ih =>
    rw [Quoted.escape]
    split <;> simp only [List.length_cons] <;> omega

/-- A text in quotation marks is read back. -/
theorem string_append (content : String) (rest : List Char) :
    string ((Token.text content).characters ++ rest) = .ok (content, rest) := by
  have hsteps : content.toList.length <
      (Quoted.escape '"' content.toList ++ '"' :: rest).length + 1 := by
    have hescape := length_le_length_escape '"' content.toList
    simp only [List.length_append]
    omega
  have htext : (Token.text content).characters ++ rest =
      '"' :: (Quoted.escape '"' content.toList ++ '"' :: rest) := by
    rw [Token.characters_text, List.cons_append, List.append_assoc, List.singleton_append]
  rw [htext, string, readCharacters_escape content.toList rest hsteps]
  simp [Except.map]

/-! ### Numbers -/

/-- Whether a value may end in front of this character. -/
def EndsValue (c : Char) : Prop :=
  isBlank c ∨ c = ',' ∨ c = ')' ∨ c = ']'

instance : DecidablePred EndsValue :=
  fun _ ↦ inferInstanceAs (Decidable (_ ∨ _))

/-- What ends a value could not be part of a name or a number. -/
theorem EndsValue.not_part (hc : EndsValue c) :
    ¬ isIdentifierPart c ∧ ¬ isWholePart c ∧ c ≠ 'x' ∧ c ≠ 'b' ∧ c ≠ 'o' := by
  simp only [EndsValue, isBlank, Bool.or_eq_true, beq_iff_eq] at hc
  rcases hc with (((rfl | rfl) | rfl) | rfl) | rfl | rfl | rfl <;> decide

/-- Digits spell their number, unless it passes the limit. -/
theorem digitsValue_eq {limit : Nat} {digits : List Char} (hdigits : ∀ c ∈ digits, c.isDigit)
    {value : Nat} (hvalue : value ≤ limit) :
    digitsValue 10 limit value digits =
      if Nat.ofDigitChars 10 digits value ≤ limit then .ok (Nat.ofDigitChars 10 digits value)
      else .error .tooLarge := by
  induction digits generalizing value with
  | nil => rw [digitsValue, Nat.ofDigitChars_nil, if_pos hvalue]
  | cons c digits ih =>
    obtain ⟨hdigit, hmore⟩ := List.forall_mem_cons.mp hdigits
    have hgrows : value * 10 + (c.toNat - '0'.toNat) ≤
        Nat.ofDigitChars 10 digits (value * 10 + (c.toNat - '0'.toNat)) := by
      have hshift := Nat.le_mul_of_pos_left (value * 10 + (c.toNat - '0'.toNat))
        (Nat.pow_pos (n := digits.length) (show 0 < 10 by decide))
      rw [Nat.ofDigitChars_eq_ofDigitChars_zero]
      omega
    have hline : c ≠ '_' := by
      rintro rfl
      exact absurd hdigit (by decide)
    have hsmall : c.toNat - '0'.toNat < 10 := by
      have hnine : c.toNat ≤ '9'.toNat := (Char.isDigit_iff_toNat.mp hdigit).2
      have hrange : '9'.toNat - '0'.toNat < 10 := by decide
      omega
    rw [Nat.ofDigitChars_cons, Nat.mul_comm 10 value, digitsValue, if_neg hline, hexValue?,
      if_pos hdigit]
    simp only [Nat.not_le.mpr hsmall, if_false]
    by_cases hnext : limit < value * 10 + (c.toNat - '0'.toNat)
    · rw [if_pos hnext, ite_self, if_neg (Nat.not_le.mpr (hnext.trans_le hgrows))]
    · rw [if_neg (by omega), if_neg hnext, ih hmore (Nat.not_lt.mp hnext)]

/-- Decimal digits have no mark of another base in front. -/
theorem splitBase_append (n : Nat) (hends : ∀ c ∈ rest.head?, EndsValue c) :
    splitBase (Nat.toDigits 10 n ++ rest) = (10, Nat.toDigits 10 n ++ rest) := by
  obtain ⟨first, digits, hfirst, hzero⟩ := toDigits_eq_cons n
  -- A zero in front is the whole number, so what ends it follows.
  have hmark {mark : Char} {more : List Char} (hmore : Nat.toDigits 10 n ++ rest =
      '0' :: mark :: more) : mark ≠ 'x' ∧ mark ≠ 'b' ∧ mark ≠ 'o' := by
    rw [hfirst, List.cons_append] at hmore
    obtain ⟨rfl, hrest⟩ := List.cons.inj hmore
    rw [hzero rfl, List.nil_append] at hrest
    exact (hends mark (hrest ▸ rfl)).not_part.2.2
  unfold splitBase
  split
  · exact absurd rfl (hmark ‹_›).1
  · exact absurd rfl (hmark ‹_›).2.1
  · exact absurd rfl (hmark ‹_›).2.2
  · rfl

/-- Decimal digits are read as a whole number, unless it passes the limit. -/
theorem readWhole_append (limit n : Nat) (hends : ∀ c ∈ rest.head?, EndsValue c) :
    readWhole limit (Nat.toDigits 10 n ++ rest) =
      if n ≤ limit then .ok (n, rest) else .error .tooLarge := by
  have hdigits : ∀ c ∈ Nat.toDigits 10 n, c.isDigit := fun _ ↦ isDigit_of_mem_toDigits
  have hparts : ∀ c ∈ Nat.toDigits 10 n, isWholePart c := fun c hc ↦ by
    simp [isWholePart, hexValue?, hdigits c hc]
  have hstop : ∀ c ∈ rest.head?, ¬ isWholePart c := fun c hc ↦ (hends c hc).not_part.2.1
  have hvalue : digitsValue 10 limit 0 (Nat.toDigits 10 n) =
      if n ≤ limit then .ok n else .error .tooLarge := by
    rw [digitsValue_eq hdigits (Nat.zero_le limit), Nat.ofDigitChars_ten_toDigits]
  obtain ⟨first, digits, hfirst, -⟩ := toDigits_eq_cons n
  rw [readWhole, splitBase_append n hends]
  simp only [takeWhile_append_of_head hparts hstop, dropWhile_append_of_head hparts hstop]
  rw [hfirst] at hvalue hdigits ⊢
  split
  · rename_i hempty
    exact absurd hempty (List.cons_ne_nil _ _)
  · rename_i hline
    obtain ⟨rfl, -⟩ := List.cons.inj hline
    exact absurd (hdigits '_' List.mem_cons_self) (by decide)
  · rw [hvalue]
    split_ifs <;> rfl

/-- A number of 32 bits is read back. -/
theorem readWord_append (n : UInt32) (hends : ∀ c ∈ rest.head?, EndsValue c) :
    readWord ((Token.number n.toNat).characters ++ rest) = .ok (n, rest) := by
  have hlimit : n.toNat ≤ UInt32.size - 1 := Nat.le_pred_of_lt n.toNat_lt
  rw [readWord, Token.characters, readWhole_append _ _ hends, if_pos hlimit]
  simp

end FrameSorter.Ron
