import FrameSorter.Proofs.Scanning
import FrameSorter.Toml.Text

/-!
# The tokens of a TOML line

A line of a TOML document is a list of tokens: marks, bare keys, texts in quotation marks and whole
numbers (`Token`), with blanks or none around each of them (`Spells`). What a text says is read back
from it, whatever characters it has (`text_append`), and so is a whole number of 64 bits, since it is
neither a date nor a time nor a number with a fraction (`readNumeric_toString`).
-/

set_option autoImplicit false
set_option relaxedAutoImplicit false

namespace FrameSorter.Toml

/-! ### Tokens and their texts -/

/-- The hexadecimal digit of a number below sixteen. -/
def hexDigit (isUpper : Bool) (n : Nat) : Char :=
  if isUpper then (Nat.digitChar n).toUpper else Nat.digitChar n

/-- How one character is written in a text: quotation marks and backslashes behind a backslash, and
control characters by their code points. -/
def escapeCharacter (isUpper : Bool) (c : Char) : List Char :=
  if c = '"' ∨ c = '\\' then ['\\', c]
  else if c.toNat < 0x20 ∨ c = '\x7f' then
    ['\\', 'u', '0', '0', hexDigit isUpper (c.toNat / 16), hexDigit isUpper (c.toNat % 16)]
  else [c]

/-- The signs of a document. Those around the header of an element of a list are two brackets. -/
inductive Mark
  | openBracket
  | closeBracket
  | openBrackets
  | closeBrackets
  | comma
  | equals
  deriving DecidableEq, Repr

/-- The characters of a mark. -/
def Mark.characters : Mark → List Char
  | .openBracket => ['[']
  | .closeBracket => [']']
  | .openBrackets => ['[', '[']
  | .closeBrackets => [']', ']']
  | .comma => [',']
  | .equals => ['=']

/-- A part of a line that blanks may surround but not divide. -/
inductive Token
  | mark (sign : Mark)
  | key (word : String)
  | text (content : String)
  | number (n : Nat)
  deriving DecidableEq, Repr

/-- Whether a token is a key. -/
def Token.isKey : Token → Bool
  | .key _ => true
  | _ => false

/-- How a token is written. -/
def Token.characters (isUpper : Bool) : Token → List Char
  | .mark sign => sign.characters
  | .key word => word.toList
  | .text content => '"' :: (content.toList.flatMap (escapeCharacter isUpper) ++ ['"'])
  | .number n => Nat.toDigits 10 n

/-- A text that consists of these tokens, with blanks or none around each of them, in front of what
follows. The hexadecimal digits in a token are large or small. -/
inductive Spells (following : List Char) : List Token → List Char → Prop
  | nil {gap : List Char} (hgap : ∀ c ∈ gap, isBlank c) : Spells following [] (gap ++ following)
  | cons {gap : List Char} {token : Token} {tokens : List Token} {text : List Char} (isUpper : Bool)
      (hgap : ∀ c ∈ gap, isBlank c) (htext : Spells following tokens text) :
      Spells following (token :: tokens) (gap ++ (token.characters isUpper ++ text))

variable {following : List Char} {tokens : List Token} {token : Token} {s rest : List Char} {c : Char}

/-- The tokens without blanks. -/
theorem spells_compact (isUpper : Bool) (following : List Char) (tokens : List Token) :
    Spells following tokens (tokens.flatMap (Token.characters isUpper) ++ following) := by
  induction tokens with
  | nil => exact @Spells.nil following [] (List.forall_mem_nil _)
  | cons token tokens ih =>
    rw [List.flatMap_cons, List.append_assoc]
    exact @Spells.cons following [] token tokens _ isUpper (List.forall_mem_nil _) ih

/-! ### Blanks -/

/-- Blanks are skipped in front of what is none. -/
theorem skipBlanks_append {gap : List Char} (hgap : ∀ c ∈ gap, isBlank c)
    (hrest : ∀ c ∈ rest.head?, ¬ isBlank c) : skipBlanks (gap ++ rest) = rest :=
  dropWhile_append_of_head hgap hrest

/-- A letter or a digit is no blank. -/
theorem not_isBlank_of_isAlphanum (hc : c.isAlphanum) : ¬ isBlank c := by
  intro hblank
  simp only [isBlank, Bool.or_eq_true, beq_iff_eq] at hblank
  rcases hblank with rfl | rfl <;> exact absurd hc (by decide)

/-- Whether a token starts with a character that is no blank. -/
def Token.IsVisible (token : Token) : Prop :=
  ∀ isUpper, ∃ c more, token.characters isUpper = c :: more ∧ ¬ isBlank c

/-- Every token but a key does. -/
theorem isVisible_of_isKey (hkey : token.isKey = false) : token.IsVisible := by
  intro isUpper
  cases token with
  | mark sign => cases sign <;> exact ⟨_, _, rfl, by decide⟩
  | key word => exact Bool.noConfusion hkey
  | text content => exact ⟨_, _, rfl, by decide⟩
  | number n =>
    obtain ⟨first, digits, hfirst, -⟩ := toDigits_eq_cons n
    have hdigit : first.isDigit := isDigit_of_mem_toDigits (hfirst ▸ List.mem_cons_self)
    exact ⟨first, digits, hfirst, not_isBlank_of_isAlphanum (by simp [Char.isAlphanum, hdigit])⟩

/-- A key does if it is a word. -/
theorem isVisible_key {word : String} (hword : IsWord word) :
    (Token.key word).IsVisible := by
  intro isUpper
  obtain ⟨first, more, hfirst, hletter⟩ := hword.toList_eq_cons
  exact ⟨first, more, hfirst, not_isBlank_of_isAlphanum (by simp [Char.isAlphanum, hletter])⟩

namespace Spells

/-- Behind the blanks stands the first token. -/
theorem skipBlanks_eq (h : Spells following (token :: tokens) s) (htoken : token.IsVisible) :
    ∃ isUpper rest, Spells following tokens rest ∧
      skipBlanks s = token.characters isUpper ++ rest := by
  cases h with
  | @cons gap _ _ rest isUpper hgap hrest =>
    refine ⟨isUpper, rest, hrest, skipBlanks_append hgap ?_⟩
    obtain ⟨c, more, hcharacters, hc⟩ := htoken isUpper
    rw [hcharacters]
    rintro d ⟨⟩
    exact hc

/-- A token stands in front of the text of the tokens behind it. -/
theorem cons_append (isUpper : Bool) (token : Token) (h : Spells following tokens rest) :
    Spells following (token :: tokens) (token.characters isUpper ++ rest) :=
  @cons following [] token tokens rest isUpper (List.forall_mem_nil _) h

/-- In front of a token only blanks stand. -/
theorem head_eq (h : Spells following (token :: tokens) s) (htoken : token.IsVisible) :
    ∃ c ∈ s.head?, isBlank c ∨ ∃ isUpper, c ∈ (token.characters isUpper).head? := by
  cases h with
  | @cons gap _ _ rest isUpper hgap _ =>
    cases gap with
    | nil =>
      obtain ⟨c, more, hcharacters, -⟩ := htoken isUpper
      refine ⟨c, ?_, .inr ⟨isUpper, ?_⟩⟩ <;> rw [hcharacters] <;> rfl
    | cons d gap => exact ⟨d, rfl, .inl (hgap d List.mem_cons_self)⟩

/-- Every token but a key takes a character, in front of what follows. -/
theorem countP_add_length_le (h : Spells following tokens s) :
    tokens.countP (!·.isKey) + following.length ≤ s.length := by
  induction h with
  | nil _ => simp
  | @cons gap token tokens text isUpper _ _ ih =>
    rw [List.countP_cons, List.length_append, List.length_append]
    cases hkey : token.isKey with
    | true =>
      simp only [Bool.not_true, Bool.false_eq_true, if_false]
      omega
    | false =>
      obtain ⟨c, more, hcharacters, -⟩ := isVisible_of_isKey hkey isUpper
      rw [hcharacters]
      simp only [Bool.not_false, if_true, List.length_cons]
      omega

end Spells

/-! ### Texts -/

/-- A hexadecimal digit has the value that it was made for. -/
theorem hexValue_hexDigit (isUpper : Bool) {n : Nat} (hn : n < 16) :
    isHexDigit (hexDigit isUpper n) ∧ hexValue (hexDigit isUpper n) = n := by
  revert n isUpper
  decide

/-- A control character is read from its code point. -/
theorem escape?_control (isUpper : Bool) {c : Char} (hc : c.toNat < 0x20 ∨ c = '\x7f')
    (rest : List Char) :
    escape? ('u' :: '0' :: '0' :: hexDigit isUpper (c.toNat / 16) ::
      hexDigit isUpper (c.toNat % 16) :: rest) = some (c, rest) := by
  have hsmall : c.toNat < 128 := by
    rcases hc with hc | rfl
    · omega
    · decide
  obtain ⟨hhigh, hhighValue⟩ := hexValue_hexDigit isUpper (n := c.toNat / 16) (by omega)
  obtain ⟨hlow, hlowValue⟩ := hexValue_hexDigit isUpper (n := c.toNat % 16) (by omega)
  have hvalue : digitsValue 16 ['0', '0', hexDigit isUpper (c.toNat / 16),
      hexDigit isUpper (c.toNat % 16)] = c.toNat := by
    simp only [digitsValue, List.foldl_cons, List.foldl_nil, hhighValue, hlowValue,
      show hexValue '0' = 0 from rfl]
    omega
  have hcharacter : character? c.toNat = some c := by
    have hvalid : c.toNat.isValidChar := c.valid
    rw [character?, dif_pos hvalid]
    rfl
  have hzero : isHexDigit '0' := rfl
  change spelledCharacter? 4 _ = _
  simp [spelledCharacter?, hzero, hhigh, hlow, hvalue, hcharacter]

/-- The characters of a text are read back from their escapes. -/
theorem readBasic_escape (isUpper : Bool) (characters rest : List Char) {steps : Nat}
    (hsteps : characters.length < steps) :
    readBasic steps (characters.flatMap (escapeCharacter isUpper) ++ '"' :: rest) =
      .ok (characters, rest) := by
  induction characters generalizing steps with
  | nil =>
    obtain ⟨steps, rfl⟩ := Nat.exists_eq_add_one.mpr hsteps
    rw [List.flatMap_nil, List.nil_append, readBasic, if_pos rfl]
  | cons c characters ih =>
    obtain ⟨steps, rfl⟩ := Nat.exists_eq_add_one.mpr (Nat.zero_lt_of_lt hsteps)
    have hcharacters := ih (Nat.lt_of_succ_lt_succ hsteps)
    rw [List.flatMap_cons, List.append_assoc]
    generalize characters.flatMap (escapeCharacter isUpper) ++ '"' :: rest = s at hcharacters
    rw [escapeCharacter]
    split_ifs with hescaped hcontrol
    · have hescape : escape? (c :: s) = some (c, s) := by
        rcases hescaped with rfl | rfl <;> rfl
      rw [List.cons_append, List.cons_append, List.nil_append, readBasic, if_neg (by decide),
        if_pos rfl, hescape]
      simp only [hcharacters]
      rfl
    · simp only [List.cons_append, List.nil_append]
      rw [readBasic, if_neg (by decide), if_pos rfl, escape?_control isUpper hcontrol]
      simp only [hcharacters]
      rfl
    · obtain ⟨hquote, hbackslash⟩ := not_or.mp hescaped
      obtain ⟨hlarge, hdelete⟩ := not_or.mp hcontrol
      have hprinting : isPrinting c := by
        simp [isPrinting, Nat.not_lt.mp hlarge, hdelete]
      rw [List.singleton_append, readBasic, if_neg hquote, if_neg hbackslash, if_pos hprinting,
        hcharacters]
      rfl

/-- Whether a value may end in front of this character. -/
def EndsValue (c : Char) : Prop :=
  c ∈ [' ', '\t', ',', ']', '\n', '\r']

instance : DecidablePred EndsValue :=
  fun _ ↦ inferInstanceAs (Decidable (_ ∈ _))

/-- What ends a value could not be part of it. -/
theorem EndsValue.not_part (hc : EndsValue c) :
    c ≠ '"' ∧ ¬ c.isDigit ∧ c ∉ ['_', '-', ':', 'x', 'o', 'b', '.', 'e', 'E'] := by
  have hends : ∀ c ∈ [' ', '\t', ',', ']', '\n', '\r'],
      c ≠ '"' ∧ ¬ c.isDigit ∧ c ∉ ['_', '-', ':', 'x', 'o', 'b', '.', 'e', 'E'] := by simp
  exact hends c hc

/-- No escape starts with a quotation mark. -/
theorem head?_escapeCharacter (isUpper : Bool) (c : Char) :
    ∃ first more, escapeCharacter isUpper c = first :: more ∧ first ≠ '"' := by
  unfold escapeCharacter
  split_ifs with hescaped
  · exact ⟨_, _, rfl, by decide⟩
  · exact ⟨_, _, rfl, by decide⟩
  · exact ⟨c, [], rfl, fun h ↦ hescaped (.inl h)⟩

/-- A text in quotation marks is read back. -/
theorem text_append (isUpper : Bool) (content : String) (hends : ∀ c ∈ rest.head?, EndsValue c) :
    text ((Token.text content).characters isUpper ++ rest) = .ok (content, rest) := by
  have hsteps (characters : List Char) : characters.length <
      (characters.flatMap (escapeCharacter isUpper) ++ '"' :: rest).length + 1 := by
    induction characters with
    | nil => exact Nat.succ_pos _
    | cons c characters ih =>
      obtain ⟨first, more, hfirst, -⟩ := head?_escapeCharacter isUpper c
      rw [List.flatMap_cons, hfirst]
      simp only [List.length_append, List.length_cons] at ih ⊢
      omega
  have hread := readBasic_escape isUpper content.toList rest (hsteps content.toList)
  -- Three quotation marks in front would begin a text of several lines.
  have hmarks (more : List Char) :
      content.toList.flatMap (escapeCharacter isUpper) ++ '"' :: rest ≠ '"' :: '"' :: more := by
    intro h
    cases hcontent : content.toList with
    | nil =>
      rw [hcontent, List.flatMap_nil, List.nil_append] at h
      obtain ⟨-, hrest⟩ := List.cons.inj h
      exact (hends '"' (hrest ▸ rfl)).not_part.1 rfl
    | cons c characters =>
      obtain ⟨first, behind, hfirst, hquote⟩ := head?_escapeCharacter isUpper c
      rw [hcontent, List.flatMap_cons, hfirst] at h
      exact hquote (List.cons.inj h).1
  rw [Token.characters, List.cons_append, List.append_assoc, List.singleton_append]
  generalize content.toList.flatMap (escapeCharacter isUpper) ++ '"' :: rest = s at hread hmarks ⊢
  have htext : text ('"' :: s) =
      (readBasic (s.length + 1) s).map (Prod.map String.ofList id) := by
    unfold text
    split
    · rename_i h
      obtain ⟨-, h⟩ := List.cons.inj h
      exact absurd h (hmarks _)
    · rename_i h
      obtain ⟨hquote, -⟩ := List.cons.inj h
      exact absurd hquote (by decide)
    · rename_i h
      obtain ⟨-, rfl⟩ := List.cons.inj h
      rfl
    · rename_i h
      obtain ⟨hquote, -⟩ := List.cons.inj h
      exact absurd hquote (by decide)
    · rename_i _ _ hbasic _
      exact absurd rfl (hbasic s)
  rw [htext, hread]
  simp [Except.map]

/-! ### Numbers -/

/-- Behind digits no more of them follow. -/
theorem moreDigits_append {digits : List Char} (hdigits : ∀ c ∈ digits, c.isDigit)
    (hends : ∀ c ∈ rest.head?, EndsValue c) :
    moreDigits Char.isDigit (digits ++ rest) = .ok (digits, rest) := by
  induction digits with
  | nil =>
    cases rest with
    | nil => rfl
    | cons c rest =>
      obtain ⟨-, hdigit, hother⟩ := (hends c rfl).not_part
      have hline : c ≠ '_' := by
        rintro rfl
        exact absurd hother (by decide)
      rw [List.nil_append, moreDigits, if_neg hline, if_neg hdigit]
      exact fun _ _ h _ ↦ hline h
  | cons c digits ih =>
    obtain ⟨hdigit, hmore⟩ := List.forall_mem_cons.mp hdigits
    have hline : c ≠ '_' := by
      rintro rfl
      exact absurd hdigit (by decide)
    rw [List.cons_append, moreDigits, if_neg hline, if_pos hdigit, ih hmore]
    · rfl
    · exact fun _ _ h _ ↦ hline h

/-- The number of the decimal digits of a number is that number. -/
theorem digitsValue_toDigits (n : Nat) : digitsValue 10 (Nat.toDigits 10 n) = n := by
  have hvalue (digits : List Char) (hdigits : ∀ c ∈ digits, c.isDigit) (value : Nat) :
      digits.foldl (fun value c ↦ value * 10 + hexValue c) value =
        Nat.ofDigitChars 10 digits value := by
    induction digits generalizing value with
    | nil => rfl
    | cons c digits ih =>
      obtain ⟨hdigit, hmore⟩ := List.forall_mem_cons.mp hdigits
      rw [List.foldl_cons, ih hmore, Nat.ofDigitChars_cons, hexValue, if_pos hdigit, Nat.mul_comm]
  rw [digitsValue, hvalue _ (fun _ ↦ isDigit_of_mem_toDigits), Nat.ofDigitChars_ten_toDigits]

/-- Behind a fixed number of digits no sign of a date or a time follows. -/
theorem behind?_of_fixedDigits? {digits : List Char} (hdigits : ∀ c ∈ digits, c.isDigit)
    (hends : ∀ c ∈ rest.head?, EndsValue c) {count value : Nat}
    (hfixed : fixedDigits? count (digits ++ rest) = some (value, s)) (hc : c = '-' ∨ c = ':') :
    behind? c s = none := by
  simp only [fixedDigits?] at hfixed
  split_ifs at hfixed with hall
  obtain ⟨hlength, hall⟩ := hall
  obtain ⟨-, rfl⟩ := Prod.mk.inj (Option.some.inj hfixed)
  have hcount : count ≤ digits.length := by
    by_contra hmore
    cases rest with
    | nil =>
      rw [List.append_nil, List.length_take] at hlength
      omega
    | cons d rest =>
      obtain ⟨extra, hextra⟩ : ∃ extra, count - digits.length = extra + 1 :=
        ⟨count - digits.length - 1, by omega⟩
      rw [List.take_append, hextra, List.take_succ_cons] at hall
      have hdigit := List.all_eq_true.mp hall d (List.mem_append_right _ List.mem_cons_self)
      exact (hends d rfl).not_part.2.1 hdigit
  have hother : ∀ d ∈ (digits.drop count ++ rest).head?, d ≠ c := by
    intro d hd
    cases hdrop : digits.drop count with
    | nil =>
      rw [hdrop, List.nil_append] at hd
      obtain ⟨-, -, hsigns⟩ := (hends d hd).not_part
      rintro rfl
      rcases hc with rfl | rfl <;> exact absurd hsigns (by decide)
    | cons e more =>
      rw [hdrop] at hd
      obtain rfl := Option.some.inj hd
      have hdigit := hdigits e (List.mem_of_mem_drop (hdrop ▸ List.mem_cons_self))
      rintro rfl
      rcases hc with rfl | rfl <;> exact absurd hdigit (by decide)
  rw [List.drop_append_of_le_length hcount]
  generalize digits.drop count ++ rest = s at hother
  cases s with
  | nil => rfl
  | cons d s => rw [behind?, if_neg (hother d rfl)]

/-- Digits that a value ends behind are no date and no time. -/
theorem moment_append {digits : List Char} (hdigits : ∀ c ∈ digits, c.isDigit)
    (hends : ∀ c ∈ rest.head?, EndsValue c) : moment (digits ++ rest) = .ok none := by
  have hdate : date (digits ++ rest) = .ok none := by
    unfold date
    cases hyear : fixedDigits? 4 (digits ++ rest) with
    | none => rfl
    | some year =>
      simp only [behind?_of_fixedDigits? hdigits hends hyear (.inl rfl)]
  have htime : time (digits ++ rest) = .ok none := by
    unfold time
    cases hhour : twoDigits? 0 23 (digits ++ rest) with
    | none => rfl
    | some hour =>
      obtain ⟨hfixed, -⟩ := Option.filter_eq_some_iff.mp hhour
      simp only [behind?_of_fixedDigits? hdigits hends hfixed (.inr rfl)]
  rw [moment, hdate]
  exact htime

/-- What starts with a sign is no date and no time either. -/
theorem moment_cons (hc : ¬ c.isDigit) (s : List Char) : moment (c :: s) = .ok none := by
  have hfixed (count : Nat) : fixedDigits? (count + 1) (c :: s) = none := by
    simp [fixedDigits?, hc]
  have hdate : date (c :: s) = .ok none := by rw [date, hfixed]
  have htime : time (c :: s) = .ok none := by
    rw [time, twoDigits?, hfixed]
    rfl
  rw [moment, hdate]
  exact htime

/-- Decimal digits are the whole digits of a number. -/
theorem wholeDigits_append (n : Nat) (hends : ∀ c ∈ rest.head?, EndsValue c) :
    wholeDigits (Nat.toDigits 10 n ++ rest) = .ok (some (Nat.toDigits 10 n, rest)) := by
  have hdigits : ∀ c ∈ Nat.toDigits 10 n, c.isDigit := fun _ ↦ isDigit_of_mem_toDigits
  obtain ⟨first, digits, hfirst, hzero⟩ := toDigits_eq_cons n
  rw [hfirst] at hdigits ⊢
  obtain ⟨hdigit, hmore⟩ := List.forall_mem_cons.mp hdigits
  by_cases hc : first = '0'
  · rw [hzero hc, hc]
    rfl
  · rw [List.cons_append, wholeDigits, if_pos hdigit, moreDigits_append hmore hends]
    · rfl
    · exact fun h ↦ hc h

/-- What ends a value starts no fraction and no power of ten. -/
theorem not_floating (hends : ∀ c ∈ rest.head?, EndsValue c) :
    ¬ rest.head?.any (fun c ↦ c == '.' || c == 'e' || c == 'E') := by
  cases rest with
  | nil => exact Bool.false_ne_true
  | cons c rest =>
    have hother := (hends c rfl).not_part.2.2
    simp only [List.mem_cons, not_or] at hother
    simp [hother]

/-- Decimal digits are read as an integer in front of what may stand behind a value. -/
theorem number_append (n : Nat) (hends : ∀ c ∈ rest.head?, EndsValue c) :
    number (Nat.toDigits 10 n ++ rest) = decimalInteger false (Nat.toDigits 10 n) rest := by
  have hwhole := wholeDigits_append n hends
  obtain ⟨first, digits, hfirst, hzero⟩ := toDigits_eq_cons n
  have hdigit : first.isDigit := isDigit_of_mem_toDigits (hfirst ▸ List.mem_cons_self)
  rw [hfirst] at hwhole ⊢
  -- A zero in front is the whole number, so what ends it follows.
  have hmark {mark : Char} {more : List Char} (h : first :: digits ++ rest = '0' :: mark :: more) :
      mark ∉ ['_', '-', ':', 'x', 'o', 'b', '.', 'e', 'E'] := by
    obtain ⟨rfl, hrest⟩ := List.cons.inj h
    rw [List.append_eq, hzero rfl, List.nil_append] at hrest
    exact (hends mark (hrest ▸ rfl)).not_part.2.2
  have hsign : splitSign (first :: digits ++ rest) = (false, first :: digits ++ rest) := by
    unfold splitSign
    split
    · rename_i h
      obtain ⟨rfl, -⟩ := List.cons.inj h
      exact absurd hdigit (by decide)
    · rename_i h
      obtain ⟨rfl, -⟩ := List.cons.inj h
      exact absurd hdigit (by decide)
    · rfl
  unfold number
  split
  · exact absurd (hmark ‹_›) (by decide)
  · exact absurd (hmark ‹_›) (by decide)
  · exact absurd (hmark ‹_›) (by decide)
  · rw [hsign]
    simp only [hwhole]
    exact if_neg (not_floating hends)

/-- So are decimal digits behind a minus sign. -/
theorem number_minus_append (n : Nat) (hends : ∀ c ∈ rest.head?, EndsValue c) :
    number ('-' :: (Nat.toDigits 10 n ++ rest)) = decimalInteger true (Nat.toDigits 10 n) rest := by
  have hsign : splitSign ('-' :: (Nat.toDigits 10 n ++ rest)) =
      (true, Nat.toDigits 10 n ++ rest) := rfl
  unfold number
  split
  · exact absurd (List.cons.inj ‹_›).1 (by decide)
  · exact absurd (List.cons.inj ‹_›).1 (by decide)
  · exact absurd (List.cons.inj ‹_›).1 (by decide)
  · rw [hsign]
    simp only [wholeDigits_append n hends]
    exact if_neg (not_floating hends)

/-- A whole number is read back if it is one of 64 bits with a sign. -/
theorem readNumeric_toString (n : Int) (hends : ∀ c ∈ rest.head?, EndsValue c) :
    readNumeric ((toString n).toList ++ rest) =
      if -2 ^ 63 ≤ n ∧ n < 2 ^ 63 then .ok (.integer n, rest) else .error .malformed := by
  by_cases hn : n < 0
  · have hvalue : -(n.natAbs : Int) = n := by omega
    rw [toList_toString_of_neg hn, List.cons_append, readNumeric, moment_cons (by decide)]
    dsimp only
    rw [number_minus_append _ hends, decimalInteger, digitsValue_toDigits]
    simp only [if_true, hvalue]
    rfl
  · have hvalue : (n.natAbs : Int) = n := by omega
    rw [toList_toString_of_nonneg (Int.not_lt.mp hn), readNumeric,
      moment_append (fun _ ↦ isDigit_of_mem_toDigits) hends]
    dsimp only
    rw [number_append _ hends, decimalInteger, digitsValue_toDigits]
    simp only [Bool.false_eq_true, if_false, hvalue]
    rfl

end FrameSorter.Toml
