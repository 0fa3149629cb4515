import FrameSorter.Document.Fault

/-!
# RON tokens

The smallest parts of a RON text and how they are taken from its front: what may stand between two
tokens (`between`), identifiers (`identifier?`), texts in quotation marks or raw (`string`),
characters (`character`), whole numbers (`readWord`) and numbers of any kind (`skipNumber`).
-/

set_option autoImplicit false
set_option relaxedAutoImplicit false

namespace FrameSorter.Ron

/-- Takes a value from the front of a text and leaves the rest. -/
abbrev Scanner := StateT (List Char) (Except Fault)

/-! ### Blanks and comments -/

/-- Whether a character is a blank. -/
def isBlank (c : Char) : Bool :=
  c == ' ' || c == '\t' || c == '\n' || c == '\r'

/-- What is being skipped between two tokens. The depth of a comment counts the comments that it
stands in. -/
inductive Gap
  | blanks
  | lineComment
  | blockComment (depth : Nat)
  deriving DecidableEq, Repr

/-- The text behind the blanks and comments in front of it. A block comment may hold others, and has
to end. -/
def skipGap : Gap → List Char → Except Fault (List Char)
  | .blanks, [] => .ok []
  | .blanks, '/' :: '/' :: rest => skipGap .lineComment rest
  | .blanks, '/' :: '*' :: rest => skipGap (.blockComment 0) rest
  | .blanks, c :: rest =>
    if isBlank c then skipGap .blanks rest
    else if c = '/' then .error .malformed
    else .ok (c :: rest)
  | .lineComment, [] => .ok []
  | .lineComment, c :: rest => if c = '\n' then skipGap .blanks rest else skipGap .lineComment rest
  | .blockComment _, [] => .error .malformed
  | .blockComment depth, '/' :: '*' :: rest => skipGap (.blockComment (depth + 1)) rest
  | .blockComment 0, '*' :: '/' :: rest => skipGap .blanks rest
  | .blockComment (depth + 1), '*' :: '/' :: rest => skipGap (.blockComment depth) rest
  | .blockComment depth, _ :: rest => skipGap (.blockComment depth) rest

/-- Skips what may stand between two tokens. -/
def between : Scanner Unit := fun s ↦
  (skipGap .blanks s).map fun rest ↦ ((), rest)

/-! ### Words and signs -/

/-- Whether a character may be the first one of an identifier. -/
def isIdentifierStart (c : Char) : Bool :=
  c.isAlpha || c == '_'

/-- Whether a character may be part of an identifier. -/
def isIdentifierPart (c : Char) : Bool :=
  c.isAlphanum || c == '_'

/-- Whether a character may be part of a raw identifier. -/
def isRawIdentifierPart (c : Char) : Bool :=
  isIdentifierPart c || c == '.' || c == '+' || c == '-'

/-- The text behind a word that stands in front of it. -/
def afterWord? : List Char → List Char → Option (List Char)
  | [], s => some s
  | c :: word, d :: s => if c = d then afterWord? word s else none
  | _ :: _, [] => none

/-- Whether the text goes on with a character of an identifier. -/
def goesOn (s : List Char) : Bool :=
  s.head?.any isIdentifierPart

/-- The text behind a word that stands in front of it as an identifier of its own. -/
def afterIdentifier? (word : String) (s : List Char) : Option (List Char) :=
  (afterWord? word.toList s).filter (!goesOn ·)

/-- An identifier that is not raw. What could only be a raw identifier is none. -/
def plainIdentifier? (s : List Char) : Option (String × List Char) :=
  let name := s.takeWhile isIdentifierPart
  let rest := s.dropWhile isIdentifierPart
  if rest.head?.any isRawIdentifierPart then none else some (String.ofList name, rest)

/-- The identifier in front of a text. A raw one follows a letter and a number sign. -/
def identifier? (s : List Char) : Option (String × List Char) :=
  match s with
  | [] => none
  | ['r'] => none
  | 'r' :: '"' :: _ => none
  | 'r' :: '#' :: rest =>
    if rest.head?.any isRawIdentifierPart then
      some (String.ofList (rest.takeWhile isRawIdentifierPart), rest.dropWhile isRawIdentifierPart)
    else none
  | c :: _ => if isIdentifierStart c then plainIdentifier? s else none

/-- An identifier. -/
def identifier : Scanner String := fun s ↦
  match identifier? s with
  | none => .error .malformed
  | some found => .ok found

/-- Takes a character if it is there. -/
def take (c : Char) : Scanner Bool := fun s ↦
  match s with
  | [] => .ok (false, [])
  | d :: rest => if d = c then .ok (true, rest) else .ok (false, d :: rest)

/-- Takes a character that has to be there. -/
def expect (c : Char) : Scanner Unit := do
  unless ← take c do throw .malformed

/-- Takes a comma if there is one, and skips what stands around it. -/
def comma : Scanner Bool := do
  between
  if ← take ',' then
    between
    return true
  else
    return false

/-! ### Texts and characters -/

/-- The value of a hexadecimal digit. -/
def hexValue? (c : Char) : Option Nat :=
  if c.isDigit then some (c.toNat - '0'.toNat)
  else if 'a' ≤ c ∧ c ≤ 'f' then some (c.toNat - 'a'.toNat + 10)
  else if 'A' ≤ c ∧ c ≤ 'F' then some (c.toNat - 'A'.toNat + 10)
  else none

/-- The character that a backslash and this character stand for. -/
def escapedCharacter? (c : Char) : Option Char :=
  if c = '\'' ∨ c = '"' ∨ c = '\\' then some c
  else if c = 'n' then some '\n'
  else if c = 'r' then some '\r'
  else if c = 't' then some '\t'
  else if c = '0' then some '\x00'
  else none

/-- The number that one to six hexadecimal digits in front of a closing brace spell, and the text
behind the brace. -/
def bracedNumber? : (left : Nat) → (value : Nat) → List Char → Option (Nat × List Char)
  | 0, value, '\x7d' :: rest => some (value, rest)
  | left + 1, value, c :: rest =>
    if c = '\x7d' then if left = 5 then none else some (value, rest)
    else
      match hexValue? c with
      | none => none
      | some digit => bracedNumber? left (value * 16 + digit) rest
  | _, _, _ => none

/-- The character with this code point. -/
def character? (code : Nat) : Option Char :=
  if h : code.isValidChar then some (Char.ofNatAux code h) else none

/-- The character that an escape stands for, behind its backslash. -/
def escape? : List Char → Option (Char × List Char)
  | 'x' :: a :: b :: rest => do
    let code := (← hexValue? a) * 16 + (← hexValue? b)
    return (← character? code, rest)
  | 'u' :: '\x7b' :: rest => do
    let (code, rest) ← bracedNumber? 6 0 rest
    return (← character? code, rest)
  | c :: rest => do return (← escapedCharacter? c, rest)
  | [] => none

/-- Puts a character in front of the characters that were read. -/
def prepend (c : Char) (read : Except Fault (List Char × List Char)) :
    Except Fault (List Char × List Char) :=
  read.map fun (characters, rest) ↦ (c :: characters, rest)

/-- The characters of a text in quotation marks, behind the first mark. -/
def readCharacters : (steps : Nat) → List Char → Except Fault (List Char × List Char)
  | 0, _ => .error .malformed
  | _ + 1, [] => .error .malformed
  | steps + 1, c :: rest =>
    if c = '"' then .ok ([], rest)
    else if c = '\\' then
      match escape? rest with
      | none => .error .malformed
      | some (escaped, rest) => prepend escaped (readCharacters steps rest)
    else prepend c (readCharacters steps rest)

/-- The characters of a raw text, up to a quotation mark with as many number signs behind it as stand
in front of the text. -/
def readRaw (hashes : Nat) : List Char → Except Fault (List Char × List Char)
  | [] => .error .malformed
  | c :: rest =>
    match (if c = '"' then afterWord? (List.replicate hashes '#') rest else none) with
    | some rest => .ok ([], rest)
    | none => prepend c (readRaw hashes rest)

/-- A text. -/
def string : Scanner String := fun s ↦
  match s with
  | '"' :: rest =>
    (readCharacters (rest.length + 1) rest).map fun (characters, rest) ↦
      (String.ofList characters, rest)
  | 'r' :: rest =>
    let hashes := (rest.takeWhile (· == '#')).length
    match rest.dropWhile (· == '#') with
    | '"' :: rest =>
      (readRaw hashes rest).map fun (characters, rest) ↦ (String.ofList characters, rest)
    | _ => .error .malformed
  | _ => .error .malformed

/-- Skips a character in apostrophes. -/
def skipCharacter : List Char → Except Fault (List Char)
  | '\'' :: '\\' :: rest =>
    match escape? rest with
    | some (_, '\'' :: rest) => .ok rest
    | _ => .error .malformed
  | '\'' :: c :: '\'' :: rest => if c = '\'' then .error .malformed else .ok rest
  | _ => .error .malformed

/-! ### Numbers -/

/-- Whether a character may be part of a whole number in some base. -/
def isWholePart (c : Char) : Bool :=
  (hexValue? c).isSome || c == '_'

/-- Whether a character may be part of a number with a fraction. -/
def isFloatPart (c : Char) : Bool :=
  c.isDigit || c == '.' || c == '+' || c == '-' || c == 'e' || c == 'E' || c == '_'

/-- Why digits are no number. -/
inductive DigitFault
  | notADigit
  | tooLarge
  deriving DecidableEq, Repr

/-- The number that digits spell in a base, up to a limit. Low lines do not count. -/
def digitsValue (base limit : Nat) : (value : Nat) → List Char → Except DigitFault Nat
  | value, [] => .ok value
  | value, c :: rest =>
    if c = '_' then digitsValue base limit value rest
    else if limit < value * base then .error .tooLarge
    else
      match hexValue? c with
      | none => .error .notADigit
      | some digit =>
        if base ≤ digit then .error .notADigit
        else if limit < value * base + digit then .error .tooLarge
        else digitsValue base limit (value * base + digit) rest

/-- The base that a number starts with, and the text behind the mark of the base. -/
def splitBase (s : List Char) : Nat × List Char :=
  match s with
  | '0' :: 'x' :: rest => (16, rest)
  | '0' :: 'b' :: rest => (2, rest)
  | '0' :: 'o' :: rest => (8, rest)
  | _ => (10, s)

/-- The whole number up to a limit that stands in front of a text, without a sign. -/
def readWhole (limit : Nat) (s : List Char) : Except DigitFault (Nat × List Char) :=
  let (base, digits) := splitBase s
  match digits.takeWhile isWholePart with
  | [] => .error .notADigit
  | '_' :: _ => .error .notADigit
  | written =>
    (digitsValue base limit 0 written).map fun value ↦ (value, digits.dropWhile isWholePart)

/-- A whole number of 32 bits. -/
def readWord : Scanner UInt32 := fun s ↦
  match readWhole (UInt32.size - 1) s with
  | .error _ => .error .malformed
  | .ok (value, rest) => .ok (value.toUInt32, rest)

/-- The text without the sign in front of it. -/
def withoutSign (s : List Char) : List Char :=
  match s with
  | '+' :: rest => rest
  | '-' :: rest => rest
  | _ => s

/-- Whether the characters are a decimal number: digits with a point or none among them, and a power
of ten or none. -/
def isDecimal (s : List Char) : Bool :=
  let unsigned := withoutSign s
  let whole := unsigned.takeWhile Char.isDigit
  let (fraction, rest) :=
    match unsigned.dropWhile Char.isDigit with
    | '.' :: rest => (rest.takeWhile Char.isDigit, rest.dropWhile Char.isDigit)
    | rest => ([], rest)
  let isPower : Bool :=
    match rest with
    | [] => true
    | c :: power =>
      (c == 'e' || c == 'E') && !(withoutSign power).isEmpty && (withoutSign power).all Char.isDigit
  !(whole.isEmpty && fraction.isEmpty) && isPower

/-- Skips a number with a fraction or a power of ten. -/
def skipFloat (s : List Char) : Except Fault (List Char) :=
  if isDecimal (s.takeWhile isFloatPart) then .ok (s.dropWhile isFloatPart) else .error .malformed

/-- The largest whole number that is read as such, by the sign in front of it. -/
def wholeLimit (s : List Char) : Nat :=
  match s.head? with
  | some '+' => Nat.pow 2 63 - 1
  | some '-' => Nat.pow 2 63
  | _ => UInt64.size - 1

/-- Skips a number of any kind. It has a fraction if more of its characters fit a number with a
fraction than a whole number, and a whole number that is too large is tried as one with a
fraction. -/
def skipNumber (s : List Char) : Except Fault (List Char) :=
  let unsigned := withoutSign s
  if (unsigned.takeWhile isWholePart).length < (unsigned.takeWhile isFloatPart).length then
    skipFloat s
  else
    match readWhole (wholeLimit s) unsigned with
    | .ok (_, rest) => .ok rest
    | .error .notADigit => .error .malformed
    | .error .tooLarge => skipFloat s

end FrameSorter.Ron
