import FrameSorter.Toml.Number

/-!
# TOML texts and keys

A text stands in quotation marks, where a backslash starts an escape, or in apostrophes, where it does
not; either mark three times encloses a text of several lines (`text`). A line break in such a text
is a line feed, however it is written. A key is a text on one line or a bare word, or several of them
with dots between (`key`).
-/

set_option autoImplicit false
set_option relaxedAutoImplicit false

namespace FrameSorter.Toml

/-! ### Blanks, line breaks and comments -/

/-- Whether a character is a blank within a line. -/
def isBlank (c : Char) : Bool :=
  c == ' ' || c == '\t'

/-- The text without the blanks in front. -/
def skipBlanks (s : List Char) : List Char :=
  s.dropWhile isBlank

/-- The text behind a line break that stands in front of it. -/
def afterLineBreak? : List Char → Option (List Char)
  | '\n' :: rest => some rest
  | '\r' :: '\n' :: rest => some rest
  | _ => none

/-- The text without a line break in front. -/
def skipLineBreak (s : List Char) : List Char :=
  (afterLineBreak? s).getD s

/-- Whether a character may stand in a comment: all do but controls other than the tabulator. -/
def isPrinting (c : Char) : Bool :=
  c == '\t' || (0x20 ≤ c.toNat && c != '\x7f')

/-- The text from the end of the comment in front of it on, if there is a comment. -/
def skipComment : List Char → List Char
  | '#' :: rest => rest.dropWhile isPrinting
  | s => s

/-- The rest of a line that may hold a comment only. -/
def endOfLine (s : List Char) : Except Fault (List Char) :=
  match skipComment (skipBlanks s) with
  | [] => .ok []
  | s =>
    match afterLineBreak? s with
    | none => .error .malformed
    | some rest => .ok rest

/-! ### Escapes -/

/-- The character with this code point. -/
def character? (code : Nat) : Option Char :=
  if h : code.isValidChar then some (Char.ofNatAux code h) else none

/-- The character that exactly `count` hexadecimal digits spell. -/
def spelledCharacter? (count : Nat) (s : List Char) : Option (Char × List Char) := do
  let digits := s.take count
  if digits.length = count ∧ digits.all isHexDigit then
    return (← character? (digitsValue 16 digits), s.drop count)
  else none

/-- The character that an escape stands for, behind its backslash. -/
def escape? : List Char → Option (Char × List Char)
  | [] => none
  | c :: rest =>
    if c = 'b' then some ('\x08', rest)
    else if c = 'f' then some ('\x0c', rest)
    else if c = 'n' then some ('\n', rest)
    else if c = 'r' then some ('\r', rest)
    else if c = 't' then some ('\t', rest)
    else if c = '"' ∨ c = '\\' then some (c, rest)
    else if c = 'u' then spelledCharacter? 4 rest
    else if c = 'U' then spelledCharacter? 8 rest
    else none

/-- Puts a character in front of the characters that were read. -/
def prepend (c : Char) (read : Except Fault (List Char × List Char)) :
    Except Fault (List Char × List Char) :=
  read.map fun (characters, rest) ↦ (c :: characters, rest)

/-! ### Texts on one line -/

/-- The characters of a text in quotation marks, behind the first mark. -/
def readBasic : (steps : Nat) → List Char → Except Fault (List Char × List Char)
  | 0, _ => .error .malformed
  | _ + 1, [] => .error .malformed
  | steps + 1, c :: rest =>
    if c = '"' then .ok ([], rest)
    else if c = '\\' then
      match escape? rest with
      | none => .error .malformed
      | some (escaped, rest) => prepend escaped (readBasic steps rest)
    else if isPrinting c then prepend c (readBasic steps rest)
    else .error .malformed

/-- The characters of a text in apostrophes, behind the first one. -/
def readLiteral : List Char → Except Fault (List Char × List Char)
  | [] => .error .malformed
  | c :: rest =>
    if c = '\'' then .ok ([], rest)
    else if isPrinting c then prepend c (readLiteral rest)
    else .error .malformed

/-! ### Texts of several lines -/

/-- The number of marks in front of a text. -/
def countMarks (mark : Char) (s : List Char) : Nat :=
  (s.takeWhile (· == mark)).length

/-- What a run of three marks or more leaves to the text that it ends: at most two marks. -/
def closingMarks (mark : Char) (s : List Char) : List Char × List Char :=
  let kept := min (countMarks mark s - 3) 2
  (List.replicate kept mark, s.drop (kept + 3))

/-- The text behind a backslash that ends a line, without the blanks and line breaks that follow. -/
def afterLineEnd? (s : List Char) : Option (List Char) :=
  (afterLineBreak? (skipBlanks s)).map fun rest ↦ skipGap rest
where
  /-- The text without the blanks and line breaks in front. -/
  skipGap : List Char → List Char
    | '\r' :: '\n' :: rest => skipGap rest
    | c :: rest => if isBlank c ∨ c = '\n' then skipGap rest else c :: rest
    | [] => []

/-- The characters of a text of several lines, behind the marks in front of it. In quotation marks a
backslash starts an escape, or ends a line that goes on in the next one. -/
def readLines (mark : Char) : (steps : Nat) → List Char → Except Fault (List Char × List Char)
  | 0, _ => .error .malformed
  | _ + 1, [] => .error .malformed
  | steps + 1, c :: rest =>
    if c = mark then
      if 3 ≤ countMarks mark (c :: rest) then .ok (closingMarks mark (c :: rest))
      else prepend c (readLines mark steps rest)
    else if c = '\\' ∧ mark = '"' then
      match afterLineEnd? rest with
      | some rest => readLines mark steps rest
      | none =>
        match escape? rest with
        | none => .error .malformed
        | some (escaped, rest) => prepend escaped (readLines mark steps rest)
    else
      match afterLineBreak? (c :: rest) with
      | some rest => prepend '\n' (readLines mark steps rest)
      | none => if isPrinting c then prepend c (readLines mark steps rest) else .error .malformed

/-- A text of any kind. -/
def text : Scanner String := fun s ↦
  let read :=
    match s with
    | '"' :: '"' :: '"' :: rest => readLines '"' (rest.length + 1) (skipLineBreak rest)
    | '\'' :: '\'' :: '\'' :: rest => readLines '\'' (rest.length + 1) (skipLineBreak rest)
    | '"' :: rest => readBasic (rest.length + 1) rest
    | '\'' :: rest => readLiteral rest
    | _ => .error .malformed
  read.map fun (characters, rest) ↦ (String.ofList characters, rest)

/-! ### Keys -/

/-- Whether a character may be part of a bare key. -/
def isBareKeyPart (c : Char) : Bool :=
  c.isAlphanum || c == '-' || c == '_'

/-- One part of a key. -/
def keyPart : Scanner String := fun s ↦
  match s with
  | '"' :: rest =>
    (readBasic (rest.length + 1) rest).map fun (characters, rest) ↦
      (String.ofList characters, rest)
  | '\'' :: rest =>
    (readLiteral rest).map fun (characters, rest) ↦ (String.ofList characters, rest)
  | _ =>
    match s.takeWhile isBareKeyPart with
    | [] => .error .malformed
    | name => .ok (String.ofList name, s.dropWhile isBareKeyPart)

/-- The parts of a key, with the blanks around them. Every part takes a character. -/
def keyParts : (steps : Nat) → Scanner (List String)
  | 0 => throw .malformed
  | steps + 1 => do
    modify skipBlanks
    let part ← keyPart
    modify skipBlanks
    match ← get with
    | '.' :: rest =>
      set rest
      return part :: (← keyParts steps)
    | _ => return [part]

/-- The number of parts that a key has to stay below, and the number of brackets that may be open. -/
def depthLimit : Nat := 80

/-- A key: the parts but the last, and the last one. -/
def key : Scanner (List String × String) := do
  let parts ← keyParts ((← get).length + 1)
  match parts.getLast? with
  | none => throw .malformed
  | some last =>
    if parts.length < depthLimit then return (parts.dropLast, last) else throw .malformed

end FrameSorter.Toml
