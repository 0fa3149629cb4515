import FrameSorter.Document.Record
import FrameSorter.Json.Number

/-!
# Reading JSON

A configuration is read from a JSON text from left to right, and the first complaint ends the
reading, whatever follows it (`Json.readConfiguration`). A reader takes its value from the front of
the text and leaves the rest (`Reader`), so what stands behind a value never changes how the value is
read.

The grammar is strict: no comments, no comma after the last element, no raw controls in literals. A
member that is no member of the record is skipped (`skipValue`), to any depth; only there may a
literal escape half of a surrogate pair, and a number be too large. A record may also be a list of
its members in declaration order, cut off where the rest has defaults.
-/

set_option autoImplicit false
set_option relaxedAutoImplicit false

namespace FrameSorter.Json

/-- Takes a value from the front of a text and leaves the rest. -/
abbrev Reader := StateT (List Char) (Except Fault)

/-- Whether a character may stand between the parts of a document. -/
def isBlank (c : Char) : Bool :=
  c == ' ' || c == '\t' || c == '\n' || c == '\r'

/-- The text without the blanks in front. -/
def skipBlanks (s : List Char) : List Char :=
  s.dropWhile isBlank

/-- The text behind a word that stands in front of it. -/
def afterWord? : List Char → List Char → Option (List Char)
  | [], s => some s
  | c :: word, d :: s => if c = d then afterWord? word s else none
  | _ :: _, [] => none

/-! ### Literals -/

/-- The value of a hexadecimal digit. -/
def hexValue? (c : Char) : Option Nat :=
  if c.isDigit then some (c.toNat - '0'.toNat)
  else if 'a' ≤ c ∧ c ≤ 'f' then some (c.toNat - 'a'.toNat + 10)
  else if 'A' ≤ c ∧ c ≤ 'F' then some (c.toNat - 'A'.toNat + 10)
  else none

/-- The code unit that four hexadecimal digits spell. -/
def codeUnit? (a b c d : Char) : Option Nat := do
  return (((← hexValue? a) * 16 + (← hexValue? b)) * 16 + (← hexValue? c)) * 16 + (← hexValue? d)

/-- Whether a code unit is the first half of a surrogate pair. -/
def isHighSurrogate (unit : Nat) : Bool := 0xD800 ≤ unit && unit ≤ 0xDBFF

/-- Whether a code unit is the second half of a surrogate pair. -/
def isLowSurrogate (unit : Nat) : Bool := 0xDC00 ≤ unit && unit ≤ 0xDFFF

/-- The character that a surrogate pair stands for. -/
def pairedCharacter (high low : Nat) : Char :=
  Char.ofNat (0x10000 + (high - 0xD800) * 0x400 + (low - 0xDC00))

/-- The character that a backslash and this character stand for. -/
def escapedCharacter? (c : Char) : Option Char :=
  if c = '"' ∨ c = '\\' ∨ c = '/' then some c
  else if c = 'b' then some '\x08'
  else if c = 'f' then some '\x0c'
  else if c = 'n' then some '\n'
  else if c = 'r' then some '\r'
  else if c = 't' then some '\t'
  else none

/-- Puts a character in front of the characters that were read. -/
def prepend (c : Char) (read : Except Fault (List Char × List Char)) :
    Except Fault (List Char × List Char) :=
  read.map fun (characters, rest) ↦ (c :: characters, rest)

/-- The characters of a literal, behind its opening quotation mark. -/
def readCharacters : List Char → Except Fault (List Char × List Char)
  | [] => .error .malformed
  | '"' :: rest => .ok ([], rest)
  | '\\' :: 'u' :: a :: b :: c :: d :: rest =>
    match codeUnit? a b c d with
    | none => .error .malformed
    | some unit =>
      if isHighSurrogate unit then
        match rest with
        | '\\' :: 'u' :: e :: f :: g :: h :: rest =>
          match codeUnit? e f g h with
          | none => .error .malformed
          | some low =>
            if isLowSurrogate low then prepend (pairedCharacter unit low) (readCharacters rest)
            else .error .malformed
        | _ => .error .malformed
      else if isLowSurrogate unit then .error .malformed
      else prepend (Char.ofNat unit) (readCharacters rest)
  | '\\' :: c :: rest =>
    match escapedCharacter? c with
    | none => .error .malformed
    | some escaped => prepend escaped (readCharacters rest)
  | c :: rest =>
    if c = '\\' ∨ c.toNat < 0x20 then .error .malformed else prepend c (readCharacters rest)

/-- The text behind a literal whose opening quotation mark was read and whose content does not
matter. -/
def skipCharacters : List Char → Except Fault (List Char)
  | [] => .error .malformed
  | '"' :: rest => .ok rest
  | '\\' :: 'u' :: a :: b :: c :: d :: rest =>
    match codeUnit? a b c d with
    | none => .error .malformed
    | some _ => skipCharacters rest
  | '\\' :: c :: rest =>
    match escapedCharacter? c with
    | none => .error .malformed
    | some _ => skipCharacters rest
  | c :: rest => if c = '\\' ∨ c.toNat < 0x20 then .error .malformed else skipCharacters rest

/-- A text behind its opening quotation mark. -/
def readLiteral (s : List Char) : Except Fault (String × List Char) :=
  (readCharacters s).map fun (characters, rest) ↦ (String.ofList characters, rest)

/-! ### Values that are not the expected ones -/

/-- The number in front of a text. -/
def readNumber (s : List Char) : Except Fault (Number × List Char) :=
  match NumberParts.ofText? s with
  | none => .error .malformed
  | some (parts, rest) =>
    match parts.number? with
    | none => .error .malformed
    | some number => .ok (number, rest)

/-- How a message speaks of a number. -/
def Number.found : Number → Found
  | .integer value => .integer value
  | .floating written => .floating written

/-- What stands in front of a text without blanks. A list or an object is known by its bracket. -/
def whatIsFound : List Char → Except Fault Found
  | [] => .error .malformed
  | '[' :: _ => .ok .sequence
  | '\x7b' :: _ => .ok .map
  | '"' :: rest => (readLiteral rest).map fun (content, _) ↦ .text content
  | c :: rest =>
    if c = '-' ∨ c.isDigit then (readNumber (c :: rest)).map fun (number, _) ↦ number.found
    else if (afterWord? ['n', 'u', 'l', 'l'] (c :: rest)).isSome then .ok .null
    else if (afterWord? ['t', 'r', 'u', 'e'] (c :: rest)).isSome then .ok (.boolean true)
    else if (afterWord? ['f', 'a', 'l', 's', 'e'] (c :: rest)).isSome then .ok (.boolean false)
    else .error .malformed

/-- The complaint that a text without blanks does not start with the expected kind of value. -/
def mismatch {α : Type} (s : List Char) (expected : Expected) : Except Fault α :=
  match whatIsFound s with
  | .error fault => .error fault
  | .ok found => .error (.mismatch found expected)

/-! ### Skipping -/

/-- What holds a value that is being skipped. -/
inductive Holder
  | list
  | object
  deriving DecidableEq, Repr

/-- What has to come next while a value is being skipped. -/
inductive Awaited
  | value
  | key
  | continuation
  deriving DecidableEq, Repr

/-- The text behind a value without members: a literal, a number or a word. -/
def skipScalar : List Char → Except Fault (List Char)
  | [] => .error .malformed
  | '"' :: rest => skipCharacters rest
  | c :: rest =>
    if c = '-' ∨ c.isDigit then
      match NumberParts.ofText? (c :: rest) with
      | none => .error .malformed
      | some (_, rest) => .ok rest
    else
      match (afterWord? ['n', 'u', 'l', 'l'] (c :: rest)).or
          ((afterWord? ['t', 'r', 'u', 'e'] (c :: rest)).or
            (afterWord? ['f', 'a', 'l', 's', 'e'] (c :: rest))) with
      | none => .error .malformed
      | some rest => .ok rest

/-- Skips up to the end of the outermost value. Every step but the last takes a character, so the
length of the text bounds the number of steps. -/
def skip : (steps : Nat) → Awaited → List Holder → List Char → Except Fault (List Char)
  | 0, _, _, _ => .error .malformed
  | steps + 1, .value, holders, s =>
    match skipBlanks s with
    | '[' :: rest =>
      match skipBlanks rest with
      | ']' :: rest => skip steps .continuation holders rest
      | rest => skip steps .value (.list :: holders) rest
    | '\x7b' :: rest =>
      match skipBlanks rest with
      | '\x7d' :: rest => skip steps .continuation holders rest
      | rest => skip steps .key (.object :: holders) rest
    | s =>
      match skipScalar s with
      | .error fault => .error fault
      | .ok rest => skip steps .continuation holders rest
  | steps + 1, .key, holders, s =>
    match skipBlanks s with
    | '"' :: rest =>
      match skipCharacters rest with
      | .error fault => .error fault
      | .ok rest =>
        match skipBlanks rest with
        | ':' :: rest => skip steps .value holders rest
        | _ => .error .malformed
    | _ => .error .malformed
  | _ + 1, .continuation, [], s => .ok s
  | steps + 1, .continuation, .list :: holders, s =>
    match skipBlanks s with
    | ']' :: rest => skip steps .continuation holders rest
    | ',' :: rest => skip steps .value (.list :: holders) rest
    | _ => .error .malformed
  | steps + 1, .continuation, .object :: holders, s =>
    match skipBlanks s with
    | '\x7d' :: rest => skip steps .continuation holders rest
    | ',' :: rest => skip steps .key (.object :: holders) rest
    | _ => .error .malformed

/-- Skips one value of any kind. -/
def skipValue : Reader Unit := fun s ↦
  (skip (s.length + 1) .value [] s).map fun rest ↦ ((), rest)

/-! ### Texts and numbers -/

/-- A text. -/
def text : Reader String := fun s ↦
  match skipBlanks s with
  | '"' :: rest => readLiteral rest
  | s => mismatch s .text

/-- A text or null. -/
def optionalText : Reader (Option String) := fun s ↦
  match skipBlanks s with
  | 'n' :: rest =>
    match afterWord? ['u', 'l', 'l'] rest with
    | none => .error .malformed
    | some rest => .ok (none, rest)
  | s => (text s).map fun (content, rest) ↦ (some content, rest)

/-- A whole number of 32 bits. -/
def word : Reader UInt32 := fun s ↦
  match skipBlanks s with
  | [] => .error .malformed
  | c :: rest =>
    if c = '-' ∨ c.isDigit then
      match readNumber (c :: rest) with
      | .error fault => .error fault
      | .ok (.floating written, _) => .error (.mismatch (.floating written) .word)
      | .ok (.integer value, rest) =>
        if 0 ≤ value ∧ value < UInt32.size then .ok (value.toNat.toUInt32, rest)
        else .error (.outOfRange value)
    else mismatch (c :: rest) .word

/-! ### Lists and records -/

/-- Whether a list goes on, and the text from its next element, or from its closing bracket, on. -/
def hasElement (isFirst : Bool) : Reader Bool := fun s ↦
  match skipBlanks s with
  | [] => .error .malformed
  | ']' :: rest => .ok (false, ']' :: rest)
  | c :: rest =>
    if isFirst then .ok (true, c :: rest)
    else if c = ',' then
      match skipBlanks rest with
      | [] => .error .malformed
      | ']' :: _ => .error .malformed
      | rest => .ok (true, rest)
    else .error .malformed

/-- The closing bracket of a list. -/
def closeList : Reader Unit := fun s ↦
  match skipBlanks s with
  | ']' :: rest => .ok ((), rest)
  | _ => .error .malformed

/-- The elements of a list up to its closing bracket. Every element takes a character. -/
def elements {α : Type} (element : Reader α) : (steps : Nat) → (isFirst : Bool) → Reader (List α)
  | 0, _ => throw .malformed
  | steps + 1, isFirst => do
    if ← hasElement isFirst then
      let head ← element
      let tail ← elements element steps false
      return head :: tail
    else
      return []

/-- A list. -/
def list {α : Type} (element : Reader α) : Reader (List α) := fun s ↦
  match skipBlanks s with
  | '[' :: rest => (do
      let found ← elements element (rest.length + 1) true
      closeList
      return found : Reader (List α)) rest
  | s => mismatch s .sequence

/-- The members that a list gives by position. -/
def positions {α : Type} : List (Member Reader α) → (isFirst : Bool) → Draft α → Reader (Draft α)
  | [], _, draft => return draft
  | member :: rest, isFirst, draft => do
    if ← hasElement isFirst then
      let change ← member.read
      positions rest false (draft.set member.name change)
    else
      return draft

/-- The colon behind a key. -/
def colon : Reader Unit := fun s ↦
  match skipBlanks s with
  | ':' :: rest => .ok ((), rest)
  | _ => .error .malformed

/-- The key of the next member, or nothing in front of the closing brace. -/
def nextKey (isFirst : Bool) : Reader (Option String) := fun s ↦
  match skipBlanks s with
  | '\x7d' :: rest => .ok (none, '\x7d' :: rest)
  | ',' :: rest =>
    if isFirst then .error .malformed
    else
      match skipBlanks rest with
      | '"' :: rest => (readLiteral rest).map fun (key, rest) ↦ (some key, rest)
      | _ => .error .malformed
  | '"' :: rest =>
    if isFirst then (readLiteral rest).map fun (key, rest) ↦ (some key, rest)
    else .error .malformed
  | _ => .error .malformed

/-- The member with a key: a known one is read, unless it was read before, and an unknown one is
skipped. -/
def memberValue {α : Type} (record : Record Reader α) (draft : Draft α) (key : String) :
    Reader (Draft α) :=
  match record.member? key with
  | none => do
    colon
    skipValue
    return draft
  | some member =>
    if key ∈ draft.present then throw (.repeatedMember record.name key)
    else do
      colon
      let change ← member.read
      return draft.set key change

/-- The members that an object gives by name, up to its closing brace. Every member takes a
character. -/
def members {α : Type} (record : Record Reader α) :
    (steps : Nat) → (isFirst : Bool) → Draft α → Reader (Draft α)
  | 0, _, _ => throw .malformed
  | steps + 1, isFirst, draft => do
    match ← nextKey isFirst with
    | none => return draft
    | some key =>
      let draft ← memberValue record draft key
      members record steps false draft

/-- The closing brace of an object. -/
def closeObject : Reader Unit := fun s ↦
  match skipBlanks s with
  | '\x7d' :: rest => .ok ((), rest)
  | _ => .error .malformed

/-- A record: an object with its members, or a list of them. -/
def record {α : Type} (record : Record Reader α) : Reader α := fun s ↦
  match skipBlanks s with
  | '[' :: rest => (do
      let draft ← positions record.members true (Draft.start record)
      let value ← liftM (draft.finishPositional record)
      closeList
      return value : Reader α) rest
  | '\x7b' :: rest => (do
      let draft ← members record (rest.length + 1) true (Draft.start record)
      let value ← liftM (draft.finish record)
      closeObject
      return value : Reader α) rest
  | s => mismatch s (.record record.name)

/-! ### Documents -/

/-- How JSON reads the values of a configuration. -/
def reading : Reading Reader where
  text := text
  optionalText := optionalText
  word := word
  list := list
  record := record

/-- The configuration that a JSON text is. Behind it, only blanks may stand. -/
def readConfiguration (document : String) : Except Fault Configuration :=
  match record (Configuration.record reading) document.toList with
  | .error fault => .error fault
  | .ok (config, rest) => if skipBlanks rest = [] then .ok config else .error .malformed

end FrameSorter.Json
