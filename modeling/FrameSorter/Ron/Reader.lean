import FrameSorter.Document.Record
import FrameSorter.Ron.Token

/-!
# Reading RON

A configuration is read from a RON text from left to right (`Ron.readConfiguration`). In front of it
attributes may enable extensions (`attributes`); only one of them changes how a configuration is
read, in that a present option may then be written without `Some`.

How deep values may be nested is limited (`depthLimit`): every list, tuple, map or record takes one
level, every value in it another one, and so does `Some` (`nested`). The value of an unknown member is
skipped, whatever kind of value it is (`skipValue`), within the same limit.
-/

set_option autoImplicit false
set_option relaxedAutoImplicit false

namespace FrameSorter.Ron

/-- Takes a value from the front of a text, within a number of levels. -/
abbrev Reader := ReaderT Nat Scanner

/-- The number of levels that a document may have. -/
def depthLimit : Nat := 128

/-- Reads a value one level deeper. -/
def nested {α : Type} (read : Reader α) : Reader α := fun depth ↦
  match depth with
  | 0 => throw .malformed
  | depth + 1 => read depth

/-- Whether another element stands in front of the closing bracket. Without a comma behind the last
one there may be none. -/
def hasElement (close : Char) (hadComma : Bool) : Scanner Bool := fun s ↦
  match skipGap .blanks s with
  | .error fault => .error fault
  | .ok [] => .error .malformed
  | .ok (c :: rest) =>
    if c = close then .ok (false, c :: rest)
    else if hadComma then .ok (true, c :: rest)
    else .error .malformed

/-! ### Skipping -/

/-- Skips a value in front of a text. -/
abbrev Skip := List Char → Except Fault (List Char)

/-- Skips elements up to a closing bracket and the bracket. Every element takes a character. -/
def skipElements (close : Char) (element : Scanner Unit) :
    (steps : Nat) → (hadComma : Bool) → Scanner Unit
  | 0, _ => throw .malformed
  | steps + 1, hadComma => do
    if ← hasElement close hadComma then
      element
      skipElements close element steps (← comma)
    else
      expect close

/-- Skips a colon and the value behind it. -/
def skipBehindColon (value : Scanner Unit) : Scanner Unit := do
  between
  expect ':'
  between
  value

/-- Whether the text behind an opening parenthesis starts with the name of a member. -/
def startsWithName (s : List Char) : Except Fault Bool := do
  let s ← skipGap .blanks s
  match identifier? s with
  | none => return false
  | some (_, rest) => return (← skipGap .blanks rest).head? == some ':'

/-- Skips what stands behind an opening bracket. Without an element, nothing can be skipped that
stands deeper. -/
def skipBracket (element : Option Skip) (open_ : Char) : Scanner Unit := fun s ↦
  match element with
  | none => .error .malformed
  | some element =>
    let value : Scanner Unit := fun s ↦ (element s).map fun rest ↦ ((), rest)
    if open_ = '[' then skipElements ']' value (s.length + 1) true s
    else if open_ = '\x7b' then
      skipElements '\x7d' (do value; skipBehindColon value) (s.length + 1) true s
    else
      match startsWithName s with
      | .error fault => .error fault
      | .ok true =>
        skipElements ')' (do let _ ← identifier; skipBehindColon value) (s.length + 1) true s
      | .ok false => skipElements ')' value (s.length + 1) true s

/-- Skips what stands behind `Some`. -/
def skipOption (implicitSome : Bool) (value : Skip) : Scanner Unit := do
  between
  if ← take '(' then
    between
    (fun s ↦ (value s).map fun rest ↦ ((), rest) : Scanner Unit)
    let _ ← comma
    expect ')'
  else if implicitSome then
    (fun s ↦ (value s).map fun rest ↦ ((), rest) : Scanner Unit)
  else
    throw .malformed

/-- Skips a value. The one in an option is skipped by `option`, and those in brackets by `element`;
without `element` no bracket may be opened. -/
def skipWith (implicitSome : Bool) (option : Skip) (element : Option Skip) : Skip := fun s ↦
  let words := ["true", "false", "None", "inf", "-inf", "NaN"]
  match words.findSome? (afterIdentifier? · s) with
  | some rest => .ok rest
  | none =>
    match afterIdentifier? "Some" s with
    | some rest => (skipOption implicitSome option rest).map (·.2)
    | none =>
      match s with
      | '(' :: ')' :: rest => .ok rest
      | _ =>
        match identifier? s with
        | some (_, rest) =>
          match skipGap .blanks rest with
          | .error fault => .error fault
          | .ok ('(' :: rest) => (skipBracket element '(' rest).map (·.2)
          | .ok rest => .ok rest
        | none =>
          match s with
          | [] => .error .malformed
          | c :: rest =>
            if c = '(' ∨ c = '[' ∨ c = '\x7b' then (skipBracket element c rest).map (·.2)
            else if c.isDigit ∨ c = '+' ∨ c = '-' then skipNumber (c :: rest)
            else if c = '.' then skipFloat (c :: rest)
            else if c = '"' ∨ c = 'r' then (string (c :: rest)).map (·.2)
            else skipCharacter (c :: rest)

/-- Skips a value of any kind within a number of levels. -/
def skipValue (implicitSome : Bool) : (depth : Nat) → Skip
  | 0 => skipWith implicitSome (fun _ ↦ .error .malformed) none
  | 1 => skipWith implicitSome (skipValue implicitSome 0) (some fun _ ↦ .error .malformed)
  | depth + 2 =>
    skipWith implicitSome (skipValue implicitSome (depth + 1)) (some (skipValue implicitSome depth))

/-! ### Options, lists and records -/

/-- An option: `None`, or a value in `Some`; with the extension a value by itself is present. -/
def option {α : Type} (implicitSome : Bool) (value : Reader α) : Reader (Option α) := fun depth s ↦
  match afterIdentifier? "None" s with
  | some rest => .ok (none, rest)
  | none => (do
    let hasSome : Bool ← fun s ↦
      match afterIdentifier? "Some" s with
      | some rest => .ok (true, rest)
      | none => .ok (false, s)
    if hasSome then between
    if hasSome && (← take '(') then
      between
      let found ← nested value depth
      let _ ← comma
      expect ')'
      return some found
    else if implicitSome then
      return some (← nested value depth)
    else
      throw .malformed : Scanner (Option α)) s

/-- The elements of a list up to its closing bracket. Every element takes a character. -/
def elements {α : Type} (element : Reader α) :
    (steps : Nat) → (hadComma : Bool) → Reader (List α)
  | 0, _ => throw .malformed
  | steps + 1, hadComma => do
    if ← hasElement ']' hadComma then
      let head ← nested element
      let tail ← elements element steps (← comma)
      return head :: tail
    else
      return []

/-- A list. -/
def list {α : Type} (element : Reader α) : Reader (List α) := do
  expect '['
  let found ← nested do elements element ((← getThe (List Char)).length + 1) true
  expect ']'
  return found

/-- The colon behind the name of a member. -/
def colon : Scanner Unit := do
  between
  expect ':'
  between

/-- The member with a name: a known one is read, unless it was read before, and an unknown one is
skipped. -/
def memberValue {α : Type} (implicitSome : Bool) (record : Record Reader α) (draft : Draft α)
    (name : String) : Reader (Draft α) :=
  match record.member? name with
  | none => do
    colon
    nested fun depth s ↦ (skipValue implicitSome depth s).map fun rest ↦ ((), rest)
    return draft
  | some member =>
    if name ∈ draft.present then throw (.repeatedMember record.name name)
    else do
      colon
      let change ← nested member.read
      return draft.set name change

/-- The members of a record up to its closing parenthesis. Every member takes a character. -/
def members {α : Type} (implicitSome : Bool) (record : Record Reader α) :
    (steps : Nat) → (hadComma : Bool) → Draft α → Reader (Draft α)
  | 0, _, _ => throw .malformed
  | steps + 1, hadComma, draft => do
    if ← hasElement ')' hadComma then
      let draft ← memberValue implicitSome record draft (← identifier)
      members implicitSome record steps (← comma) draft
    else
      return draft

/-- The name of a record, which may be missing. -/
def recordName (name : String) : Scanner Unit := fun s ↦
  if goesOn s then
    match identifier? s with
    | none => .error .malformed
    | some (found, rest) => if found = name then .ok ((), rest) else .error .malformed
  else .ok ((), s)

/-- A record: its members in parentheses, with the name of the record in front or without. -/
def record {α : Type} (implicitSome : Bool) (record : Record Reader α) : Reader α := do
  recordName record.name
  between
  expect '('
  let value ← nested do
    let steps := (← getThe (List Char)).length + 1
    let draft ← members implicitSome record steps true (Draft.start record)
    liftM (draft.finish record)
  expect ')'
  return value

/-! ### Documents -/

/-- How RON reads the values of a configuration. -/
def reading (implicitSome : Bool) : Reading Reader where
  text := liftM string
  optionalText := option implicitSome (liftM string)
  word := liftM readWord
  list := list
  record := record implicitSome

/-- The extension with which a present option needs no `Some`. -/
def implicitSomeName : String := "implicit_some"

/-- The extensions that an attribute may name. -/
def extensionNames : List String :=
  [implicitSomeName, "unwrap_newtypes", "unwrap_variant_newtypes"]

/-- Takes a word that has to be there, and skips what stands behind it. -/
def expectWord (word : String) : Scanner Unit := do
  (fun s ↦
    match afterWord? word.toList s with
    | none => .error .malformed
    | some rest => .ok ((), rest) : Scanner Unit)
  between

/-- The names of the extensions in an attribute, at least one. Every name takes a character. -/
def extensions : (steps : Nat) → Scanner (List String)
  | 0 => throw .malformed
  | steps + 1 => do
    let name ← identifier
    unless name ∈ extensionNames do throw .malformed
    let hadComma ← comma
    let hasMore := goesOn (← get)
    if hadComma && hasMore then
      return name :: (← extensions steps)
    else if hasMore then
      throw .malformed
    else
      return [name]

/-- The extensions that the attributes in front of a document enable. Every attribute takes a
character. -/
def attributes : (steps : Nat) → Scanner (List String)
  | 0 => throw .malformed
  | steps + 1 => do
    between
    if (← get).head? = some '#' then
      for word in ["#", "!", "[", "enable", "("] do expectWord word
      let names ← extensions ((← get).length + 1)
      between
      for word in [")", "]"] do expectWord word
      return names ++ (← attributes steps)
    else
      return []

/-- The configuration that a RON text is. Behind it, only blanks and comments may stand. -/
def readConfiguration (document : String) : Except Fault Configuration :=
  let document := document.toList
  let read : Scanner Configuration := do
    let names ← attributes (document.length + 1)
    let implicitSome := implicitSomeName ∈ names
    let config ← record implicitSome (Configuration.record (reading implicitSome)) depthLimit
    between
    unless (← get).isEmpty do throw .malformed
    return config
  (read document).map (·.1)

end FrameSorter.Ron
