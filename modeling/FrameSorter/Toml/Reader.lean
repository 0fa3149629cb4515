import FrameSorter.Document.Record
import FrameSorter.Toml.Text

/-!
# Reading TOML

A document is first read as a whole (`readDocument`): any line that breaks the grammar, or declares
something twice, makes it malformed. What it says is looked at afterwards, in the order of the
members (`readConfiguration`). A record is a table, or a list of its members in declaration order,
where further elements do not count; a date or a time is a table without known members.
-/

set_option autoImplicit false
set_option relaxedAutoImplicit false

namespace FrameSorter.Toml

/-! ### Values -/

/-- Takes a character that has to be there. -/
def expect (c : Char) : Scanner Unit := fun s ↦
  match behind? c s with
  | none => .error .malformed
  | some rest => .ok ((), rest)

/-- The text behind the blanks, comments and line breaks in front of it. A line break has to end
every comment. -/
def skipGap : (steps : Nat) → List Char → Except Fault (List Char)
  | 0, s => .ok s
  | steps + 1, s =>
    match skipBlanks s with
    | '#' :: rest =>
      match afterLineBreak? (skipComment ('#' :: rest)) with
      | none => .error .malformed
      | some rest => skipGap steps rest
    | s =>
      match afterLineBreak? s with
      | some rest => skipGap steps rest
      | none => if s.head? = some '\r' then .error .malformed else .ok s

/-- Skips what may stand between the parts of a list. -/
def gap : Scanner Unit := fun s ↦
  (skipGap (s.length + 1) s).map fun rest ↦ ((), rest)

/-- The elements of a list up to its closing bracket, which may follow a comma. Every element takes a
character. -/
def elements (value : Scanner Value) : (steps : Nat) → Scanner (List Value)
  | 0 => throw .malformed
  | steps + 1 => do
    gap
    if (← get).head? = some ']' then return []
    let head ← value
    gap
    if (← get).head? = some ',' then
      expect ','
      return head :: (← elements value steps)
    else
      return [head]

/-- A key and the value behind its equals sign. -/
def keyValue (value : Scanner Value) : Scanner ((List String × String) × Value) := do
  let found ← key
  expect '='
  modify skipBlanks
  return (found, ← value)

/-- The members of a table in braces, up to the closing brace. No comma may follow the last one. Every
member takes a character. -/
def bracedMembers (value : Scanner Value) : (steps : Nat) → Members → Scanner Members
  | 0, _ => throw .malformed
  | steps + 1, members => do
    let ((path, last), found) ← keyValue value
    let members ← liftM (addDotted path last found .header members)
    modify skipBlanks
    if (← get).head? = some ',' then
      expect ','
      bracedMembers value steps members
    else
      return members

/-- A list, behind its opening bracket. -/
def listBody (value : Scanner Value) : Scanner Value := do
  let found ← elements value ((← get).length + 1)
  expect ']'
  return .list found

/-- A table in braces, behind its opening brace. -/
def bracesBody (value : Scanner Value) : Scanner Value := do
  modify skipBlanks
  if (← get).head? = some '\x7d' then
    expect '\x7d'
    return .table .braces []
  let members ← bracedMembers value ((← get).length + 1) []
  expect '\x7d'
  return .table .braces members

/-- A value that no bracket opens. -/
def scalar : Scanner Value := fun s ↦
  match s with
  | 't' :: 'r' :: 'u' :: 'e' :: rest => .ok (.boolean true, rest)
  | 'f' :: 'a' :: 'l' :: 's' :: 'e' :: rest => .ok (.boolean false, rest)
  | [] => .error .malformed
  | c :: _ =>
    if c = '"' ∨ c = '\'' then (text s).map fun (content, rest) ↦ (.text content, rest)
    else if c.isDigit ∨ c = '+' ∨ c = '-' then readNumeric s
    else
      match specialFloating? false s with
      | none => .error .malformed
      | some found => .ok found

/-- A value with a number of brackets at most around its parts. -/
def value : (depth : Nat) → Scanner Value
  | 0 => scalar
  | depth + 1 => fun s ↦
    match s with
    | '[' :: rest =>
      match depth with
      | 0 => .error .malformed
      | depth + 1 => listBody (value (depth + 1)) rest
    | '\x7b' :: rest =>
      match depth with
      | 0 => .error .malformed
      | depth + 1 => bracesBody (value (depth + 1)) rest
    | s => scalar s

/-! ### Documents -/

/-- A document that is being read: its root, and the way to the table that is open. -/
structure Outline where
  root : Members := []
  here : List String := []

/-- A header, behind its opening bracket. -/
def header (outline : Outline) : Scanner Outline := do
  if (← get).head? = some '[' then
    expect '['
    let (path, last) ← key
    expect ']'
    expect ']'
    return { root := ← liftM (openElement path last outline.root), here := path ++ [last] }
  else
    let (path, last) ← key
    expect ']'
    return { root := ← liftM (openTable path last outline.root), here := path ++ [last] }

/-- The lines of a document. Every line takes a character. -/
def lines : (steps : Nat) → Outline → Scanner Outline
  | 0, _ => throw .malformed
  | steps + 1, outline => do
    modify skipBlanks
    match ← get with
    | [] => return outline
    | '[' :: rest =>
      set rest
      let outline ← header outline
      set (← liftM (endOfLine (← get)))
      lines steps outline
    | c :: rest =>
      if c = '#' ∨ c = '\n' ∨ c = '\r' then
        set (← liftM (endOfLine (c :: rest)))
        lines steps outline
      else
        let ((path, last), found) ← keyValue (value depthLimit)
        set (← liftM (endOfLine (← get)))
        let root ← liftM (putValue outline.here path last found outline.root)
        lines steps { outline with root }

/-- The text without a byte order mark in front. -/
def skipOrderMark : List Char → List Char
  | '\ufeff' :: rest => rest
  | s => s

/-- The table that a TOML text is. -/
def readDocument (document : String) : Except Fault Members :=
  let s := skipOrderMark document.toList
  (lines (s.length + 1) {} s).map (·.1.root)

/-! ### What a document says -/

/-- How a message speaks of a value. -/
def Value.found : Value → Found
  | .text content => .text content
  | .integer value => .integer value
  | .floating written => .floating written
  | .boolean value => .boolean value
  | .moment => .map
  | .list _ => .sequence
  | .table _ _ => .map
  | .tables _ => .sequence

/-- Reads what a value says. -/
abbrev Reader := ReaderT Value (Except Fault)

/-- A text. -/
def asText : Reader String := fun value ↦
  match value with
  | .text content => .ok content
  | _ => .error (.mismatch value.found .text)

/-- A whole number of 32 bits. -/
def asWord : Reader UInt32 := fun value ↦
  match value with
  | .integer n => if 0 ≤ n ∧ n < UInt32.size then .ok n.toNat.toUInt32 else .error (.outOfRange n)
  | _ => .error (.mismatch value.found .word)

/-- The elements of a value that is a list. -/
def Value.elements? : Value → Option (List Value)
  | .list elements => some elements
  | .tables elements => some (elements.map (.table .header))
  | _ => none

/-- The members of a value that has names for its parts. -/
def Value.members? : Value → Option Members
  | .table _ members => some members
  | .moment => some []
  | _ => none

/-- A list. -/
def asList {α : Type} (element : Reader α) : Reader (List α) := fun value ↦
  match value.elements? with
  | some elements => elements.mapM element
  | none => .error (.mismatch value.found .sequence)

/-- Reads one member of a table, if it is a member of the record. -/
def setMember {α : Type} (record : Record Reader α) (draft : Draft α)
    (member : String × Value) : Except Fault (Draft α) :=
  match record.member? member.1 with
  | none => .ok draft
  | some known => (known.read member.2).map fun change ↦ draft.set member.1 change

/-- The members that a list gives by position. -/
def setPositions {α : Type} :
    List (Member Reader α × Value) → Draft α → Except Fault (Draft α)
  | [], draft => .ok draft
  | (member, value) :: rest, draft => do
    let change ← member.read value
    setPositions rest (draft.set member.name change)

/-- A record: a table with its members, or a list of them. -/
def asRecord {α : Type} (record : Record Reader α) : Reader α := fun value ↦
  match value.members?, value.elements? with
  | some members, _ => do
    (← members.foldlM (setMember record) (Draft.start record)).finish record
  | none, some elements => do
    (← setPositions (record.members.zip elements) (Draft.start record)).finishPositional record
  | none, none => .error (.mismatch value.found (.record record.name))

/-- How TOML reads the values of a configuration. -/
def reading : Reading Reader where
  text := asText
  optionalText := some <$> asText
  word := asWord
  list := asList
  record := asRecord

/-- The configuration that a TOML text is. -/
def readConfiguration (document : String) : Except Fault Configuration := do
  asRecord (Configuration.record reading) (.table .header (← readDocument document))

end FrameSorter.Toml
