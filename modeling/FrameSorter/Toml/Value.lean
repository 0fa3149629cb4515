import FrameSorter.Document.Fault

/-!
# TOML values

A TOML document is one table. Its lines extend it from the inside: a header opens a table or the next
one of a list of tables (`openTable`, `openElement`), and a line with a key puts a value into the table
that is open (`putValue`). How a table came about (`Origin`) decides what may still be added to it, so
that no table is declared twice. Members keep the order in which they were added; a table that was
only implied by the headers of its parts moves to the end when its own header comes.
-/

set_option autoImplicit false
set_option relaxedAutoImplicit false

namespace FrameSorter.Toml

/-- How a table came about: by a header of its own, by the header of a table in it, by a key with
dots, or as a value in braces. -/
inductive Origin
  | header
  | part
  | dotted
  | braces
  deriving DecidableEq, Repr

/-- A TOML value. Of a date or a time it only matters that it is one. -/
inductive Value
  | text (content : String)
  | integer (value : Int)
  | floating (written : String)
  | boolean (value : Bool)
  | moment
  | list (elements : List Value)
  | table (origin : Origin) (members : List (String × Value))
  | tables (elements : List (List (String × Value)))

/-- The members of a table, in the order in which they were added. -/
abbrev Members := List (String × Value)

/-- Gives a member a new value in its place. -/
def Members.replace (members : Members) (key : String) (value : Value) : Members :=
  members.map fun (name, old) ↦ if name = key then (name, value) else (name, old)

/-- Takes a member away. -/
def Members.erase (members : Members) (key : String) : Members :=
  members.filter (·.1 != key)

/-- Changes the table that a path leads to, and makes the tables on the way that do not exist yet. The
way leads through the last table of a list of tables. With dots it may not lead through a table that
has a header, and no way leads through a table in braces. -/
def descend (isDotted : Bool) (change : Origin → Members → Except Fault Members) :
    List String → Origin → Members → Except Fault Members
  | [], origin, members => change origin members
  | key :: path, _, members =>
    match members.lookup key with
    | none => do
      let origin := if isDotted then Origin.dotted else Origin.part
      let inner ← descend isDotted change path origin []
      return members ++ [(key, .table origin inner)]
    | some (.table origin inner) =>
      if origin = .braces ∨ (isDotted ∧ origin = .header) then .error .malformed
      else do
        let inner ← descend isDotted change path origin inner
        return members.replace key (.table origin inner)
    | some (.tables elements) =>
      match elements.getLast? with
      | none => .error .malformed
      | some last => do
        let last ← descend isDotted change path .header last
        return members.replace key (.tables (elements.dropLast ++ [last]))
    | some _ => .error .malformed

/-- Adds a member whose key is new. -/
def addMember (key : String) (value : Value) (members : Members) : Except Fault Members :=
  match members.lookup key with
  | none => .ok (members ++ [(key, value)])
  | some _ => .error .malformed

/-- Adds a value under a key with dots, whose parts but the last are `path`. Only tables that keys
with dots have made can be extended in this way. -/
def addDotted (path : List String) (key : String) (value : Value) :
    Origin → Members → Except Fault Members :=
  descend true
    (fun origin members ↦
      if path ≠ [] ∧ origin ≠ .dotted then .error .malformed else addMember key value members)
    path

/-- Puts a value into the table at `here`. -/
def putValue (here path : List String) (key : String) (value : Value) (root : Members) :
    Except Fault Members :=
  descend false (addDotted path key value) here .header root

/-- Opens the table at `path` under a key by its header. -/
def openTable (path : List String) (key : String) (root : Members) : Except Fault Members :=
  descend false
    (fun _ members ↦
      match members.lookup key with
      | none => .ok (members ++ [(key, .table .header [])])
      | some (.table .part inner) => .ok (members.erase key ++ [(key, .table .header inner)])
      | some _ => .error .malformed)
    path .header root

/-- Opens the next table of the list of tables at `path` under a key. -/
def openElement (path : List String) (key : String) (root : Members) : Except Fault Members :=
  descend false
    (fun _ members ↦
      match members.lookup key with
      | none => .ok (members ++ [(key, .tables [[]])])
      | some (.tables elements) => .ok (members.replace key (.tables (elements ++ [[]])))
      | some _ => .error .malformed)
    path .header root

end FrameSorter.Toml
