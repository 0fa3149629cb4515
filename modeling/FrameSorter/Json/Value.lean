import FrameSorter.Json.Literal

/-!
# JSON documents

The values that the documents of a pack are made of, and how a document is laid out
(`Value.layout`): every element and every member on a line of its own, two blanks deeper than what
holds it, and an empty list on one line.
-/

set_option autoImplicit false
set_option relaxedAutoImplicit false

namespace FrameSorter.Json

/-- A JSON value without fractions. -/
inductive Value
  | natural (n : Nat)
  | text (content : String)
  | list (elements : List Value)
  | object (members : List (String × Value))

/-- The start of a line at a depth. -/
def indentation (depth : Nat) : String :=
  "\n" ++ String.ofList (List.replicate (2 * depth) ' ')

mutual

/-- The text of a value whose first line starts at a depth. -/
def Value.layout (depth : Nat) : Value → String
  | .natural n => toString n
  | .text content => literal content
  | .list [] => "[]"
  | .list (first :: rest) =>
    "[" ++ indentation (depth + 1) ++ first.layout (depth + 1) ++ layoutElements (depth + 1) rest ++
      indentation depth ++ "]"
  | .object [] => "\x7b\x7d"
  | .object ((key, value) :: rest) =>
    "\x7b" ++ indentation (depth + 1) ++ literal key ++ ": " ++ value.layout (depth + 1) ++
      layoutMembers (depth + 1) rest ++ indentation depth ++ "\x7d"

/-- The elements after the first one, each behind a comma. -/
def layoutElements (depth : Nat) : List Value → String
  | [] => ""
  | value :: rest =>
    "," ++ indentation depth ++ value.layout depth ++ layoutElements depth rest

/-- The members after the first one, each behind a comma. -/
def layoutMembers (depth : Nat) : List (String × Value) → String
  | [] => ""
  | (key, value) :: rest =>
    "," ++ indentation depth ++ literal key ++ ": " ++ value.layout depth ++
      layoutMembers depth rest

end

/-- A value as a document: its layout and a final line feed. -/
def Value.document (value : Value) : String :=
  value.layout 0 ++ "\n"

end FrameSorter.Json
