import FrameSorter.Text.Shown

/-!
# Faults of a document

Why a text is no configuration (`Fault`). Either it breaks the grammar of its format, or what it says
does not fit: a member is missing or repeated, or a value is of another kind than the one expected
there. The formats word the same fault differently (`Fault.reason`): JSON and TOML say what was
found and what was expected, RON says so of missing and repeated members only. For all else there is no
fixed wording, and each format says in its own words where the text went wrong.
-/

set_option autoImplicit false
set_option relaxedAutoImplicit false

namespace FrameSorter

/-- The formats of a configuration. -/
inductive Format
  | ron
  | toml
  | json
  deriving DecidableEq, Repr

/-- A value that was found where another kind of value was expected. A number with a fraction comes
with its text, because the formats write such numbers differently. -/
inductive Found
  | integer (value : Int)
  | floating (written : String)
  | boolean (value : Bool)
  | text (content : String)
  | null
  | sequence
  | map
  deriving DecidableEq, Repr

/-- How a message names what was found. -/
def Found.message : Found → String
  | .integer value => "integer `" ++ toString value ++ "`"
  | .floating written => "floating point `" ++ written ++ "`"
  | .boolean value => "boolean `" ++ toString value ++ "`"
  | .text content => "string " ++ Text.shown content
  | .null => "null"
  | .sequence => "sequence"
  | .map => "map"

/-- The kinds of value that a configuration has. -/
inductive Expected
  | record (name : String)
  | sequence
  | text
  | word
  deriving DecidableEq, Repr

/-- How a message names what was expected. -/
def Expected.message : Expected → String
  | .record name => "struct " ++ name
  | .sequence => "a sequence"
  | .text => "a string"
  | .word => "u32"

/-- Why a text is no configuration. -/
inductive Fault
  | malformed
  | missingMember (record member : String)
  | repeatedMember (record member : String)
  | mismatch (found : Found) (expected : Expected)
  | outOfRange (value : Int)
  | tooShort (record : String) (length size : Nat)
  deriving DecidableEq, Repr

/-- The wording of a fault in a format, where it has a fixed one. -/
def Fault.reason (format : Format) : Fault → Option String
  | .malformed => none
  | .missingMember record member =>
    match format with
    | .ron => some ("Unexpected missing field `" ++ member ++ "` in `" ++ record ++ "`")
    | _ => some ("missing field `" ++ member ++ "`")
  | .repeatedMember record member =>
    match format with
    | .ron => some ("Unexpected duplicate field `" ++ member ++ "` in `" ++ record ++ "`")
    | _ => some ("duplicate field `" ++ member ++ "`")
  | .mismatch found expected =>
    match format with
    | .ron => none
    | _ => some ("invalid type: " ++ found.message ++ ", expected " ++ expected.message)
  | .outOfRange value =>
    match format with
    | .ron => none
    | _ =>
      some ("invalid value: integer `" ++ toString value ++ "`, expected " ++ Expected.word.message)
  | .tooShort record length size =>
    match format with
    | .ron => none
    | _ =>
      some ("invalid length " ++ toString length ++ ", expected struct " ++ record ++ " with " ++
        toString size ++ " elements")

end FrameSorter
