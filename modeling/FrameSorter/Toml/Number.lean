import FrameSorter.Document.Fault
import FrameSorter.Number.Double
import FrameSorter.Toml.Value

/-!
# TOML numbers, dates and times

What starts with a digit or a sign is a date or a time, a number with a fraction, or an integer, tried
in this order (`readNumeric`). Each attempt either does not apply, or takes its text, or finds that
the text can only be meant so but is wrong (`Attempt`).
-/

set_option autoImplicit false
set_option relaxedAutoImplicit false

namespace FrameSorter.Toml

/-- Takes a value from the front of a text and leaves the rest. -/
abbrev Scanner := StateT (List Char) (Except Fault)

/-- A value taken from the front of a text, nothing if the text holds none, or a fault if it is a
wrong one. -/
abbrev Attempt (α : Type) := Except Fault (Option (α × List Char))

/-! ### Digits -/

/-- Whether a character is a hexadecimal digit. -/
def isHexDigit (c : Char) : Bool :=
  c.isDigit || ('a' ≤ c && c ≤ 'f') || ('A' ≤ c && c ≤ 'F')

/-- The value of a hexadecimal digit. -/
def hexValue (c : Char) : Nat :=
  if c.isDigit then c.toNat - '0'.toNat
  else if 'a' ≤ c ∧ c ≤ 'f' then c.toNat - 'a'.toNat + 10
  else c.toNat - 'A'.toNat + 10

/-- The number that digits spell in a base. -/
def digitsValue (base : Nat) (digits : List Char) : Nat :=
  digits.foldl (fun value c ↦ value * base + hexValue c) 0

/-- The digits behind the first one. A low line may stand before any of them, and a digit has to
follow a low line. -/
def moreDigits (isDigit : Char → Bool) : List Char → Except Fault (List Char × List Char)
  | '_' :: c :: rest =>
    if isDigit c then (moreDigits isDigit rest).map fun (digits, rest) ↦ (c :: digits, rest)
    else .error .malformed
  | c :: rest =>
    if c = '_' then .error .malformed
    else if isDigit c then (moreDigits isDigit rest).map fun (digits, rest) ↦ (c :: digits, rest)
    else .ok ([], c :: rest)
  | [] => .ok ([], [])

/-- One digit at least. -/
def someDigits (isDigit : Char → Bool) : List Char → Except Fault (List Char × List Char)
  | c :: rest =>
    if isDigit c then (moreDigits isDigit rest).map fun (digits, rest) ↦ (c :: digits, rest)
    else .error .malformed
  | [] => .error .malformed

/-- A sign, which may be missing; `true` for minus. -/
def splitSign : List Char → Bool × List Char
  | '+' :: rest => (false, rest)
  | '-' :: rest => (true, rest)
  | s => (false, s)

/-- The digits of a decimal integer: a zero, or digits of which the first is none. -/
def wholeDigits (s : List Char) : Attempt (List Char) :=
  match s with
  | '0' :: rest => .ok (some (['0'], rest))
  | c :: rest =>
    if c.isDigit then
      (moreDigits Char.isDigit rest).map fun (digits, rest) ↦ some (c :: digits, rest)
    else .ok none
  | [] => .ok none

/-! ### Dates and times -/

/-- The number of exactly `count` digits in front of a text. -/
def fixedDigits? (count : Nat) (s : List Char) : Option (Nat × List Char) :=
  let digits := s.take count
  if digits.length = count ∧ digits.all Char.isDigit then
    some (digitsValue 10 digits, s.drop count)
  else none

/-- The number of two digits in front of a text, within bounds. -/
def twoDigits? (least greatest : Nat) (s : List Char) : Option (Nat × List Char) :=
  (fixedDigits? 2 s).filter fun (n, _) ↦ least ≤ n && n ≤ greatest

/-- The text behind a character that stands in front of it. -/
def behind? (c : Char) : List Char → Option (List Char)
  | d :: rest => if d = c then some rest else none
  | [] => none

/-- The number of days of a month. -/
def daysOfMonth (year month : Nat) : Nat :=
  let isLeapYear := year % 4 = 0 ∧ (year % 100 ≠ 0 ∨ year % 400 = 0)
  if month = 2 then if isLeapYear then 29 else 28
  else if month = 4 ∨ month = 6 ∨ month = 9 ∨ month = 11 then 30
  else 31

/-- A month and a day of that month, behind the first dash of a date. -/
def monthAndDay? (year : Nat) (s : List Char) : Option (List Char) := do
  let (month, s) ← twoDigits? 1 12 s
  let s ← behind? '-' s
  let (day, s) ← twoDigits? 1 31 s
  if day ≤ daysOfMonth year month then some s else none

/-- A date. After the year and a dash it can be nothing else. -/
def date (s : List Char) : Attempt Unit :=
  match fixedDigits? 4 s with
  | none => .ok none
  | some (year, rest) =>
    match behind? '-' rest with
    | none => .ok none
    | some rest =>
      match monthAndDay? year rest with
      | none => .error .malformed
      | some rest => .ok (some ((), rest))

/-- The minutes and seconds behind the first colon of a time, and the fraction of a second. -/
def minutesAndSeconds? (s : List Char) : Option (List Char) := do
  let (_, s) ← twoDigits? 0 59 s
  let s ← behind? ':' s
  let (_, s) ← twoDigits? 0 60 s
  match s with
  | '.' :: c :: rest => if c.isDigit then some (rest.dropWhile Char.isDigit) else some s
  | _ => some s

/-- A time of day. After the hour and a colon it can be nothing else. -/
def time (s : List Char) : Attempt Unit :=
  match twoDigits? 0 23 s with
  | none => .ok none
  | some (_, rest) =>
    match behind? ':' rest with
    | none => .ok none
    | some rest =>
      match minutesAndSeconds? rest with
      | none => .error .malformed
      | some rest => .ok (some ((), rest))

/-- How far a time is from the time of Greenwich, which may be missing. -/
def offset : List Char → Except Fault (List Char)
  | [] => .ok []
  | c :: rest =>
    if c = 'Z' ∨ c = 'z' then .ok rest
    else if c = '+' ∨ c = '-' then
      match (do
        let (_, s) ← twoDigits? 0 23 rest
        let s ← behind? ':' s
        let (_, s) ← twoDigits? 0 59 s
        return s : Option (List Char)) with
      | none => .error .malformed
      | some rest => .ok rest
    else .ok (c :: rest)

/-- The time that may follow a date, behind a letter or a blank. -/
def timeOfDate : List Char → Except Fault (List Char)
  | [] => .ok []
  | c :: rest =>
    if c = 'T' ∨ c = 't' ∨ c = ' ' then
      match time rest with
      | .error fault => .error fault
      | .ok none => .ok (c :: rest)
      | .ok (some (_, rest)) => offset rest
    else .ok (c :: rest)

/-- A date, a time, or both. -/
def moment (s : List Char) : Attempt Unit :=
  match date s with
  | .error fault => .error fault
  | .ok (some (_, rest)) => (timeOfDate rest).map fun rest ↦ some ((), rest)
  | .ok none => time s

/-! ### Numbers with a fraction -/

/-- The text of a number with a fraction, given by its digits and the power of ten of the last one.
What is beyond the largest double is infinite, which only a negative number may be. -/
def floatingText? (isNegative : Bool) (digits : List Char) (power : Int) : Option String :=
  let value := digitsValue 10 digits
  let leading := ((digits.dropWhile (· == '0')).length : Int) + power
  let sign := if isNegative then "-" else ""
  let infinite := if isNegative then some "-inf" else none
  if value = 0 ∨ leading < -400 then some (sign ++ Double.zero.decimal.positional)
  else if 400 < leading then infinite
  else
    match Double.nearest? (value * Nat.pow 10 power.toNat) (Nat.pow 10 (-power).toNat) with
    | none => infinite
    | some d => some (sign ++ d.decimal.positional)

/-- The fraction behind its point; none if there is no point. -/
def fraction : List Char → Except Fault (List Char × List Char)
  | '.' :: rest => someDigits Char.isDigit rest
  | s => .ok ([], s)

/-- The power of ten behind its letter; zero if there is no letter. -/
def power : List Char → Except Fault (Int × List Char)
  | [] => .ok (0, [])
  | c :: rest =>
    if c = 'e' ∨ c = 'E' then
      let (isNegative, rest) := splitSign rest
      (someDigits Char.isDigit rest).map fun (digits, rest) ↦
        let value : Int := digitsValue 10 digits
        (if isNegative then -value else value, rest)
    else .ok (0, c :: rest)

/-- What follows the whole digits of a number with a fraction or a power of ten. -/
def floating (isNegative : Bool) (whole s : List Char) : Except Fault (Value × List Char) := do
  let (places, s) ← fraction s
  let (exponent, s) ← power s
  match floatingText? isNegative (whole ++ places) (exponent - places.length) with
  | none => throw .malformed
  | some written => return (.floating written, s)

/-- Infinity or no number, in letters. -/
def specialFloating? (isNegative : Bool) : List Char → Option (Value × List Char)
  | 'i' :: 'n' :: 'f' :: rest => some (.floating (if isNegative then "-inf" else "inf"), rest)
  | 'n' :: 'a' :: 'n' :: rest => some (.floating "NaN", rest)
  | _ => none

/-! ### Integers -/

/-- The digits behind the mark of a base. -/
def basedInteger (base : Nat) (isDigit : Char → Bool) (s : List Char) :
    Except Fault (Value × List Char) := do
  let (digits, rest) ← someDigits isDigit s
  let value := digitsValue base digits
  if value < Nat.pow 2 63 then return (.integer value, rest) else throw .malformed

/-- A decimal integer of 64 bits. -/
def decimalInteger (isNegative : Bool) (digits rest : List Char) :
    Except Fault (Value × List Char) :=
  let value : Int := digitsValue 10 digits
  let value := if isNegative then -value else value
  if -Nat.pow 2 63 ≤ value ∧ value < Nat.pow 2 63 then .ok (.integer value, rest)
  else .error .malformed

/-- A number of any kind. -/
def number (s : List Char) : Except Fault (Value × List Char) :=
  match s with
  | '0' :: 'x' :: rest => basedInteger 16 isHexDigit rest
  | '0' :: 'o' :: rest => basedInteger 8 (fun c ↦ '0' ≤ c && c ≤ '7') rest
  | '0' :: 'b' :: rest => basedInteger 2 (fun c ↦ c == '0' || c == '1') rest
  | _ =>
    let (isNegative, unsigned) := splitSign s
    match wholeDigits unsigned with
    | .error fault => .error fault
    | .ok none =>
      match specialFloating? isNegative unsigned with
      | none => .error .malformed
      | some found => .ok found
    | .ok (some (digits, rest)) =>
      if rest.head?.any fun c ↦ c == '.' || c == 'e' || c == 'E' then floating isNegative digits rest
      else decimalInteger isNegative digits rest

/-- What starts with a digit or a sign. -/
def readNumeric : Scanner Value := fun s ↦
  match moment s with
  | .error fault => .error fault
  | .ok (some (_, rest)) => .ok (.moment, rest)
  | .ok none => number s

end FrameSorter.Toml
