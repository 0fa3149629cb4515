import FrameSorter.Number.Double

/-!
# JSON numbers

A number is split into its sign, its whole digits, its fraction and its power of ten
(`NumberParts.ofText?`). Whole numbers that fit into 64 bits are integers; every other number is
a double (`NumberParts.number?`). A double comes from the digits that fit into 64 bits, scaled by one
power of ten, each of the two steps rounded to the nearest double; a number that this makes too large
is no number.
-/

set_option autoImplicit false
set_option relaxedAutoImplicit false

namespace FrameSorter.Json

/-! ### Grammar -/

/-- A number as it is written. A power of ten has a sign, which is that of the power, and digits. -/
structure NumberParts where
  isNegative : Bool
  whole : List Char
  fraction : List Char
  power : Option (Bool × List Char)
  deriving DecidableEq, Repr

/-- The digits in front of a text, and the rest. -/
def splitDigits (s : List Char) : List Char × List Char :=
  (s.takeWhile Char.isDigit, s.dropWhile Char.isDigit)

/-- The whole part: a single zero, or digits that start with no zero. -/
def wholePart? (s : List Char) : Option (List Char × List Char) :=
  match splitDigits s with
  | ([], _) => none
  | ('0' :: _ :: _, _) => none
  | (digits, rest) => some (digits, rest)

/-- The fraction, which may be missing: a point and at least one digit. -/
def fractionPart? (s : List Char) : Option (List Char × List Char) :=
  match s with
  | '.' :: rest =>
    match splitDigits rest with
    | ([], _) => none
    | (digits, rest) => some (digits, rest)
  | _ => some ([], s)

/-- The power of ten, which may be missing: its letter, a sign or none, and at least one digit. -/
def powerPart? (s : List Char) : Option (Option (Bool × List Char) × List Char) :=
  match s with
  | c :: rest =>
    if c = 'e' ∨ c = 'E' then
      let (isNegative, rest) :=
        match rest with
        | '+' :: rest => (false, rest)
        | '-' :: rest => (true, rest)
        | _ => (false, rest)
      match splitDigits rest with
      | ([], _) => none
      | (digits, rest) => some (some (isNegative, digits), rest)
    else some (none, s)
  | [] => some (none, [])

/-- The number in front of a text, and the rest. -/
def NumberParts.ofText? (s : List Char) : Option (NumberParts × List Char) := do
  let (isNegative, s) :=
    match s with
    | '-' :: rest => (true, rest)
    | _ => (false, s)
  let (whole, s) ← wholePart? s
  let (fraction, s) ← fractionPart? s
  let (power, s) ← powerPart? s
  return ({ isNegative, whole, fraction, power }, s)

/-! ### Value -/

/-- A number that was read: an integer of 64 bits, or the text of a double. -/
inductive Number
  | integer (value : Int)
  | floating (written : String)
  deriving DecidableEq, Repr

/-- The largest significand. -/
def significandLimit : Nat := UInt64.size - 1

/-- The largest written power of ten. -/
def powerLimit : Nat := Nat.pow 2 31 - 1

/-- Appends digits to a significand as long as it stays within the limit, and counts the digits that
are left over. -/
def absorb (significand : Nat) : List Char → Nat × Nat
  | [] => (significand, 0)
  | c :: rest =>
    let next := significand * 10 + (c.toNat - '0'.toNat)
    if significandLimit < next then (significand, rest.length + 1) else absorb next rest

/-- The largest power of ten that is scaled by in one step. -/
def stepLimit : Nat := 308

/-- The double that stands for a power of ten within the step limit. -/
def powerOfTen (exponent : Nat) : Double :=
  (Double.nearest? (Nat.pow 10 exponent) 1).getD Double.zero

/-- Scales a double by a power of ten. Division goes in steps until the double vanishes, which takes
three steps at most. -/
def scale? (d : Double) (exponent : Int) : (steps : Nat) → Option Double
  | 0 => some d
  | steps + 1 =>
    if exponent.natAbs ≤ stepLimit then
      if 0 ≤ exponent then d.times? (powerOfTen exponent.natAbs)
      else d.over? (powerOfTen exponent.natAbs)
    else if d.significand = 0 then some d
    else if 0 ≤ exponent then none
    else do scale? (← d.over? (powerOfTen stepLimit)) (exponent + stepLimit) steps

/-- How a message writes the sign and the digits of a double: in their places between
0.00001 and 10000000000000000, and otherwise with a power of ten. -/
def floatingText (isNegative : Bool) (d : Double) : String :=
  let decimal := d.decimal
  (if isNegative then "-" else "") ++
    (if -5 ≤ decimal.leading ∧ decimal.leading ≤ 15 then decimal.positional
     else decimal.scientific)

namespace NumberParts

/-- The digits that fit, and the power of ten that makes up for the digits left over and for the
fraction. -/
def significand (parts : NumberParts) : Nat × Int :=
  let (whole, left) := absorb 0 parts.whole
  let (digits, dropped) := absorb whole parts.fraction
  (digits, (left : Int) - (parts.fraction.length - dropped : Nat))

/-- The double that the number is read as. -/
def double? (parts : NumberParts) : Option Double :=
  let (digits, exponent) := parts.significand
  match parts.power with
  | none => do scale? (← Double.nearest? digits 1) exponent 4
  | some (isNegative, power) =>
    let written := Nat.ofDigitChars 10 power 0
    if powerLimit < written then
      if digits ≠ 0 ∧ !isNegative then none else some Double.zero
    else do
      scale? (← Double.nearest? digits 1)
        (if isNegative then exponent - written else exponent + written) 4

/-- The number that was written, if it is not too large. A negative zero is a double. -/
def number? (parts : NumberParts) : Option Number :=
  let value := Nat.ofDigitChars 10 parts.whole 0
  if parts.fraction = [] ∧ parts.power = none ∧
      (if parts.isNegative then 0 < value ∧ value ≤ Nat.pow 2 63 else value < UInt64.size) then
    some (.integer (if parts.isNegative then -(value : Int) else value))
  else
    parts.double?.map fun d ↦ .floating (floatingText parts.isNegative d)

end NumberParts

end FrameSorter.Json
