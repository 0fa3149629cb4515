/-!
# Doubles

The finite doubles that are not negative, as a whole significand times a power of two (`Double`).
`Double.nearest?` is the double nearest to a fraction, a tie going to the even significand, and there
is none if the fraction is too large. On top of it stand exact products and quotients rounded once
(`Double.times?`, `Double.over?`). `Double.digits` is the shortest decimal that reads back as the
double: of the decimals with the fewest digits the nearest one.
-/

set_option autoImplicit false
set_option relaxedAutoImplicit false

namespace FrameSorter

/-- The number `significand * 2 ^ exponent`. -/
structure Double where
  significand : Nat
  exponent : Int
  deriving DecidableEq, Repr

namespace Double

/-! ### Rounding -/

/-- Zero. -/
def zero : Double := ⟨0, 0⟩

/-- The exponent of the smallest doubles. -/
def leastExponent : Int := -1074

/-- The exponent of the largest doubles. -/
def greatestExponent : Int := 971

/-- A fraction times a power of two, as a fraction. -/
def shift (numerator denominator : Nat) (exponent : Int) : Nat × Nat :=
  (numerator * Nat.pow 2 exponent.toNat, denominator * Nat.pow 2 (-exponent).toNat)

/-- The whole number nearest to a fraction, a tie going to the even one. -/
def nearestWhole (numerator denominator : Nat) : Nat :=
  let floor := numerator / denominator
  let rest := 2 * (numerator % denominator)
  if rest < denominator then floor
  else if denominator < rest then floor + 1
  else if floor % 2 = 0 then floor else floor + 1

/-- The exponent at which the significand of a positive fraction has 53 binary digits, unless that is
below the least exponent. -/
def fittingExponent (numerator denominator : Nat) : Int :=
  let guess : Int := (numerator.log2 : Int) - denominator.log2 - 52
  let (scaled, unit) := shift numerator denominator (-guess)
  max (if scaled / unit < Nat.pow 2 52 then guess - 1 else guess) leastExponent

/-- The double nearest to a fraction. -/
def nearest? (numerator denominator : Nat) : Option Double :=
  if numerator = 0 then some zero
  else
    let exponent := fittingExponent numerator denominator
    let (scaled, unit) := shift numerator denominator (-exponent)
    let significand := nearestWhole scaled unit
    let (significand, exponent) :=
      if significand = Nat.pow 2 53 then (Nat.pow 2 52, exponent + 1) else (significand, exponent)
    if greatestExponent < exponent then none else some ⟨significand, exponent⟩

/-- The product, rounded once. -/
def times? (a b : Double) : Option Double :=
  let (numerator, denominator) := shift (a.significand * b.significand) 1 (a.exponent + b.exponent)
  nearest? numerator denominator

/-- The quotient by a positive double, rounded once. -/
def over? (a b : Double) : Option Double :=
  let (numerator, denominator) := shift a.significand b.significand (a.exponent - b.exponent)
  nearest? numerator denominator

/-! ### The shortest decimal -/

/-- The decimal `digits * 10 ^ exponent`. -/
structure Decimal where
  digits : Nat
  exponent : Int
  deriving DecidableEq, Repr

/-- The power of ten of the first digit of a positive double. -/
def leadingPower (d : Double) : Int :=
  let (numerator, denominator) := shift d.significand 1 d.exponent
  ((Nat.toDigits 10 (numerator * Nat.pow 10 400 / denominator)).length : Int) - 401

/-- The decimals of the given count of digits that read back as the double, the nearer one in front.
All numbers are compared in quarters of the last binary place: the double is four of its
significands, and its neighbourhood reaches half a place up and half a place down, but only a quarter
down where the doubles below are twice as dense. -/
def decimalsOf (d : Double) (count : Nat) : List Decimal :=
  let power := d.leadingPower - count + 1
  let (placeUp, placeDown) := shift 1 1 (d.exponent - 2)
  let (value, unit) :=
    (4 * d.significand * placeUp * Nat.pow 10 (-power).toNat, placeDown * Nat.pow 10 power.toNat)
  let step := placeUp * Nat.pow 10 (-power).toNat
  let isDenserBelow := d.significand = Nat.pow 2 52 ∧ leastExponent < d.exponent
  let low := value - (if isDenserBelow then step else 2 * step)
  let high := value + 2 * step
  let readsBack (digits : Nat) : Bool :=
    if d.significand % 2 = 0 then low ≤ digits * unit && digits * unit ≤ high
    else low < digits * unit && digits * unit < high
  let below := value / unit
  let nearerFirst :=
    if 2 * (value % unit) < unit ∨ (2 * (value % unit) = unit ∧ below % 2 = 0) then
      [below, below + 1]
    else [below + 1, below]
  (nearerFirst.filter readsBack).map fun digits ↦ ⟨digits, power⟩

/-- Moves the final zeros of the digits into the exponent. -/
def stripZeros (fuel : Nat) (decimal : Decimal) : Decimal :=
  match fuel with
  | 0 => decimal
  | fuel + 1 =>
    if decimal.digits ≠ 0 ∧ decimal.digits % 10 = 0 then
      stripZeros fuel ⟨decimal.digits / 10, decimal.exponent + 1⟩
    else decimal

/-- The shortest decimal that reads back as the double. Seventeen digits always do. -/
def decimal (d : Double) : Decimal :=
  if d.significand = 0 then ⟨0, 0⟩
  else
    match (List.range 17).findSome? fun n ↦ (d.decimalsOf (n + 1)).head? with
    | some found => stripZeros 17 found
    | none => ⟨0, 0⟩

/-! ### Text -/

/-- All digits of a decimal in their places, with one digit at least on each side of the point. -/
def Decimal.positional (decimal : Decimal) : String :=
  let digits := Nat.toDigits 10 decimal.digits
  if 0 ≤ decimal.exponent then
    String.ofList (digits ++ List.replicate decimal.exponent.toNat '0' ++ ['.', '0'])
  else
    let places := (-decimal.exponent).toNat
    let padded := List.replicate (places + 1 - digits.length) '0' ++ digits
    String.ofList
      (padded.take (padded.length - places) ++ '.' :: padded.drop (padded.length - places))

/-- The power of ten of the first digit. -/
def Decimal.leading (decimal : Decimal) : Int :=
  ((Nat.toDigits 10 decimal.digits).length : Int) - 1 + decimal.exponent

/-- One digit in front of the point, and the power of ten with its sign and two digits at least. -/
def Decimal.scientific (decimal : Decimal) : String :=
  let fraction :=
    match Nat.toDigits 10 decimal.digits with
    | [] => []
    | [digit] => [digit]
    | digit :: rest => digit :: '.' :: rest
  let power := Nat.toDigits 10 decimal.leading.natAbs
  String.ofList
    (fraction ++ ['e', if decimal.leading < 0 then '-' else '+'] ++
      List.replicate (2 - power.length) '0' ++ power)

end Double

end FrameSorter
