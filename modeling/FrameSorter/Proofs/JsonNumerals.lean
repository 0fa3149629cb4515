import FrameSorter.Proofs.JsonTokens

/-!
# JSON numbers as they are written

A number has a sign or none, digits, and perhaps a fraction and a power of ten (`Numeral`). It is split
into the parts that it is written with, where the text does not go on with a part of a number
(`ofText?_characters`), and nothing else is split (`exists_numeral`).
-/

set_option autoImplicit false
set_option relaxedAutoImplicit false

namespace FrameSorter.Json

/-! ### Numbers as they are written -/

/-- A digit or more. -/
structure Digits where
  characters : List Char
  nonempty : characters ≠ []
  isDigit : ∀ c ∈ characters, c.isDigit

/-- The power of ten of a number: its letter, a sign or none, and its digits. -/
structure PowerOfTen where
  isCapital : Bool
  isNegative : Option Bool
  digits : Digits

/-- How a power of ten is written. -/
def PowerOfTen.characters (power : PowerOfTen) : List Char :=
  (if power.isCapital then 'E' else 'e') ::
    (match power.isNegative with
      | none => power.digits.characters
      | some isNegative => (if isNegative then '-' else '+') :: power.digits.characters)

/-- A number. Its whole part starts with a zero only if that is its only digit. -/
structure Numeral where
  isNegative : Bool
  whole : Digits
  fraction : Option Digits
  power : Option PowerOfTen
  whole_zero : whole.characters.head? = some '0' → whole.characters = ['0']

namespace Numeral

/-- How the power of a number is written, if it has one. -/
def powerCharacters (numeral : Numeral) : List Char :=
  (numeral.power.map PowerOfTen.characters).getD []

/-- How the fraction of a number is written, if it has one. -/
def fractionCharacters (numeral : Numeral) : List Char :=
  (numeral.fraction.map fun digits ↦ '.' :: digits.characters).getD []

/-- How a number is written. -/
def characters (numeral : Numeral) : List Char :=
  (if numeral.isNegative then ['-'] else []) ++
    (numeral.whole.characters ++ (numeral.fractionCharacters ++ numeral.powerCharacters))

/-- The parts of a number. -/
def parts (numeral : Numeral) : NumberParts where
  isNegative := numeral.isNegative
  whole := numeral.whole.characters
  fraction := (numeral.fraction.map Digits.characters).getD []
  power := numeral.power.map fun power ↦ (power.isNegative.getD false, power.digits.characters)

end Numeral

/-- Behind this text no number goes on. -/
def EndsNumber (rest : List Char) : Prop :=
  ∀ c ∈ rest.head?, ¬ continuesNumber c

section Numbers

variable {s rest : List Char}

/-- Digits end where no digit follows. -/
theorem splitDigits_append (digits : Digits) (hrest : ∀ c ∈ rest.head?, ¬ c.isDigit) :
    splitDigits (digits.characters ++ rest) = (digits.characters, rest) :=
  Prod.ext (takeWhile_append_of_head digits.isDigit hrest)
    (dropWhile_append_of_head digits.isDigit hrest)

/-- Digits are split off if there are any. -/
theorem exists_digits {first : Char} {more : List Char} (hsplit : splitDigits s = (first :: more, rest)) :
    ∃ digits : Digits, digits.characters = first :: more ∧ s = digits.characters ++ rest := by
  obtain ⟨htake, hdrop⟩ := Prod.mk.inj hsplit
  refine ⟨⟨first :: more, List.cons_ne_nil _ _, fun c hc ↦ ?_⟩, rfl, ?_⟩
  · exact List.mem_takeWhile_imp (htake ▸ hc)
  · change s = first :: more ++ rest
    rw [← htake, ← hdrop, List.takeWhile_append_dropWhile]

/-- What does not continue a number is no digit. -/
theorem EndsNumber.not_isDigit (hrest : EndsNumber rest) : ∀ c ∈ rest.head?, ¬ c.isDigit :=
  fun c hc hdigit ↦ hrest c hc (by simp [continuesNumber, hdigit])

/-- The digits of a number start with a digit. -/
theorem Digits.exists_cons (digits : Digits) :
    ∃ first more, digits.characters = first :: more ∧ first.isDigit := by
  obtain ⟨first, more, hdigits⟩ := List.exists_cons_of_ne_nil digits.nonempty
  exact ⟨first, more, hdigits, digits.isDigit first (hdigits ▸ List.mem_cons_self)⟩

/-- A sign is no digit. -/
theorem ne_sign_of_isDigit {c : Char} (hc : c.isDigit) : c ≠ '+' ∧ c ≠ '-' := by
  refine ⟨?_, ?_⟩ <;> (rintro rfl; exact absurd hc (by decide))

/-- A power of ten is read as it is written. -/
theorem powerPart?_append (power : PowerOfTen) (hrest : EndsNumber rest) :
    powerPart? (power.characters ++ rest) =
      some (some (power.isNegative.getD false, power.digits.characters), rest) := by
  obtain ⟨isCapital, isNegative, digits⟩ := power
  have hsplit := splitDigits_append digits hrest.not_isDigit
  obtain ⟨first, more, hdigits, hdigit⟩ := digits.exists_cons
  obtain ⟨hplus, hminus⟩ := ne_sign_of_isDigit hdigit
  rw [hdigits, List.cons_append] at hsplit
  unfold powerPart? PowerOfTen.characters
  cases isNegative with
  | none => simp [hdigits, hsplit, hplus, hminus]
  | some isNegative => cases isNegative <;> simp [hdigits, hsplit]

/-- A power of ten that is read has been written. -/
theorem exists_power {power : Option (Bool × List Char)} (hread : powerPart? s = some (power, rest)) :
    ∃ written : Option PowerOfTen, s = (written.map PowerOfTen.characters).getD [] ++ rest := by
  cases s with
  | nil =>
    obtain ⟨-, rfl⟩ := Prod.mk.inj (Option.some.inj hread)
    exact ⟨none, rfl⟩
  | cons letter behind =>
    unfold powerPart? at hread
    simp only at hread
    split at hread
    next hletter =>
      obtain ⟨isCapital, rfl⟩ : ∃ isCapital : Bool, letter = if isCapital then 'E' else 'e' := by
        rcases hletter with rfl | rfl
        · exact ⟨false, rfl⟩
        · exact ⟨true, rfl⟩
      split at hread
      next => cases hread
      next digits behind hnonempty hsplit =>
        obtain ⟨first, more, rfl⟩ := List.exists_cons_of_ne_nil hnonempty
        obtain ⟨written, -, htext⟩ := exists_digits hsplit
        obtain ⟨-, rfl⟩ := Prod.mk.inj (Option.some.inj hread)
        split at htext
        · exact ⟨some ⟨isCapital, some false, written⟩, by simp_all [PowerOfTen.characters]⟩
        · exact ⟨some ⟨isCapital, some true, written⟩, by simp_all [PowerOfTen.characters]⟩
        · exact ⟨some ⟨isCapital, none, written⟩, by simp_all [PowerOfTen.characters]⟩
    next =>
      obtain ⟨-, rfl⟩ := Prod.mk.inj (Option.some.inj hread)
      exact ⟨none, rfl⟩

/-- The power of a number is read as it is written. -/
theorem powerPart?_characters (numeral : Numeral) (hrest : EndsNumber rest) :
    powerPart? (numeral.powerCharacters ++ rest) = some (numeral.parts.power, rest) := by
  unfold Numeral.powerCharacters Numeral.parts
  cases numeral.power with
  | none => exact (fractionPart?_powerPart?_eq hrest).2
  | some power => exact powerPart?_append power hrest

/-- The power of a number starts with a letter that is part of no digits and of no fraction. -/
theorem head_powerCharacters (numeral : Numeral) (hrest : EndsNumber rest) :
    ∀ c ∈ (numeral.powerCharacters ++ rest).head?, ¬ c.isDigit ∧ c ≠ '.' := by
  unfold Numeral.powerCharacters
  cases numeral.power with
  | none =>
    intro c hc
    refine ⟨hrest.not_isDigit c hc, ?_⟩
    rintro rfl
    exact hrest '.' hc (by decide)
  | some power =>
    rintro c ⟨⟩
    cases power.isCapital <;> decide

/-- The fraction of a number is read as it is written. -/
theorem fractionPart?_append (numeral : Numeral) (hrest : ∀ c ∈ rest.head?, ¬ c.isDigit ∧ c ≠ '.') :
    fractionPart? (numeral.fractionCharacters ++ rest) = some (numeral.parts.fraction, rest) := by
  unfold Numeral.fractionCharacters Numeral.parts
  cases numeral.fraction with
  | none =>
    rw [Option.map_none, Option.getD_none, List.nil_append, fractionPart?]
    · rfl
    · rintro behind rfl
      exact (hrest '.' rfl).2 rfl
  | some digits =>
    have hsplit := splitDigits_append digits fun c hc ↦ (hrest c hc).1
    obtain ⟨first, more, hdigits, -⟩ := digits.exists_cons
    rw [hdigits, List.cons_append] at hsplit
    simp only [Option.map_some, Option.getD_some, List.cons_append, fractionPart?, hdigits, hsplit]

/-- A fraction that is read has been written. -/
theorem exists_fraction {fraction : List Char} (hread : fractionPart? s = some (fraction, rest)) :
    ∃ written : Option Digits,
      s = (written.map fun digits ↦ '.' :: digits.characters).getD [] ++ rest := by
  unfold fractionPart? at hread
  split at hread
  next behind =>
    split at hread
    next => cases hread
    next digits behind hnonempty hsplit =>
      obtain ⟨first, more, rfl⟩ := List.exists_cons_of_ne_nil hnonempty
      obtain ⟨written, -, rfl⟩ := exists_digits hsplit
      obtain ⟨-, rfl⟩ := Prod.mk.inj (Option.some.inj hread)
      exact ⟨some written, rfl⟩
  next =>
    obtain ⟨-, rfl⟩ := Prod.mk.inj (Option.some.inj hread)
    exact ⟨none, rfl⟩

/-- The fraction of a number starts with no digit. -/
theorem head_fractionCharacters (numeral : Numeral)
    (hrest : ∀ c ∈ rest.head?, ¬ c.isDigit ∧ c ≠ '.') :
    ∀ c ∈ (numeral.fractionCharacters ++ rest).head?, ¬ c.isDigit := by
  unfold Numeral.fractionCharacters
  cases numeral.fraction with
  | none => exact fun c hc ↦ (hrest c hc).1
  | some digits =>
    rintro c ⟨⟩
    decide

/-- The whole part of a number is read as it is written. -/
theorem wholePart?_append (numeral : Numeral) (hrest : ∀ c ∈ rest.head?, ¬ c.isDigit) :
    wholePart? (numeral.whole.characters ++ rest) = some (numeral.whole.characters, rest) := by
  have hsplit := splitDigits_append numeral.whole hrest
  have hzero := numeral.whole_zero
  obtain ⟨first, more, hdigits, -⟩ := numeral.whole.exists_cons
  rw [hdigits] at hsplit hzero ⊢
  rw [wholePart?, hsplit]
  split
  next heq => cases (Prod.mk.inj heq).1
  next heq =>
    obtain ⟨rfl, hmore⟩ := List.cons.inj (Prod.mk.inj heq).1
    rw [(List.cons.inj (hzero rfl)).2] at hmore
    cases hmore
  next heq => rw [← heq]

/-- A whole part that is read has been written. -/
theorem exists_whole {whole : List Char} (hread : wholePart? s = some (whole, rest)) :
    ∃ digits : Digits, (digits.characters.head? = some '0' → digits.characters = ['0']) ∧
      s = digits.characters ++ rest := by
  unfold wholePart? at hread
  split at hread
  next => cases hread
  next => cases hread
  next digits behind hnonempty hzero hsplit =>
    obtain ⟨first, more, rfl⟩ := List.exists_cons_of_ne_nil hnonempty
    obtain ⟨written, hwritten, rfl⟩ := exists_digits hsplit
    obtain ⟨-, rfl⟩ := Prod.mk.inj (Option.some.inj hread)
    refine ⟨written, fun hhead ↦ ?_, rfl⟩
    rw [hwritten] at hhead ⊢
    obtain rfl := Option.some.inj hhead
    cases more with
    | nil => rfl
    | cons second more => exact absurd rfl (hzero second more)

/-- A number starts with a minus sign or a digit. -/
theorem Numeral.exists_cons (numeral : Numeral) :
    ∃ first more, numeral.characters = first :: more ∧ (first = '-' ∨ first.isDigit) := by
  obtain ⟨first, more, hdigits, hdigit⟩ := numeral.whole.exists_cons
  unfold Numeral.characters
  split
  · exact ⟨'-', _, rfl, Or.inl rfl⟩
  · exact ⟨first, more ++ (numeral.fractionCharacters ++ numeral.powerCharacters), by simp [hdigits],
      Or.inr hdigit⟩

/-- A number is split into its parts. -/
theorem ofText?_characters (numeral : Numeral) (hrest : EndsNumber rest) :
    NumberParts.ofText? (numeral.characters ++ rest) = some (numeral.parts, rest) := by
  have hpowerHead := head_powerCharacters numeral hrest
  have hpower := powerPart?_characters numeral hrest
  have hfraction := fractionPart?_append numeral hpowerHead
  have hwhole := wholePart?_append numeral (head_fractionCharacters numeral hpowerHead)
  have hparts : numeral.parts = ⟨numeral.isNegative, numeral.whole.characters,
      numeral.parts.fraction, numeral.parts.power⟩ := rfl
  have htext : numeral.characters ++ rest = (if numeral.isNegative then ['-'] else []) ++
      (numeral.whole.characters ++
        (numeral.fractionCharacters ++ (numeral.powerCharacters ++ rest))) := by
    simp [Numeral.characters]
  obtain ⟨first, more, hdigits, hdigit⟩ := numeral.whole.exists_cons
  have hminus := (ne_sign_of_isDigit hdigit).2
  rw [htext, hparts]
  unfold NumberParts.ofText?
  cases numeral.isNegative with
  | true => simp [hwhole, hfraction, hpower]
  | false =>
    rw [hdigits, List.cons_append] at hwhole ⊢
    simp [hminus, hwhole, hfraction, hpower]

/-- Whatever is split into the parts of a number is a number. -/
theorem exists_numeral {parts : NumberParts} (hread : NumberParts.ofText? s = some (parts, rest)) :
    ∃ numeral : Numeral, s = numeral.characters ++ rest := by
  unfold NumberParts.ofText? at hread
  simp only [Option.bind_eq_bind, Option.bind_eq_some_iff, Prod.exists] at hread
  obtain ⟨whole, behindWhole, hwhole, fraction, behindFraction, hfraction, power, behindPower, hpower,
    hparts⟩ := hread
  obtain ⟨-, rfl⟩ := Prod.mk.inj (Option.some.inj hparts)
  obtain ⟨digits, hzero, htext⟩ := exists_whole hwhole
  obtain ⟨fraction, rfl⟩ := exists_fraction hfraction
  obtain ⟨power, rfl⟩ := exists_power hpower
  split at htext
  · exact ⟨⟨true, digits, fraction, power, hzero⟩, by
      simp_all [Numeral.characters, Numeral.fractionCharacters, Numeral.powerCharacters]⟩
  · exact ⟨⟨false, digits, fraction, power, hzero⟩, by
      simp_all [Numeral.characters, Numeral.fractionCharacters, Numeral.powerCharacters]⟩

end Numbers

/-! ### Whole numbers in decimal notation -/

/-- The digits of a number. -/
def Digits.ofNat (n : Nat) : Digits where
  characters := Nat.toDigits 10 n
  nonempty := by
    obtain ⟨first, digits, hfirst, -⟩ := toDigits_eq_cons n
    exact hfirst ▸ List.cons_ne_nil _ _
  isDigit _ := isDigit_of_mem_toDigits

theorem Digits.ofNat_zero (n : Nat) (hhead : (ofNat n).characters.head? = some '0') :
    (ofNat n).characters = ['0'] := by
  obtain ⟨first, digits, hfirst, hzero⟩ := toDigits_eq_cons n
  change (Nat.toDigits 10 n).head? = _ at hhead
  change Nat.toDigits 10 n = _
  rw [hfirst] at hhead ⊢
  obtain rfl := Option.some.inj hhead
  rw [hzero rfl]

/-- A whole number in decimal notation. -/
def Numeral.ofInt (n : Int) : Numeral where
  isNegative := decide (n < 0)
  whole := .ofNat n.natAbs
  fraction := none
  power := none
  whole_zero := Digits.ofNat_zero n.natAbs

theorem Numeral.characters_ofInt (n : Int) : (ofInt n).characters = (toString n).toList := by
  have hend : (ofInt n).fractionCharacters ++ (ofInt n).powerCharacters = [] := rfl
  rw [characters, hend, List.append_nil]
  by_cases hn : n < 0
  · rw [toList_toString_of_neg hn, ofInt, decide_eq_true hn]
    rfl
  · rw [toList_toString_of_nonneg (Int.not_lt.mp hn), ofInt, decide_eq_false hn]
    rfl

end FrameSorter.Json
