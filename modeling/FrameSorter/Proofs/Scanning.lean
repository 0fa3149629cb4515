import Mathlib.Data.List.TakeWhile
import Mathlib.Data.Nat.Digits.Defs

/-!
# Reading from the front of a text

The readers of the three formats take their values from the front of a text and leave the rest. A
reader goes on from what the one before it left (`bind_of_ok`), and nothing is read behind one that
fails (`bind_of_error`). A run of characters ends where the first character of another kind stands
(`takeWhile_append_of_head`, `dropWhile_append_of_head`). Names are words of letters (`IsWord`). The
decimal digits of a number start with a zero only if it is the single digit zero (`toDigits_eq_cons`),
and a negative number has a minus sign in front of them (`toList_toString_of_neg`).
-/

set_option autoImplicit false
set_option relaxedAutoImplicit false

namespace FrameSorter

/-! ### One reader after another -/

section Readers

variable {σ ε α β : Type} {read : StateT σ (Except ε) α} {s rest : σ} {value : α}

/-- What follows a reader that took a value goes on with that value and with the rest. -/
theorem bind_of_ok (hread : read s = .ok (value, rest)) (next : α → StateT σ (Except ε) β) :
    (read >>= next) s = next value rest := by
  change Except.bind (read s) _ = _
  rw [hread]
  rfl

/-- A change of the value leaves the rest alone. -/
theorem map_of_ok (hread : read s = .ok (value, rest)) (change : α → β) :
    (change <$> read) s = .ok (change value, rest) := by
  change Except.bind (read s) _ = _
  rw [hread]
  rfl

/-- Nothing is read behind a reader that fails. -/
theorem bind_of_error {fault : ε} (hread : read s = .error fault)
    (next : α → StateT σ (Except ε) β) : (read >>= next) s = .error fault := by
  change Except.bind (read s) _ = _
  rw [hread]
  rfl

/-- A reader that fails has no value to change. -/
theorem map_of_error {fault : ε} (hread : read s = .error fault) (change : α → β) :
    (change <$> read) s = .error fault := by
  change Except.bind (read s) _ = _
  rw [hread]
  rfl

/-- A value that is already there takes nothing from the text. -/
theorem liftM_of_ok (value : α) (s : σ) :
    (liftM (.ok value : Except ε α) : StateT σ (Except ε) α) s = .ok (value, s) :=
  rfl

/-- To look at the text takes nothing from it. -/
theorem get_ok (s : σ) : (get : StateT σ (Except ε) σ) s = .ok (s, s) :=
  rfl

/-- A text that was taken apart is put back. -/
theorem set_ok (s rest : σ) : (set rest : StateT σ (Except ε) PUnit) s = .ok (⟨⟩, rest) :=
  rfl

/-- What is skipped is not part of the rest. -/
theorem modify_ok (skip : σ → σ) (s : σ) :
    (modify skip : StateT σ (Except ε) PUnit) s = .ok (⟨⟩, skip s) :=
  rfl

end Readers

/-! ### Runs of characters -/

section Runs

variable {isPart : Char → Bool} {front rest : List Char}

/-- A run ends where the rest starts with another character. -/
theorem takeWhile_append_of_head (hfront : ∀ c ∈ front, isPart c)
    (hrest : ∀ c ∈ rest.head?, ¬ isPart c) : (front ++ rest).takeWhile isPart = front := by
  rw [List.takeWhile_append_of_pos hfront]
  cases rest with
  | nil => exact List.append_nil _
  | cons c rest => rw [List.takeWhile_cons_of_neg (hrest c rfl), List.append_nil]

/-- Behind a run stands the rest. -/
theorem dropWhile_append_of_head (hfront : ∀ c ∈ front, isPart c)
    (hrest : ∀ c ∈ rest.head?, ¬ isPart c) : (front ++ rest).dropWhile isPart = rest := by
  rw [List.dropWhile_append_of_pos hfront]
  cases rest with
  | nil => rfl
  | cons c rest => exact List.dropWhile_cons_of_neg (hrest c rfl)

end Runs

/-! ### Words -/

/-- Whether a text is a word: one letter or more, and nothing else. -/
def IsWord (text : String) : Prop :=
  text ≠ "" ∧ ∀ c ∈ text.toList, c.isAlpha

instance : DecidablePred IsWord :=
  fun text ↦ decidable_of_iff (text ≠ "" ∧ text.toList.all Char.isAlpha)
    (by rw [IsWord, List.all_eq_true])

/-- A word starts with a letter. -/
theorem IsWord.toList_eq_cons {text : String} (h : IsWord text) :
    ∃ first more, text.toList = first :: more ∧ first.isAlpha := by
  obtain ⟨first, more, hfirst⟩ :=
    List.exists_cons_of_ne_nil fun hempty ↦ h.1 (String.toList_eq_nil_iff.mp hempty)
  exact ⟨first, more, hfirst, h.2 first (hfirst ▸ List.mem_cons_self)⟩

/-! ### Decimal digits -/

/-- The digits of a number are digits. -/
theorem isDigit_of_mem_toDigits {n : Nat} {c : Char} (hc : c ∈ Nat.toDigits 10 n) : c.isDigit :=
  Nat.isDigit_of_mem_toDigits (by decide) (by decide) hc

/-- The first digit of a number, which is a zero only if it is the only one. -/
theorem toDigits_eq_cons (n : Nat) :
    ∃ first digits, Nat.toDigits 10 n = first :: digits ∧ (first = '0' → digits = []) := by
  induction n using Nat.strong_induction_on with
  | _ n ih =>
    rcases Nat.lt_or_ge n 10 with hsmall | hlarge
    · exact ⟨_, [], Nat.toDigits_of_lt_base hsmall, fun _ ↦ rfl⟩
    · obtain ⟨first, digits, hdigits, hzero⟩ := ih (n / 10) (by omega)
      refine ⟨first, digits ++ [Nat.digitChar (n % 10)], ?_, fun hfirst ↦ ?_⟩
      · rw [Nat.toDigits_of_base_le (by decide) hlarge, hdigits, List.cons_append]
      · -- A number that starts with zero is zero, but the front of this one is not.
        have hfront : Nat.toDigits 10 (n / 10) = ['0'] := by rw [hdigits, hfirst, hzero hfirst]
        have hvalue : Nat.ofDigitChars 10 (Nat.toDigits 10 (n / 10)) 0 = 0 := by rw [hfront]; rfl
        rw [Nat.ofDigitChars_ten_toDigits] at hvalue
        omega

/-- A number that is not negative is written in its digits. -/
theorem toList_toString_of_nonneg {n : Int} (hn : 0 ≤ n) :
    (toString n).toList = Nat.toDigits 10 n.natAbs := by
  obtain ⟨k, rfl⟩ := Int.eq_ofNat_of_zero_le hn
  simp [Int.toString_eq_repr, Int.repr]

/-- A negative number has a minus sign in front of them. -/
theorem toList_toString_of_neg {n : Int} (hn : n < 0) :
    (toString n).toList = '-' :: Nat.toDigits 10 n.natAbs := by
  obtain ⟨k, rfl⟩ := Int.eq_negSucc_of_lt_zero hn
  simp [Int.toString_eq_repr, Int.repr]

/-- A written number starts with a digit or a minus sign. -/
theorem toString_eq_cons (n : Int) :
    ∃ first more, (toString n).toList = first :: more ∧ (first = '-' ∨ first.isDigit) := by
  by_cases hn : n < 0
  · exact ⟨_, _, toList_toString_of_neg hn, .inl rfl⟩
  · obtain ⟨first, digits, hfirst, -⟩ := toDigits_eq_cons n.natAbs
    have hdigit : first.isDigit := isDigit_of_mem_toDigits (hfirst ▸ List.mem_cons_self)
    exact ⟨first, digits, (toList_toString_of_nonneg (Int.not_lt.mp hn)).trans hfirst, .inr hdigit⟩

end FrameSorter
