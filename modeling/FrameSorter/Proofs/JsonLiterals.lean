import FrameSorter.Proofs.JsonTokens

/-!
# JSON literals as they are written

A literal is written with escapes or without, in pieces that each stand for a character or for half of a
surrogate pair (`Literal`). It is read if all of its pieces stand for characters, as the text that they
say (`readLiteral_iff`), and skipped in any case (`skipCharacters_inside`). Nothing else is read or
skipped as a literal (`exists_literal_of_read`, `exists_literal_of_skip`).
-/

set_option autoImplicit false
set_option relaxedAutoImplicit false

namespace FrameSorter.Json

/-! ### Literals as they are written -/

/-- A piece of a literal: a character that stands for itself, an escaped character, or a code unit. -/
inductive Piece
  | plain (c : Char) (hplain : c ≠ '"' ∧ c ≠ '\\' ∧ ¬ c.toNat < 0x20)
  | escape (c escaped : Char) (hescape : escapedCharacter? c = some escaped)
  | unit (a b c d : Char) (code : Nat) (hcode : codeUnit? a b c d = some code)

/-- How a piece is written. -/
def Piece.characters : Piece → List Char
  | .plain c _ => [c]
  | .escape c _ _ => ['\\', c]
  | .unit a b c d _ _ => ['\\', 'u', a, b, c, d]

/-- The characters that pieces stand for. Half of a surrogate pair stands for none. -/
def contentOf? : List Piece → Option (List Char)
  | [] => some []
  | .plain c _ :: rest => (contentOf? rest).map (c :: ·)
  | .escape _ escaped _ :: rest => (contentOf? rest).map (escaped :: ·)
  | .unit _ _ _ _ code _ :: rest =>
    if isHighSurrogate code then
      match rest with
      | .unit _ _ _ _ low _ :: rest =>
        if isLowSurrogate low then (contentOf? rest).map (pairedCharacter code low :: ·) else none
      | _ => none
    else if isLowSurrogate code then none
    else (contentOf? rest).map (Char.ofNat code :: ·)

/-- A literal, by what stands between its quotation marks. -/
structure Literal where
  pieces : List Piece

/-- What stands between the quotation marks, and the closing one. -/
def Literal.inside (literal : Literal) : List Char :=
  literal.pieces.flatMap Piece.characters ++ ['"']

/-- How a literal is written. -/
def Literal.characters (literal : Literal) : List Char :=
  '"' :: literal.inside

/-- The text that a literal says, if it escapes no half of a surrogate pair. -/
def Literal.content? (literal : Literal) : Option String :=
  (contentOf? literal.pieces).map String.ofList

section Literals

variable {s rest : List Char}

/-- A character that stands for itself is read as that. -/
theorem readCharacters_plain {c : Char} (hplain : c ≠ '"' ∧ c ≠ '\\' ∧ ¬ c.toNat < 0x20) :
    readCharacters (c :: s) = prepend c (readCharacters s) := by
  obtain ⟨hquote, hbackslash, hcontrol⟩ := hplain
  rw [readCharacters, if_neg (not_or.mpr ⟨hbackslash, hcontrol⟩)]
  · exact hquote
  · exact fun _ _ _ _ _ hc _ ↦ hbackslash hc
  · exact fun _ _ hc _ ↦ hbackslash hc

/-- The letter of a code unit escapes no single character. -/
theorem ne_u_of_escape {c escaped : Char} (hescape : escapedCharacter? c = some escaped) :
    c ≠ 'u' := by
  rintro rfl
  have hnone : escapedCharacter? 'u' = none := by decide
  rw [hnone] at hescape
  cases hescape

/-- An escaped character is read as the character. -/
theorem readCharacters_escape {c escaped : Char} (hescape : escapedCharacter? c = some escaped) :
    readCharacters ('\\' :: c :: s) = prepend escaped (readCharacters s) := by
  rw [readCharacters, hescape]
  exact fun _ _ _ _ _ hc _ ↦ ne_u_of_escape hescape hc

/-- What is read as the first character of the content of some pieces. -/
theorem prepend_elim (c : Char) (content : Option (List Char)) :
    prepend c ((content.map (·, rest)).elim (.error .malformed) .ok) =
      (((content.map (c :: ·)).map (·, rest)).elim (.error .malformed) .ok) := by
  cases content <;> rfl

/-- Where no code unit follows, half of a surrogate pair cannot be read. -/
theorem not_unit_of_pieces {pieces : List Piece}
    (hnext : ∀ a b c d code hcode more, pieces = .unit a b c d code hcode :: more → False)
    (a b c d : Char) (more : List Char) :
    pieces.flatMap Piece.characters ++ '"' :: rest ≠ '\\' :: 'u' :: a :: b :: c :: d :: more := by
  intro hsame
  cases pieces with
  | nil => exact absurd (List.cons.inj hsame).1 (by decide)
  | cons piece pieces =>
    cases piece with
    | plain c hplain => exact hplain.2.1 (List.cons.inj hsame).1
    | escape c escaped hescape =>
      exact ne_u_of_escape hescape (List.cons.inj (List.cons.inj hsame).2).1
    | unit a b c d code hcode => exact hnext a b c d code hcode pieces rfl

/-- A literal is read as the characters that its pieces stand for, or not at all. -/
theorem readCharacters_pieces (pieces : List Piece) (rest : List Char) :
    readCharacters (pieces.flatMap Piece.characters ++ '"' :: rest) =
      ((contentOf? pieces).map (·, rest)).elim (.error .malformed) .ok := by
  fun_induction contentOf? pieces with
  | case1 => rfl
  | case2 c hplain pieces ih =>
    simp only [List.flatMap_cons, Piece.characters, List.cons_append, List.nil_append]
    rw [readCharacters_plain hplain, ih, prepend_elim]
  | case3 c escaped hescape pieces ih =>
    simp only [List.flatMap_cons, Piece.characters, List.cons_append, List.nil_append]
    rw [readCharacters_escape hescape, ih, prepend_elim]
  | case4 a b c d code hcode hhigh e f g h low hlow pieces hpair ih =>
    simp only [List.flatMap_cons, Piece.characters, List.cons_append, List.nil_append, readCharacters,
      hcode, hhigh, hlow, hpair, if_true]
    rw [ih, prepend_elim]
  | case5 a b c d code hcode hhigh e f g h low hlow pieces hpair =>
    simp only [List.flatMap_cons, Piece.characters, List.cons_append, List.nil_append, readCharacters,
      hcode, hhigh, hlow, hpair, if_true]
    rfl
  | case6 a b c d code hcode pieces hhigh hnext =>
    simp only [List.flatMap_cons, Piece.characters, List.cons_append, List.nil_append, readCharacters,
      hcode, hhigh, if_true]
    split
    · next hunit => exact absurd hunit (not_unit_of_pieces hnext _ _ _ _ _)
    · rfl
  | case7 a b c d code hcode pieces hhigh hlow =>
    simp only [List.flatMap_cons, Piece.characters, List.cons_append, List.nil_append, readCharacters,
      hcode, hhigh, hlow, if_true]
    rfl
  | case8 a b c d code hcode pieces hhigh hlow ih =>
    simp only [List.flatMap_cons, Piece.characters, List.cons_append, List.nil_append, readCharacters,
      hcode, hhigh, hlow]
    rw [← prepend_elim, ← ih]
    rfl

/-- A literal is read as the text that it says, and what stands behind it is left. -/
theorem readLiteral_iff (literal : Literal) {rest behind : List Char} {content : String} :
    readLiteral (literal.inside ++ rest) = .ok (content, behind) ↔
      literal.content? = some content ∧ behind = rest := by
  have hinside : literal.inside ++ rest =
      literal.pieces.flatMap Piece.characters ++ '"' :: rest := by
    rw [Literal.inside, List.append_assoc, List.singleton_append]
  rw [hinside, readLiteral, readCharacters_pieces, Literal.content?]
  cases contentOf? literal.pieces with
  | none => simp [Except.map]
  | some characters => simp [Except.map, eq_comm]

/-- A literal is skipped, whatever its pieces stand for. -/
theorem skipCharacters_inside (literal : Literal) (rest : List Char) :
    skipCharacters (literal.inside ++ rest) = .ok rest := by
  obtain ⟨pieces⟩ := literal
  rw [Literal.inside, List.append_assoc, List.singleton_append]
  induction pieces with
  | nil => rfl
  | cons piece pieces ih =>
    cases piece with
    | plain c hplain =>
      obtain ⟨hquote, hbackslash, hcontrol⟩ := hplain
      simp only [List.flatMap_cons, Piece.characters, List.cons_append, List.nil_append]
      rw [skipCharacters, if_neg (not_or.mpr ⟨hbackslash, hcontrol⟩), ih]
      · exact hquote
      · exact fun _ _ _ _ _ hc _ ↦ hbackslash hc
      · exact fun _ _ hc _ ↦ hbackslash hc
    | escape c escaped hescape =>
      simp only [List.flatMap_cons, Piece.characters, List.cons_append, List.nil_append]
      rw [skipCharacters, hescape]
      · exact ih
      · exact fun _ _ _ _ _ hc _ ↦ ne_u_of_escape hescape hc
    | unit a b c d code hcode =>
      simp only [List.flatMap_cons, Piece.characters, List.cons_append, List.nil_append, skipCharacters,
        hcode]
      exact ih

/-- Only literals are skipped. -/
theorem exists_literal_of_skip (hskip : skipCharacters s = .ok rest) :
    ∃ literal : Literal, s = literal.inside ++ rest := by
  have hpieces : ∃ pieces : List Piece, s = pieces.flatMap Piece.characters ++ '"' :: rest := by
    fun_induction skipCharacters s with
    | case1 | case3 | case5 | case7 => cases hskip
    | case2 behind =>
      cases hskip
      exact ⟨[], rfl⟩
    | case4 a b c d behind code hcode ih =>
      obtain ⟨pieces, rfl⟩ := ih hskip
      exact ⟨.unit a b c d code hcode :: pieces, rfl⟩
    | case6 c behind _ escaped hescape ih =>
      obtain ⟨pieces, rfl⟩ := ih hskip
      exact ⟨.escape c escaped hescape :: pieces, rfl⟩
    | case8 c behind hquote _ _ hplain ih =>
      obtain ⟨pieces, rfl⟩ := ih hskip
      rw [not_or] at hplain
      exact ⟨.plain c ⟨hquote, hplain⟩ :: pieces, rfl⟩
  obtain ⟨pieces, rfl⟩ := hpieces
  exact ⟨⟨pieces⟩, by simp [Literal.inside]⟩

/-- What is read in front of a character is what is read without it. -/
theorem prepend_eq_ok {c : Char} {read : Except Fault (List Char × List Char)} {characters}
    (hread : prepend c read = .ok (characters, rest)) : ∃ more, read = .ok (more, rest) := by
  cases read with
  | error fault => cases hread
  | ok taken =>
    obtain ⟨-, rfl⟩ := Prod.mk.inj (Except.ok.inj hread)
    exact ⟨taken.1, rfl⟩

/-- What is read as a literal could have been skipped. -/
theorem skipCharacters_of_readCharacters {characters : List Char}
    (hread : readCharacters s = .ok (characters, rest)) : skipCharacters s = .ok rest := by
  fun_induction readCharacters s generalizing characters with
  | case1 | case3 | case4 | case6 | case7 | case8 | case10 | case12 => cases hread
  | case2 behind =>
    obtain ⟨-, rfl⟩ := Prod.mk.inj (Except.ok.inj hread)
    rfl
  | case5 a b c d code hcode _ e f g h behind low hlow _ ih =>
    obtain ⟨more, hmore⟩ := prepend_eq_ok hread
    simp only [skipCharacters, hcode, hlow]
    exact ih hmore
  | case9 a b c d behind code hcode _ _ ih =>
    obtain ⟨more, hmore⟩ := prepend_eq_ok hread
    simp only [skipCharacters, hcode]
    exact ih hmore
  | case11 c behind hunit escaped hescape ih =>
    obtain ⟨more, hmore⟩ := prepend_eq_ok hread
    rw [skipCharacters, hescape]
    · exact ih hmore
    · exact hunit
  | case13 c behind hquote hunit hescape hplain ih =>
    obtain ⟨more, hmore⟩ := prepend_eq_ok hread
    rw [skipCharacters, if_neg hplain]
    · exact ih hmore
    · exact hquote
    · exact hunit
    · exact hescape

/-- Only literals are read. -/
theorem exists_literal_of_read {content : String} (hread : readLiteral s = .ok (content, rest)) :
    ∃ literal : Literal, s = literal.inside ++ rest := by
  rw [readLiteral] at hread
  cases hcharacters : readCharacters s with
  | error fault =>
    rw [hcharacters] at hread
    cases hread
  | ok taken =>
    rw [hcharacters] at hread
    obtain ⟨-, rfl⟩ := Prod.mk.inj (Except.ok.inj hread)
    exact exists_literal_of_skip (skipCharacters_of_readCharacters hcharacters)

end Literals

end FrameSorter.Json
