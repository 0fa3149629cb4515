import FrameSorter.Text.Quoted

/-!
# Reading quoted texts

Behind its opening delimiter a quoted text goes on up to the first delimiter that no backslash protects,
and a backslash makes the character behind it literal (`Quoted.scan`). So a text is read back from its
quoted form whatever follows (`scan_escape`, `read_quote_append`), and a quoted text is never the
beginning of another one (`quote_append_inj`).
-/

set_option autoImplicit false
set_option relaxedAutoImplicit false

namespace FrameSorter.Quoted

/-- The characters of a quoted text behind its opening delimiter, and what follows the closing one. -/
def scan (delimiter : Char) : List Char → Option (List Char × List Char)
  | [] => none
  | '\\' :: c :: rest => (scan delimiter rest).map fun (content, after) ↦ (c :: content, after)
  | c :: rest =>
    if c = delimiter then some ([], rest)
    else (scan delimiter rest).map fun (content, after) ↦ (c :: content, after)

section Scan

variable {delimiter : Char}

/-- A character behind a backslash is literal. -/
theorem scan_protected (c : Char) (rest : List Char) :
    scan delimiter ('\\' :: c :: rest) =
      (scan delimiter rest).map fun (content, after) ↦ (c :: content, after) :=
  rfl

/-- Without a backslash the delimiter ends the text. -/
theorem scan_delimiter (hdelimiter : delimiter ≠ '\\') (rest : List Char) :
    scan delimiter (delimiter :: rest) = some ([], rest) := by
  rw [scan, if_pos rfl]
  exact fun _ _ hbackslash _ ↦ hdelimiter hbackslash

/-- Any other character stands for itself. -/
theorem scan_plain {c : Char} (hbackslash : c ≠ '\\') (hc : c ≠ delimiter) (rest : List Char) :
    scan delimiter (c :: rest) =
      (scan delimiter rest).map fun (content, after) ↦ (c :: content, after) := by
  rw [scan, if_neg hc]
  exact fun _ _ hsame _ ↦ hbackslash hsame

/-- What is escaped is read back up to the closing delimiter. -/
theorem scan_escape (hdelimiter : delimiter ≠ '\\') (content rest : List Char) :
    scan delimiter (escape delimiter content ++ delimiter :: rest) = some (content, rest) := by
  induction content with
  | nil => exact scan_delimiter hdelimiter rest
  | cons c content ih =>
    rw [escape]
    split
    · rw [List.cons_append, List.cons_append, scan_protected, ih]
      rfl
    · rename_i hplain
      obtain ⟨hbackslash, hc⟩ := not_or.mp hplain
      rw [List.cons_append, scan_plain hbackslash hc, ih]
      rfl

end Scan

/-- A quoted text with something behind it starts with the delimiter and goes on with the escaped
characters. -/
theorem toList_quote_append (value : String) (delimiter : Char) (rest : List Char) :
    (quote value delimiter).toList ++ rest =
      delimiter :: (escape delimiter value.toList ++ delimiter :: rest) := by
  simp [quote]

/-- A text that starts with a quoted text does so in one way only. -/
theorem quote_append_inj {delimiter : Char} (hdelimiter : delimiter ≠ '\\') {first second : String}
    {rest rest' : List Char} :
    (quote first delimiter).toList ++ rest = (quote second delimiter).toList ++ rest' ↔
      first = second ∧ rest = rest' := by
  constructor
  · intro hsame
    rw [toList_quote_append, toList_quote_append, List.cons.injEq] at hsame
    have hread := congrArg (scan delimiter) hsame.2
    rw [scan_escape hdelimiter, scan_escape hdelimiter, Option.some.injEq, Prod.mk.injEq,
      String.toList_inj] at hread
    exact hread
  · rintro ⟨rfl, rfl⟩
    rfl

/-- Reads a quoted text from the front of a text: skips the delimiter and goes on to the first delimiter
that no backslash protects. The result is what the quoted text says and what follows it. -/
def read? (delimiter : Char) (text : String) : Option (String × String) :=
  match text.toList with
  | [] => none
  | first :: rest =>
    if first = delimiter then
      (scan delimiter rest).map fun (content, after) ↦ (String.ofList content, String.ofList after)
    else none

/-- A quoted text is read back in front of any other text, which is left as it is. -/
theorem read_quote_append {delimiter : Char} (hdelimiter : delimiter ≠ '\\') (value rest : String) :
    read? delimiter (quote value delimiter ++ rest) = some (value, rest) := by
  have hlist : (quote value delimiter ++ rest).toList =
      delimiter :: (escape delimiter value.toList ++ delimiter :: rest.toList) := by
    rw [String.toList_append, toList_quote_append]
  simp only [read?, hlist, if_true, scan_escape hdelimiter, Option.map_some, String.ofList_toList]

/-- A text that is nothing but delimiters and backslashes, in front of a text that begins with them. -/
theorem read_quote_append_marks :
    '"' ≠ '\\' ∧
      read? '"' (quote "\\\"\\" '"' ++ "\"\\") = some ("\\\"\\", "\"\\") :=
  ⟨by decide, read_quote_append (by decide) _ _⟩

end FrameSorter.Quoted
