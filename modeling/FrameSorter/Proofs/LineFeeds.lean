import FrameSorter.Compilation
import FrameSorter.Proofs.Identifiers
import FrameSorter.Proofs.TextLines

/-!
# Line feeds in the written commands

The line feeds of a command are those of the configured texts in it: quoting and JSON literals add
none, and a JSON literal even escapes those of its text. So a routing script has the two lines that it
is meant to have exactly if the kind of the frame, its target and the fallback have no line feed
(`length_textLines_routingScript_eq_two_iff`).
-/

set_option autoImplicit false
set_option relaxedAutoImplicit false

namespace FrameSorter

/-! ### Numbers, quoted texts and literals -/

/-- A number is written without a line feed. -/
theorem lineFeed_notMem_toDigits (n : Nat) : '\n' ∉ Nat.toDigits 10 n := by
  intro hfeed
  have hdigit := Nat.isDigit_of_mem_toDigits (by decide) (by decide) hfeed
  exact absurd hdigit (by decide)

/-- Escaping adds backslashes only. -/
theorem count_escape (delimiter : Char) (chars : List Char) :
    (Quoted.escape delimiter chars).count '\n' = chars.count '\n' := by
  induction chars with
  | nil => rfl
  | cons c rest ih =>
    rw [Quoted.escape]
    split <;> simp [List.count_cons, ih]

/-- A quoted text has the line feeds of the text. -/
theorem count_quote {delimiter : Char} (hdelimiter : delimiter ≠ '\n') (value : String) :
    (Quoted.quote value delimiter).toList.count '\n' = value.toList.count '\n' := by
  simp [Quoted.quote, count_escape, hdelimiter]

/-- A hexadecimal digit is no line feed. -/
theorem hexDigit_ne_lineFeed {n : Nat} (hn : n < 16) : Json.hexDigit n ≠ '\n' := by
  decide +revert

/-- No character is written with a line feed in a JSON literal. -/
theorem lineFeed_notMem_escapeCharacter (c : Char) : '\n' ∉ Json.escapeCharacter c := by
  unfold Json.escapeCharacter
  split_ifs with hquote hslash hback hform hfeed hreturn htab hcontrol
  · decide
  · decide
  · decide
  · decide
  · decide
  · decide
  · decide
  · have hhigh := hexDigit_ne_lineFeed (n := c.toNat / 16) (by omega)
    have hlow := hexDigit_ne_lineFeed (n := c.toNat % 16) (by omega)
    simp [hhigh.symm, hlow.symm]
  · simpa using Ne.symm hfeed

/-- A JSON literal has no line feed. -/
theorem count_literal (text : String) : (Json.literal text).toList.count '\n' = 0 := by
  rw [List.count_eq_zero, Json.literal, String.toList_ofList]
  simp [lineFeed_notMem_escapeCharacter]

/-! ### Routing scripts -/

/-- The data that the shown item must have have the line feeds of its identifier. -/
theorem count_itemPredicate (frame : FrameMatch) :
    frame.itemPredicate.toList.count '\n' = frame.target.toList.count '\n' := by
  unfold FrameMatch.itemPredicate
  cases frame.name with
  | none => simp [count_quote]
  | some name => simp [count_quote, count_literal]

/-- A selector has the line feeds of the kind and of the target of its frame. -/
theorem count_selector (frame : FrameMatch) :
    frame.selector.toList.count '\n' =
      frame.kind.toList.count '\n' + frame.target.toList.count '\n' := by
  have hradius := List.count_eq_zero.mpr (lineFeed_notMem_toDigits frame.radius.toNat)
  simp [FrameMatch.selector, count_itemPredicate, hradius]

/-- A routing script has two lines, and one more for each line feed of its fallback and of the three
selectors in it. -/
theorem length_textLines_routingScript (frame : FrameMatch) (fallback : String) :
    (textLines (routingScript frame fallback)).length =
      2 + 3 * (frame.kind.toList.count '\n' + frame.target.toList.count '\n') +
        fallback.toList.count '\n' := by
  have hlines := length_textLines
    ("execute if entity " ++ frame.selector ++ " run tp @s " ++ frame.selector ++ "\n" ++
      "execute unless entity " ++ frame.selector ++ " run " ++ fallback)
  refine hlines.trans ?_
  simp [count_selector]
  omega

/-- A routing script has two lines exactly if the kind of its frame, the target and the fallback have no
line feed. -/
theorem length_textLines_routingScript_eq_two_iff {frame : FrameMatch} {fallback : String} :
    (textLines (routingScript frame fallback)).length = 2 ↔
      '\n' ∉ frame.kind.toList ∧ '\n' ∉ frame.target.toList ∧ '\n' ∉ fallback.toList := by
  rw [length_textLines_routingScript, ← List.count_eq_zero, ← List.count_eq_zero,
    ← List.count_eq_zero]
  omega

/-- A call has the line feeds of its namespace and of the function's name. -/
theorem count_functionCall (space name : String) :
    (functionCall space name).toList.count '\n' =
      space.toList.count '\n' + name.toList.count '\n' := by
  simp [functionCall, resourceLocation]

/-- A call of a group's function has the line feeds of its namespace. -/
theorem count_groupCall (space name : String) :
    (functionCall space (groupArtifactName (groupId name))).toList.count '\n' =
      space.toList.count '\n' := by
  have hid := List.count_eq_zero.mpr (notMem_groupId (c := '\n') (by decide) name)
  rw [count_functionCall]
  simp [groupArtifactName, hid]

end FrameSorter
