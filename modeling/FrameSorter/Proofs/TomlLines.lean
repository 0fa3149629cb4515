import FrameSorter.Proofs.TomlTables
import FrameSorter.Proofs.TomlTokens
import FrameSorter.Toml.Reader

/-!
# The lines of a TOML document

A document that says something about a configuration consists of lines of two kinds: a key with a text,
a number or a list of texts (`keyLine`), and the header of a table (`tableLine`, `elementLine`). Any
blank lines may stand between them (`SpellsLines`). The reader of lines comes from one outline and text
to another in some number of steps (`Advances`): it skips what is blank, a line with a key puts its value
into the table that is open (`advances_keyLine`), and a header opens another one (`advances_tableLine`,
`advances_elementLine`). So the lines behind a header add what they say to its table, one after another
(`advances_keyLines`).
-/

set_option autoImplicit false
set_option relaxedAutoImplicit false

namespace FrameSorter.Toml

variable {s rest tail : List Char} {c : Char}

/-! ### The end of a line -/

/-- What stands at the end of a line: a line break in front of the next line, or nothing. -/
inductive EndsLine : List Char → List Char → Prop
  | lineFeed (rest : List Char) : EndsLine ('\n' :: rest) rest
  | carriageReturn (rest : List Char) : EndsLine ('\r' :: '\n' :: rest) rest
  | last : EndsLine [] []

namespace EndsLine

/-- The next line is no longer than the end of the line before it. -/
theorem length_le (h : EndsLine tail rest) : rest.length ≤ tail.length := by
  cases h with
  | lineFeed rest => exact Nat.le_succ _
  | carriageReturn rest => exact Nat.le_add_right _ 2
  | last => exact Nat.le_refl _

/-- The end of a line ends a value. -/
theorem endsValue (h : EndsLine tail rest) : ∀ c ∈ tail.head?, EndsValue c := by
  cases h <;> rintro c ⟨⟩ <;> decide

/-- It starts with no blank. -/
theorem not_isBlank (h : EndsLine tail rest) : ∀ c ∈ tail.head?, ¬ isBlank c := by
  cases h <;> rintro c ⟨⟩ <;> decide

/-- Behind the last token and blanks the next line is read. -/
theorem endOfLine_eq (h : EndsLine tail rest) {gap : List Char} (hgap : ∀ c ∈ gap, isBlank c) :
    endOfLine (gap ++ tail) = .ok rest := by
  rw [endOfLine, skipBlanks_append hgap h.not_isBlank]
  cases h <;> rfl

end EndsLine

/-- A blank ends a value. -/
theorem endsValue_of_isBlank (hc : isBlank c) : EndsValue c := by
  simp only [isBlank, Bool.or_eq_true, beq_iff_eq] at hc
  rcases hc with rfl | rfl <;> decide

/-- What stands behind the last token of a line ends a value. -/
theorem endsValue_of_spells_nil (hend : EndsLine tail rest) (h : Spells tail [] s) :
    ∀ c ∈ s.head?, EndsValue c := by
  cases h with
  | @nil gap hgap =>
    intro c hc
    cases gap with
    | nil => exact hend.endsValue c hc
    | cons d gap =>
      obtain rfl := Option.some.inj hc
      exact endsValue_of_isBlank (hgap d List.mem_cons_self)

/-! ### Values -/

/-- What a line of a configuration says under a key. -/
inductive Plain
  | text (content : String)
  | number (n : UInt32)
  | texts (contents : List String)
  deriving DecidableEq, Repr

/-- Texts with commas between them. -/
def separated : List String → List Token
  | [] => []
  | content :: contents =>
    .text content :: ((if contents.isEmpty then [] else [.mark .comma]) ++ separated contents)

/-- No text among them is a key. -/
theorem countP_separated (contents : List String) :
    contents.length ≤ (separated contents).countP (!·.isKey) := by
  induction contents with
  | nil => exact Nat.zero_le _
  | cons content contents ih =>
    rw [separated, List.countP_cons_of_pos rfl, List.countP_append, List.length_cons]
    omega

/-- How it is written. -/
def Plain.tokens : Plain → List Token
  | .text content => [.text content]
  | .number n => [.number n.toNat]
  | .texts contents => .mark .openBracket :: (separated contents ++ [.mark .closeBracket])

/-- The value that it is. -/
def Plain.value : Plain → Value
  | .text content => .text content
  | .number n => .integer n.toNat
  | .texts contents => .list (contents.map .text)

/-- What no bracket opens is read at any depth. -/
theorem value_eq_scalar (depth : Nat) (hlist : c ≠ '[') (htable : c ≠ '\x7b') (s : List Char) :
    value depth (c :: s) = scalar (c :: s) := by
  cases depth with
  | zero => rfl
  | succ depth =>
    unfold value
    split
    · rename_i h
      exact absurd (List.cons.inj h).1 hlist
    · rename_i h
      exact absurd (List.cons.inj h).1 htable
    · rfl

/-- A text is read. -/
theorem value_text (isUpper : Bool) (content : String) (depth : Nat)
    (hrest : ∀ c ∈ rest.head?, EndsValue c) :
    value depth ((Token.text content).characters isUpper ++ rest) = .ok (.text content, rest) := by
  have htext := text_append isUpper content hrest
  rw [Token.characters, List.cons_append] at htext ⊢
  rw [value_eq_scalar depth (by decide) (by decide), scalar, if_pos (.inl rfl), htext]
  · rfl
  all_goals simp

/-- What starts with a digit or a minus sign is a number, a date or a time. -/
theorem value_eq_readNumeric (depth : Nat) (hc : c = '-' ∨ c.isDigit) (s : List Char) :
    value depth (c :: s) = readNumeric (c :: s) := by
  have hother {d : Char} (hd : ¬ (d = '-' ∨ d.isDigit)) : c ≠ d := by
    rintro rfl
    exact hd hc
  rw [value_eq_scalar depth (hother (by decide)) (hother (by decide)), scalar,
    if_neg (not_or.mpr ⟨hother (by decide), hother (by decide)⟩),
    if_pos (hc.elim (fun h ↦ .inr (.inr h)) .inl)]
  · exact fun _ h _ ↦ hother (by decide) h
  · exact fun _ h _ ↦ hother (by decide) h

/-- A whole number is read if it is one of 64 bits with a sign. -/
theorem value_toString (n : Int) (depth : Nat) (hrest : ∀ c ∈ rest.head?, EndsValue c) :
    value depth ((toString n).toList ++ rest) =
      if -2 ^ 63 ≤ n ∧ n < 2 ^ 63 then .ok (.integer n, rest) else .error .malformed := by
  obtain ⟨first, more, hfirst, hstarts⟩ := toString_eq_cons n
  rw [← readNumeric_toString n hrest, hfirst, List.cons_append, value_eq_readNumeric depth hstarts]

/-- A number of 32 bits is read back. -/
theorem value_number (isUpper : Bool) (n : UInt32) (depth : Nat)
    (hrest : ∀ c ∈ rest.head?, EndsValue c) :
    value depth ((Token.number n.toNat).characters isUpper ++ rest) =
      .ok (.integer n.toNat, rest) := by
  have hsize := n.toNat_lt
  have hdigits : (Token.number n.toNat).characters isUpper = (toString (n.toNat : Int)).toList :=
    (toList_toString_of_nonneg (Int.natCast_nonneg _)).symm
  rw [hdigits, value_toString _ depth hrest, if_pos (by omega)]

/-- Blanks are skipped between the parts of a list. -/
theorem gap_eq (hskip : skipBlanks s = c :: rest) (hc : c ∉ ['#', '\n', '\r']) :
    gap s = .ok ((), c :: rest) := by
  simp only [List.mem_cons, List.not_mem_nil, or_false, not_or] at hc
  obtain ⟨hcomment, hfeed, hreturn⟩ := hc
  have hbreak : afterLineBreak? (c :: rest) = none := by
    unfold afterLineBreak?
    split
    · rename_i h
      exact absurd (List.cons.inj h).1 hfeed
    · rename_i h
      exact absurd (List.cons.inj h).1 hreturn
    · rfl
  have hskipped : skipGap (s.length + 1) s = .ok (c :: rest) := by
    rw [skipGap, hskip]
    split
    · rename_i h
      exact absurd (List.cons.inj h).1 hcomment
    · rw [hbreak]
      exact if_neg fun h ↦ hreturn (Option.some.inj h)
  rw [gap, hskipped]
  rfl

/-- A character that has to be there is taken. -/
theorem expect_cons (c : Char) (rest : List Char) : expect c (c :: rest) = .ok ((), rest) := by
  rw [expect, behind?, if_pos rfl]

/-- A comma or the closing bracket behind an element of a list ends it. -/
theorem endsValue_of_spells_mark {sign : Mark} {tokens : List Token} {first : Char}
    {more : List Char} (hfirst : sign.characters = first :: more) (hends : EndsValue first)
    (h : Spells tail (.mark sign :: tokens) s) : ∀ c ∈ s.head?, EndsValue c := by
  obtain ⟨c, hc, hblank | ⟨_, hmark⟩⟩ := h.head_eq (isVisible_of_isKey rfl)
  · exact fun d hd ↦ Option.mem_unique hc hd ▸ endsValue_of_isBlank hblank
  · rw [Token.characters, hfirst, List.head?_cons, Option.mem_some_iff] at hmark
    exact fun d hd ↦ Option.mem_unique hc hd ▸ hmark ▸ hends

/-- The elements of a list of texts are read one after another. -/
theorem elements_of_spells (depth : Nat) {contents : List String} {steps : Nat}
    (hsteps : contents.length < steps)
    (h : Spells tail (separated contents ++ [.mark .closeBracket]) s) :
    ∃ behind, Spells tail [] behind ∧
      elements (value depth) steps s = .ok (contents.map .text, ']' :: behind) := by
  induction contents generalizing steps s with
  | nil =>
    obtain ⟨steps, rfl⟩ := Nat.exists_eq_add_one.mpr hsteps
    obtain ⟨_, behind, hbehind, hskip⟩ := Spells.skipBlanks_eq h (isVisible_of_isKey rfl)
    refine ⟨behind, hbehind, ?_⟩
    rw [elements, bind_of_ok (gap_eq hskip (by decide)), bind_of_ok (get_ok _)]
    rfl
  | cons content contents ih =>
    obtain ⟨steps, rfl⟩ := Nat.exists_eq_add_one.mpr (Nat.zero_lt_of_lt hsteps)
    obtain ⟨isUpper, front, hfront, hskip⟩ := Spells.skipBlanks_eq h (isVisible_of_isKey rfl)
    have hgap : gap s = .ok ((), (Token.text content).characters isUpper ++ front) :=
      gap_eq hskip (by decide)
    have hends : ∀ c ∈ front.head?, EndsValue c := by
      cases contents with
      | nil => exact endsValue_of_spells_mark rfl (by decide) hfront
      | cons next contents => exact endsValue_of_spells_mark rfl (by decide) hfront
    have helement := value_text isUpper content depth hends
    have hnotClose : ((Token.text content).characters isUpper ++ front).head? ≠ some ']' :=
      fun h ↦ absurd (Option.some.inj h) (by decide)
    rw [elements, bind_of_ok hgap, bind_of_ok (get_ok _), if_neg hnotClose]
    cases contents with
    | nil =>
      obtain ⟨_, behind, hbehind, hclose⟩ := Spells.skipBlanks_eq hfront (isVisible_of_isKey rfl)
      refine ⟨behind, hbehind, ?_⟩
      rw [bind_of_ok helement, bind_of_ok (gap_eq hclose (by decide)), bind_of_ok (get_ok _)]
      rfl
    | cons next contents =>
      obtain ⟨_, front, hfront, hcomma⟩ := Spells.skipBlanks_eq hfront (isVisible_of_isKey rfl)
      change skipBlanks _ = ',' :: front at hcomma
      have hhead : (',' :: front).head? = some ',' := rfl
      obtain ⟨behind, hbehind, htail⟩ := ih (Nat.lt_of_succ_lt_succ hsteps) hfront
      refine ⟨behind, hbehind, ?_⟩
      rw [bind_of_ok helement, bind_of_ok (gap_eq hcomma (by decide)), bind_of_ok (get_ok _),
        if_pos hhead, bind_of_ok (expect_cons ',' front), bind_of_ok htail]
      rfl

/-- What a line says is read from its tokens. -/
theorem value_of_spells (plain : Plain) (hend : EndsLine tail rest)
    (h : Spells tail plain.tokens s) :
    ∃ behind, Spells tail [] behind ∧
      value depthLimit (skipBlanks s) = .ok (plain.value, behind) := by
  cases plain with
  | text content =>
    obtain ⟨isUpper, behind, hbehind, hskip⟩ := Spells.skipBlanks_eq h (isVisible_of_isKey rfl)
    refine ⟨behind, hbehind, ?_⟩
    rw [hskip]
    exact value_text isUpper content depthLimit (endsValue_of_spells_nil hend hbehind)
  | number n =>
    obtain ⟨isUpper, behind, hbehind, hskip⟩ := Spells.skipBlanks_eq h (isVisible_of_isKey rfl)
    refine ⟨behind, hbehind, ?_⟩
    rw [hskip]
    exact value_number isUpper n depthLimit (endsValue_of_spells_nil hend hbehind)
  | texts contents =>
    obtain ⟨_, inside, hinside, hskip⟩ := Spells.skipBlanks_eq h (isVisible_of_isKey rfl)
    change skipBlanks s = '[' :: inside at hskip
    have hsteps : contents.length < inside.length + 1 := by
      have htexts := countP_separated contents
      have hlength := hinside.countP_add_length_le
      rw [List.countP_append] at hlength
      omega
    obtain ⟨behind, hbehind, helements⟩ := elements_of_spells 79 hsteps hinside
    have hlist : value depthLimit ('[' :: inside) = listBody (value 79) inside := by
      rw [depthLimit, value]
      rfl
    refine ⟨behind, hbehind, ?_⟩
    rw [hskip, hlist, listBody, bind_of_ok (get_ok inside), bind_of_ok helements,
      bind_of_ok (expect_cons ']' behind)]
    rfl

/-! ### Keys -/

/-- No mark could be part of a key. -/
theorem Mark.not_isBareKeyPart (sign : Mark) :
    ∀ c ∈ sign.characters.head?, ¬ isBareKeyPart c ∧ c ≠ '.' := by
  cases sign <;> rintro c ⟨⟩ <;> decide

/-- Behind a key stand only blanks, in front of the mark that follows. -/
theorem keyPart_append {word : String} (hword : IsWord word)
    (hrest : ∀ c ∈ rest.head?, ¬ isBareKeyPart c) :
    keyPart (word.toList ++ rest) = .ok (word, rest) := by
  have hparts : ∀ c ∈ word.toList, isBareKeyPart c := fun c hc ↦ by
    simp [isBareKeyPart, Char.isAlphanum, hword.2 c hc]
  obtain ⟨first, more, hfirst, hletter⟩ := hword.toList_eq_cons
  have htake := takeWhile_append_of_head hparts hrest
  have hdrop := dropWhile_append_of_head hparts hrest
  unfold keyPart
  split
  · rename_i h
    rw [hfirst] at h
    obtain ⟨rfl, -⟩ := List.cons.inj h
    exact absurd hletter (by decide)
  · rename_i h
    rw [hfirst] at h
    obtain ⟨rfl, -⟩ := List.cons.inj h
    exact absurd hletter (by decide)
  · rw [htake, hdrop]
    split
    · rename_i h
      exact absurd (h.symm.trans hfirst) (List.cons_ne_nil _ _).symm
    · rw [String.ofList_toList]

/-- A word is read as a key in front of a mark. -/
theorem key_of_spells {word : String} (hword : IsWord word)
    {sign : Mark} {tokens : List Token} (h : Spells tail (.key word :: .mark sign :: tokens) s) :
    ∃ behind, Spells tail tokens behind ∧
      key s = .ok (([], word), sign.characters ++ behind) := by
  obtain ⟨_, front, hfront, hskip⟩ := h.skipBlanks_eq (isVisible_key hword)
  change skipBlanks s = word.toList ++ front at hskip
  obtain ⟨_, behind, hbehind, hmark⟩ := hfront.skipBlanks_eq (isVisible_of_isKey rfl)
  change skipBlanks front = sign.characters ++ behind at hmark
  have hends : ∀ c ∈ front.head?, ¬ isBareKeyPart c := by
    obtain ⟨c, hc, hblank | ⟨_, hsign⟩⟩ := hfront.head_eq (isVisible_of_isKey rfl)
    · intro d hd
      obtain rfl := Option.mem_unique hc hd
      simp only [isBlank, Bool.or_eq_true, beq_iff_eq] at hblank
      rcases hblank with rfl | rfl <;> decide
    · exact fun d hd ↦ Option.mem_unique hc hd ▸ (sign.not_isBareKeyPart c hsign).1
  have hparts : keyParts (s.length + 1) s = .ok ([word], sign.characters ++ behind) := by
    rw [keyParts, bind_of_ok (modify_ok skipBlanks s), hskip, bind_of_ok (keyPart_append hword hends),
      bind_of_ok (modify_ok skipBlanks front), hmark, bind_of_ok (get_ok _)]
    cases sign <;> rfl
  refine ⟨behind, hbehind, ?_⟩
  rw [key, bind_of_ok (get_ok s), bind_of_ok hparts]
  rfl

/-! ### Lines -/

/-- The line of a key and what stands under it. -/
def keyLine (entry : String × Plain) : List Token :=
  .key entry.1 :: .mark .equals :: entry.2.tokens

/-- The header of a table. -/
def tableLine (key : String) : List Token :=
  [.mark .openBracket, .key key, .mark .closeBracket]

/-- The header of the next element of a list of tables. -/
def elementLine (key : String) : List Token :=
  [.mark .openBrackets, .key key, .mark .closeBrackets]

/-- A text that consists of these lines, with blank lines or none around them. -/
inductive SpellsLines : List (List Token) → List Char → Prop
  | nil {gap : List Char} (hgap : ∀ c ∈ gap, isBlank c) : SpellsLines [] gap
  | blank {lines : List (List Token)} {gap tail rest : List Char} (hgap : ∀ c ∈ gap, isBlank c)
      (hend : EndsLine tail rest) (htail : tail ≠ []) (hrest : SpellsLines lines rest) :
      SpellsLines lines (gap ++ tail)
  | cons {line : List Token} {lines : List (List Token)} {tail rest s : List Char}
      (hline : Spells tail line s) (hend : EndsLine tail rest) (hrest : SpellsLines lines rest) :
      SpellsLines (line :: lines) s

/-- From one outline and text the reader of lines comes to another, whatever number of steps it has
as long as the text is shorter. -/
def Advances (outline : Outline) (s : List Char) (next : Outline) (rest : List Char) : Prop :=
  ∀ ⦃steps⦄, s.length < steps → ∃ left, rest.length < left ∧
    lines steps outline s = lines left next rest

namespace Advances

/-- Nothing is read. -/
theorem refl (outline : Outline) (s : List Char) : Advances outline s outline s :=
  fun steps hsteps ↦ ⟨steps, hsteps, rfl⟩

/-- One part is read after another. -/
theorem trans {first second third : Outline} {t : List Char} (h : Advances first s second t)
    (hnext : Advances second t third rest) : Advances first s third rest := by
  intro steps hsteps
  obtain ⟨between, hbetween, hfirst⟩ := h hsteps
  obtain ⟨left, hleft, hsecond⟩ := hnext hbetween
  exact ⟨left, hleft, hfirst.trans hsecond⟩

/-- A line that is read in one step. -/
theorem of_step {outline next : Outline} (hlength : rest.length < s.length)
    (hstep : ∀ steps, lines (steps + 1) outline s = lines steps next rest) :
    Advances outline s next rest := by
  intro steps hsteps
  obtain ⟨steps, rfl⟩ := Nat.exists_eq_add_one.mpr (Nat.zero_lt_of_lt hsteps)
  exact ⟨steps, by omega, hstep steps⟩

end Advances

/-- A line without tokens is skipped. -/
theorem lines_break (outline : Outline) (steps : Nat) (hskip : skipBlanks s = c :: tail)
    (hc : c = '#' ∨ c = '\n' ∨ c = '\r') (hend : endOfLine (c :: tail) = .ok rest) :
    lines (steps + 1) outline s = lines steps outline rest := by
  have hbracket : c ≠ '[' := by
    rintro rfl
    exact absurd hc (by decide)
  rw [lines, bind_of_ok (modify_ok skipBlanks s), bind_of_ok (get_ok _), hskip]
  simp only [if_pos hc]
  rw [hend, bind_of_ok (liftM_of_ok rest _), bind_of_ok (set_ok _ rest)]

/-- A line with a header opens a table. -/
theorem lines_header {outline next : Outline} (steps : Nat) (hskip : skipBlanks s = '[' :: tail)
    {behind : List Char} (hheader : header outline tail = .ok (next, behind))
    (hend : endOfLine behind = .ok rest) :
    lines (steps + 1) outline s = lines steps next rest := by
  rw [lines, bind_of_ok (modify_ok skipBlanks s), bind_of_ok (get_ok _), hskip]
  simp only []
  rw [bind_of_ok (set_ok _ tail), bind_of_ok hheader, bind_of_ok (get_ok behind), hend,
    bind_of_ok (liftM_of_ok rest _), bind_of_ok (set_ok _ rest)]

/-- A line with a key puts a value into the table that is open. -/
theorem lines_key {outline : Outline} (steps : Nat) (hskip : skipBlanks s = c :: tail)
    (hbracket : c ≠ '[') (hbreak : ¬ (c = '#' ∨ c = '\n' ∨ c = '\r')) {path : List String}
    {last : String} {found : Value} {behind : List Char}
    (hread : keyValue (value depthLimit) (c :: tail) = .ok (((path, last), found), behind))
    (hend : endOfLine behind = .ok rest) {root : Members}
    (hroot : putValue outline.here path last found outline.root = .ok root) :
    lines (steps + 1) outline s = lines steps { outline with root } rest := by
  rw [lines, bind_of_ok (modify_ok skipBlanks s), bind_of_ok (get_ok _), hskip]
  simp only [if_neg hbreak]
  rw [bind_of_ok hread, bind_of_ok (get_ok behind), hend, bind_of_ok (liftM_of_ok rest _),
    bind_of_ok (set_ok _ rest), hroot, bind_of_ok (liftM_of_ok root _)]

/-- A line with a key has the fault of what stands under it. -/
theorem lines_eq_error {outline : Outline} {fault : Fault} (steps : Nat)
    (hskip : skipBlanks s = c :: tail) (hbracket : c ≠ '[')
    (hbreak : ¬ (c = '#' ∨ c = '\n' ∨ c = '\r'))
    (hread : keyValue (value depthLimit) (c :: tail) = .error fault) :
    lines (steps + 1) outline s = .error fault := by
  rw [lines, bind_of_ok (modify_ok skipBlanks s), bind_of_ok (get_ok _), hskip]
  simp only [if_neg hbreak]
  exact bind_of_error hread _

/-- A blank line changes nothing. -/
theorem advances_blank (outline : Outline) {gap : List Char} (hgap : ∀ c ∈ gap, isBlank c)
    (hend : EndsLine tail rest) (htail : tail ≠ []) :
    Advances outline (gap ++ tail) outline rest := by
  obtain ⟨c, more, rfl⟩ := List.exists_cons_of_ne_nil htail
  have hskip := skipBlanks_append hgap hend.not_isBlank
  have hread : endOfLine (c :: more) = .ok rest := hend.endOfLine_eq (List.forall_mem_nil _)
  have hbreak : c = '#' ∨ c = '\n' ∨ c = '\r' := by
    cases hend with
    | lineFeed => exact .inr (.inl rfl)
    | carriageReturn => exact .inr (.inr rfl)
  have hlength : rest.length < (gap ++ c :: more).length := by
    rw [List.length_append]
    cases hend <;> simp only [List.length_cons] <;> omega
  exact .of_step hlength fun steps ↦ lines_break outline steps hskip hbreak hread

/-- Behind the last token of a line the next one is read. -/
theorem endOfLine_of_spells (hend : EndsLine tail rest) (h : Spells tail [] s) :
    endOfLine s = .ok rest := by
  cases h with
  | nil hgap => exact hend.endOfLine_eq hgap

/-- A line is longer than what follows it. -/
theorem length_lt_of_spells {line : List Token} (hline : line.countP (!·.isKey) ≠ 0)
    (h : Spells tail line s) (hend : EndsLine tail rest) : rest.length < s.length := by
  have hcount := h.countP_add_length_le
  have htail := hend.length_le
  omega

/-- A key and what stands under it are read. -/
theorem keyValue_of_spells {entry : String × Plain}
    (hkey : IsWord entry.1) (h : Spells tail (keyLine entry) s)
    (hend : EndsLine tail rest) :
    ∃ behind, Spells tail [] behind ∧
      keyValue (value depthLimit) s = .ok ((([], entry.1), entry.2.value), behind) := by
  obtain ⟨front, hfront, hread⟩ := key_of_spells hkey h
  obtain ⟨behind, hbehind, hvalue⟩ := value_of_spells entry.2 hend hfront
  change key s = .ok (([], entry.1), '=' :: front) at hread
  refine ⟨behind, hbehind, ?_⟩
  rw [keyValue, bind_of_ok hread, bind_of_ok (expect_cons '=' front),
    bind_of_ok (modify_ok skipBlanks front), bind_of_ok hvalue]
  rfl

/-- The line of a key puts its value into the table that is open. -/
theorem advances_keyLine (outline : Outline) {entry : String × Plain}
    (hkey : IsWord entry.1) (h : Spells tail (keyLine entry) s)
    (hend : EndsLine tail rest) {root : Members}
    (hroot : putValue outline.here [] entry.1 entry.2.value outline.root = .ok root) :
    Advances outline s { outline with root } rest := by
  have hlength := length_lt_of_spells (by simp [keyLine, Token.isKey]) h hend
  obtain ⟨isUpper, front, hfront, hskip⟩ := h.skipBlanks_eq (isVisible_key hkey)
  obtain ⟨behind, hbehind, hread⟩ := keyValue_of_spells hkey (hfront.cons_append isUpper _) hend
  obtain ⟨first, more, hfirst, hletter⟩ := hkey.toList_eq_cons
  have htoken : (Token.key entry.1).characters isUpper = first :: more := hfirst
  have hbracket : first ≠ '[' := by
    rintro rfl
    exact absurd hletter (by decide)
  have hbreak : ¬ (first = '#' ∨ first = '\n' ∨ first = '\r') := by
    rintro (rfl | rfl | rfl) <;> exact absurd hletter (by decide)
  rw [htoken, List.cons_append] at hskip hread
  exact .of_step hlength fun steps ↦ lines_key steps hskip hbracket hbreak hread
    (endOfLine_of_spells hend hbehind) hroot

/-- The header of a table opens it. -/
theorem advances_tableLine (outline : Outline) {word : String}
    (hword : IsWord word) (h : Spells tail (tableLine word) s)
    (hend : EndsLine tail rest) {root : Members}
    (hroot : openTable [] word outline.root = .ok root) :
    Advances outline s { root, here := [word] } rest := by
  have hlength := length_lt_of_spells (by simp [tableLine, Token.isKey]) h hend
  obtain ⟨_, front, hfront, hskip⟩ := h.skipBlanks_eq (isVisible_of_isKey rfl)
  change skipBlanks s = '[' :: front at hskip
  obtain ⟨behind, hbehind, hread⟩ := key_of_spells hword hfront
  change key front = .ok (([], word), ']' :: behind) at hread
  have hheader : header outline front = .ok ({ root, here := [word] }, behind) := by
    have hone : front.head? ≠ some '[' := by
      obtain ⟨c, hc, hblank | ⟨_, hletter⟩⟩ := hfront.head_eq (isVisible_key hword)
      · rintro hbracket
        obtain rfl := Option.mem_unique hc hbracket
        exact absurd hblank (by decide)
      · rintro hbracket
        obtain rfl := Option.mem_unique hc hbracket
        exact absurd (hword.2 '[' (List.mem_of_mem_head? hletter)) (by decide)
    rw [header, bind_of_ok (get_ok front), if_neg hone, bind_of_ok hread]
    dsimp only
    rw [bind_of_ok (expect_cons ']' behind), hroot, bind_of_ok (liftM_of_ok root _)]
    rfl
  exact .of_step hlength fun steps ↦
    lines_header steps hskip hheader (endOfLine_of_spells hend hbehind)

/-- The header of an element opens the next one. -/
theorem advances_elementLine (outline : Outline) {word : String}
    (hword : IsWord word) (h : Spells tail (elementLine word) s)
    (hend : EndsLine tail rest) {root : Members}
    (hroot : openElement [] word outline.root = .ok root) :
    Advances outline s { root, here := [word] } rest := by
  have hlength := length_lt_of_spells (by simp [elementLine, Token.isKey]) h hend
  obtain ⟨_, front, hfront, hskip⟩ := h.skipBlanks_eq (isVisible_of_isKey rfl)
  change skipBlanks s = '[' :: '[' :: front at hskip
  obtain ⟨behind, hbehind, hread⟩ := key_of_spells hword hfront
  change key front = .ok (([], word), ']' :: ']' :: behind) at hread
  have hheader : header outline ('[' :: front) = .ok ({ root, here := [word] }, behind) := by
    have htwo : ('[' :: front).head? = some '[' := rfl
    rw [header, bind_of_ok (get_ok _), if_pos htwo, bind_of_ok (expect_cons '[' front),
      bind_of_ok hread]
    dsimp only
    rw [bind_of_ok (expect_cons ']' _), bind_of_ok (expect_cons ']' behind), hroot,
      bind_of_ok (liftM_of_ok root _)]
    rfl
  exact .of_step hlength fun steps ↦
    lines_header steps hskip hheader (endOfLine_of_spells hend hbehind)

/-! ### Documents -/

/-- In front of a line blank lines are skipped. -/
theorem exists_line {line : List Token} {lines : List (List Token)}
    (h : SpellsLines (line :: lines) s) (outline : Outline) :
    ∃ front tail rest, Advances outline s outline front ∧ Spells tail line front ∧
      EndsLine tail rest ∧ SpellsLines lines rest := by
  generalize hlines : line :: lines = all at h
  induction h with
  | nil => exact absurd hlines (List.cons_ne_nil _ _)
  | blank hgap hend htail _ ih =>
    obtain ⟨front, tail, rest, hadvances, hline⟩ := ih hlines
    exact ⟨front, tail, rest, (advances_blank outline hgap hend htail).trans hadvances, hline⟩
  | @cons _ _ tail rest s hline hend hrest _ =>
    obtain ⟨rfl, rfl⟩ := List.cons.inj hlines
    exact ⟨s, tail, rest, .refl outline s, hline, hend, hrest⟩

/-- The lines of a document are over at its end. -/
theorem lines_of_spells_nil (h : SpellsLines [] s) (outline : Outline) {steps : Nat}
    (hsteps : s.length < steps) : lines steps outline s = .ok (outline, []) := by
  generalize hlines : [] = all at h
  induction h generalizing steps with
  | @nil gap hgap =>
    obtain ⟨steps, rfl⟩ := Nat.exists_eq_add_one.mpr (Nat.zero_lt_of_lt hsteps)
    have hskip : skipBlanks gap = [] := List.dropWhile_eq_nil_iff.mpr hgap
    rw [lines, bind_of_ok (modify_ok skipBlanks gap), bind_of_ok (get_ok _), hskip]
    rfl
  | blank hgap hend htail _ ih =>
    obtain ⟨left, hleft, hadvances⟩ := advances_blank outline hgap hend htail hsteps
    rw [hadvances]
    exact ih hleft hlines
  | cons => exact absurd hlines.symm (List.cons_ne_nil _ _)

/-- What the members say that these lines add to a table. -/
def values (entries : List (String × Plain)) : Members :=
  entries.map fun entry ↦ (entry.1, entry.2.value)

/-- The lines of keys add what they say to the table that is open. -/
theorem advances_keyLines {here : List String} {place : Members → Members} (hopen : IsOpen here place)
    {entries : List (String × Plain)}
    (hkeys : ∀ entry ∈ entries, IsWord entry.1) {members : Members}
    (hnodup : ((members ++ values entries).map Prod.fst).Nodup) {more : List (List Token)}
    (h : SpellsLines (entries.map keyLine ++ more) s) :
    ∃ rest, SpellsLines more rest ∧
      Advances ⟨place members, here⟩ s ⟨place (members ++ values entries), here⟩ rest := by
  induction entries generalizing members s with
  | nil =>
    rw [values, List.map_nil, List.append_nil]
    exact ⟨s, h, .refl _ s⟩
  | cons entry entries ih =>
    obtain ⟨hkey, hkeys⟩ := List.forall_mem_cons.mp hkeys
    have hmembers : members ++ values (entry :: entries) =
        (members ++ [(entry.1, entry.2.value)]) ++ values entries := by
      rw [List.append_assoc]
      rfl
    rw [hmembers] at hnodup ⊢
    have hnew : entry.1 ∉ members.map Prod.fst := by
      rw [List.map_append] at hnodup
      obtain ⟨hfront, -, -⟩ := List.nodup_append.mp hnodup
      rw [List.map_append] at hfront
      exact fun hmem ↦ (List.nodup_append.mp hfront).2.2 _ hmem _ List.mem_cons_self rfl
    obtain ⟨front, tail, next, hskip, hline, hend, hmore⟩ := exists_line h ⟨place members, here⟩
    obtain ⟨rest, hrest, hadvances⟩ := ih hkeys hnodup hmore
    have hstep := advances_keyLine ⟨place members, here⟩ hkey hline hend (hopen hnew)
    exact ⟨rest, hrest, hskip.trans (hstep.trans hadvances)⟩

end FrameSorter.Toml
