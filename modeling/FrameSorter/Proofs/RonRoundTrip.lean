import FrameSorter.Compilation
import FrameSorter.Loading
import FrameSorter.Proofs.JsonRoundTrip
import FrameSorter.Proofs.RonTokens

/-!
# Configurations written in RON

RON writes a configuration as one record with all its members (`Ron.writing`). The name in front of a
record is optional, and so is the comma behind the last part of a list or a record. A reader takes a
value from the pieces that were written for it, whichever optional ones are there, as long as it has two
levels left for each level of parts (`Ron.Reads`). Lists and records share the loop over their parts: in
front of a part something stands that starts one (`Ron.StartsPart`), and behind it a comma is taken
unless no part is left (`Ron.comma_of_spells`). So RON reads back what it writes (`Ron.readsBack`), and
every configuration is loaded from each text that spells it, as the same configuration that JSON gives
(`parseConfig_ron_of_spells`).
-/

set_option autoImplicit false
set_option relaxedAutoImplicit false

namespace FrameSorter

namespace Ron

/-! ### Writing -/

/-- The comma in front of the parts that are left, which may be left out if there are none. -/
def commaBefore (parts : List (List Piece)) : Piece :=
  if parts.isEmpty then .optional (.mark .comma) else .required (.mark .comma)

/-- The parts of a list or a record, each with a comma behind it, the last one with or without. -/
def separated : List (List Piece) → List Piece
  | [] => []
  | part :: parts => part ++ commaBefore parts :: separated parts

/-- A member of a record: its name, a colon and its value. -/
def memberPieces (member : String × List Piece) : List Piece :=
  .required (.name member.1) :: .required (.mark .colon) :: member.2

/-- How RON writes the values of a configuration. The name in front of a record may be left out. -/
def writing : Writing (List Piece) where
  text content := [.required (.text content)]
  optionalText
    | some content =>
      [.required (.name "Some"), .required (.mark .openRecord), .required (.text content),
        .required (.mark .closeRecord)]
    | none => [.required (.name "None")]
  word n := [.required (.number n.toNat)]
  list elements :=
    .required (.mark .openList) :: (separated elements ++ [.required (.mark .closeList)])
  record name members :=
    .optional (.name name) :: .required (.mark .openRecord) ::
      (separated (members.map memberPieces) ++ [.required (.mark .closeRecord)])

/-! ### Reading -/

variable {α β : Type} {s rest : List Char} {pieces following : List Piece}

/-- What follows a reader that took a value goes on with that value, with the rest and with as many
levels. -/
theorem readerBind_of_ok {read : Reader α} {depth : Nat} {value : α}
    (hread : read depth s = .ok (value, rest)) (next : α → Reader β) :
    (read >>= next) depth s = next value depth rest :=
  bind_of_ok hread fun value ↦ next value depth

/-- Nothing is read behind a reader that fails. -/
theorem readerBind_of_error {read : Reader α} {depth : Nat} {fault : Fault}
    (hread : read depth s = .error fault) (next : α → Reader β) :
    (read >>= next) depth s = .error fault :=
  bind_of_error hread fun value ↦ next value depth

/-- A scanner takes the same at every level. -/
theorem scannerBind_of_ok {scan : Scanner α} {value : α} (hscan : scan s = .ok (value, rest))
    (next : α → Reader β) (depth : Nat) :
    ((liftM scan : Reader α) >>= next) depth s = next value depth rest :=
  bind_of_ok hscan fun value ↦ next value depth

/-- Whether every text of the pieces that may stand behind a value ends it. -/
def EndsValues (following : List Piece) : Prop :=
  ∀ ⦃s⦄, Spells following s → ∀ c ∈ s.head?, EndsValue c

/-- Whether a part of a list or a record starts with these pieces: behind the blanks, every text of them
goes on with a visible character that closes neither. -/
def StartsPart (pieces : List Piece) : Prop :=
  ∀ ⦃following s⦄, Spells (pieces ++ following) s →
    ∃ c rest, IsStart c ∧ skipGap .blanks s = .ok (c :: rest) ∧
      Spells (pieces ++ following) (c :: rest)

/-- A reader takes a value from the pieces in front of any text, if there is room for as many levels. -/
structure Reads (levels : Nat) {α : Type} (read : Reader α) (pieces : List Piece) (value : α) :
    Prop where
  starts : StartsPart pieces
  reads : ∀ {depth : Nat} {following : List Piece} {c : Char} {s : List Char},
    2 * levels < depth → EndsValues following → IsVisible c → Spells (pieces ++ following) (c :: s) →
      ∃ rest, Spells following rest ∧ read depth (c :: s) = .ok (value, rest)

/-- Pieces start with their first token if it has to be there. -/
theorem startsPart_of_characters {token : Token} {c : Char} {more : List Char}
    (htoken : token.characters = c :: more) (hc : IsStart c) (pieces : List Piece) :
    StartsPart (.required token :: pieces) := by
  intro following s h
  obtain ⟨rest, hrest, hskip⟩ := Spells.skipGap_eq h htoken hc.1
  rw [htoken, List.cons_append] at hskip
  refine ⟨c, more ++ rest, hc, hskip, ?_⟩
  rw [← List.cons_append, ← htoken]
  exact Spells.append token hrest

/-- A closing mark ends a value. -/
theorem endsValues_mark {sign : Mark} (hsign : EndsValue sign.character) (following : List Piece) :
    EndsValues (.required (.mark sign) :: following) := by
  intro s h c hc
  obtain ⟨first, rest, rfl, hfirst⟩ := h.head_mark
  obtain rfl := Option.some.inj hc
  rcases hfirst with hblank | rfl
  · exact .inl hblank
  · exact hsign

/-! ### Texts and numbers -/

/-- A text is read from its quotation. -/
theorem reads_text (levels : Nat) (content : String) :
    Reads levels (liftM string) (writing.text content) content where
  starts := startsPart_of_characters (Token.characters_text content) (by decide) _
  reads _ _ hc h := by
    obtain ⟨rest, hrest, htext⟩ := Spells.eq_append h hc
    exact ⟨rest, hrest, htext ▸ string_append content rest⟩

/-- A number is read from its digits. -/
theorem reads_word (levels : Nat) (n : UInt32) :
    Reads levels (liftM readWord) (writing.word n) n where
  starts := by
    obtain ⟨first, digits, hfirst, -⟩ := toDigits_eq_cons n.toNat
    have htoken : Token.characters (.number n.toNat) = first :: digits := hfirst
    have hdigit : first.isDigit := isDigit_of_mem_toDigits (hfirst ▸ List.mem_cons_self)
    have hstart : IsStart first := isStart_of_isAlphanum (by simp [Char.isAlphanum, hdigit])
    exact startsPart_of_characters htoken hstart _
  reads _ hends hc h := by
    obtain ⟨rest, hrest, htext⟩ := Spells.eq_append h hc
    exact ⟨rest, hrest, htext ▸ readWord_append n (hends hrest)⟩

/-- A name does not go on where no part of one follows. -/
theorem not_goesOn (hrest : ∀ c ∈ rest.head?, ¬ isIdentifierPart c) : ¬ goesOn rest := by
  cases rest with
  | nil => exact Bool.false_ne_true
  | cons c rest => simpa [goesOn] using hrest c rfl

/-- An absent text is read from its name. -/
theorem reads_none (levels : Nat) :
    Reads levels (option false (liftM string)) (writing.optionalText none) none where
  starts := by
    have hname : (Token.name "None").characters = ['N', 'o', 'n', 'e'] := by decide
    exact startsPart_of_characters hname (by decide) _
  reads _ hends hc h := by
    obtain ⟨rest, hrest, htext⟩ := Spells.eq_append h hc
    refine ⟨rest, hrest, ?_⟩
    rw [option, htext, Token.characters, afterIdentifier?_append "None"]
    exact not_goesOn fun c hc ↦ (hends hrest c hc).not_part.1

/-- A text that is present is read from the parentheses behind its name. -/
theorem reads_some (levels : Nat) (content : String) :
    Reads levels (option false (liftM string)) (writing.optionalText (some content))
      (some content) where
  starts := by
    have hname : (Token.name "Some").characters = ['S', 'o', 'm', 'e'] := by decide
    exact startsPart_of_characters hname (by decide) _
  reads {depth following c s} hdepth _ hc h := by
    obtain ⟨depth, rfl⟩ := Nat.exists_eq_add_one.mpr (Nat.zero_lt_of_lt hdepth)
    obtain ⟨inside, hinside, htext⟩ := Spells.eq_append h hc
    obtain ⟨behind, hbehind, hopen⟩ := Spells.skipGap_mark hinside
    obtain ⟨d, front, hd, hfront, hcontent⟩ := (reads_text levels content).starts hbehind
    obtain ⟨after, hafter, hstring⟩ := Spells.eq_append hcontent hd.1
    obtain ⟨rest, hrest, hclose⟩ := Spells.skipGap_mark hafter
    change skipGap .blanks inside = .ok ('(' :: behind) at hopen
    change skipGap .blanks after = .ok (')' :: rest) at hclose
    have hnone : afterIdentifier? "None" (c :: s) = none := by
      rw [htext, show (Token.name "Some").characters = ['S', 'o', 'm', 'e'] by decide]
      rfl
    have hsome : afterIdentifier? "Some" (c :: s) = some inside := by
      rw [htext, Token.characters, afterIdentifier?_append "Some"]
      refine not_goesOn fun e he ↦ ?_
      obtain ⟨first, more, rfl, hfirst⟩ := Spells.head_mark hinside
      obtain rfl := Option.some.inj he
      exact (show EndsName first from hfirst.imp_right .inr).not_part.1
    have hread : string (d :: front) = .ok (content, after) := by
      rw [hstring, string_append]
    have hnested : nested (liftM string) (depth + 1) (d :: front) = .ok (content, after) := hread
    refine ⟨rest, hrest, ?_⟩
    rw [option, hnone]
    dsimp only
    refine (bind_of_ok (show _ = Except.ok (true, inside) from ?_) _).trans ?_
    · simp only [hsome]
    rw [if_pos rfl, bind_of_ok (between_of_skipGap hopen), bind_of_ok (take_cons '(' behind),
      if_pos (Bool.and_self true), bind_of_ok (between_of_skipGap hfront), bind_of_ok hnested,
      bind_of_ok (comma_of_ne hclose (by decide)), bind_of_ok (expect_cons ')' rest)]
    rfl

/-! ### Lists -/

/-- A mark that closes a list or a record. -/
def Mark.Closes (sign : Mark) : Prop :=
  sign = .closeList ∨ sign = .closeRecord

/-- In front of the closing bracket there is no further part. -/
theorem hasElement_close {sign : Mark} (h : Spells (.required (.mark sign) :: following) s)
    (hadComma : Bool) :
    ∃ rest, Spells following rest ∧
      hasElement sign.character hadComma s = .ok (false, sign.character :: rest) := by
  obtain ⟨rest, hrest, hskip⟩ := h.skipGap_mark
  refine ⟨rest, hrest, ?_⟩
  rw [hasElement, hskip]
  exact if_pos rfl

/-- Behind a comma or in front of the first part there is one where a part starts. -/
theorem hasElement_next {sign : Mark} (hsign : sign.Closes) (hstarts : StartsPart pieces)
    (h : Spells (pieces ++ following) s) :
    ∃ c rest, IsVisible c ∧ Spells (pieces ++ following) (c :: rest) ∧
      hasElement sign.character true s = .ok (true, c :: rest) := by
  obtain ⟨c, rest, hc, hskip, hrest⟩ := hstarts h
  have hother : c ≠ sign.character := by
    rintro rfl
    rcases hsign with rfl | rfl <;> exact absurd hc (by decide)
  refine ⟨c, rest, hc.1, hrest, ?_⟩
  rw [hasElement, hskip]
  exact (if_neg hother).trans (if_pos rfl)

/-- Behind a part a comma is taken unless no part follows. -/
theorem comma_of_spells {parts : List (List Piece)} (hstarts : ∀ part ∈ parts, StartsPart part)
    {sign : Mark} (hsign : sign.Closes)
    (h : Spells (commaBefore parts :: (separated parts ++ .required (.mark sign) :: following)) s) :
    ∃ hadComma rest, (parts ≠ [] → hadComma = true) ∧
      Spells (separated parts ++ .required (.mark sign) :: following) rest ∧
      comma s = .ok (hadComma, rest) := by
  cases parts with
  | nil =>
    rcases h.required_or_omitted with hcomma | homitted
    · obtain ⟨front, hfront, hskip⟩ := hcomma.skipGap_mark
      obtain ⟨rest, hrest, hbehind⟩ := hfront.skipGap_mark
      exact ⟨true, _, fun h ↦ rfl, hrest.append (.mark sign), comma_of_skipGap hskip hbehind⟩
    · obtain ⟨rest, hrest, hskip⟩ := homitted.skipGap_mark
      have hne : sign.character ≠ ',' := by
        rcases hsign with rfl | rfl <;> decide
      exact ⟨false, _, fun h ↦ absurd rfl h, hrest.append (.mark sign), comma_of_ne hskip hne⟩
  | cons part parts =>
    obtain ⟨front, hfront, hskip⟩ := Spells.skipGap_mark h
    rw [separated, List.append_assoc] at hfront
    obtain ⟨c, rest, hc, hbehind, hrest⟩ := hstarts part List.mem_cons_self hfront
    rw [separated, List.append_assoc]
    exact ⟨true, _, fun h ↦ rfl, hrest, comma_of_skipGap hskip hbehind⟩

/-- What stands behind a part ends a value in it. -/
theorem endsValues_separated (parts : List (List Piece)) {sign : Mark} (hsign : sign.Closes)
    (following : List Piece) :
    EndsValues (commaBefore parts :: (separated parts ++ .required (.mark sign) :: following)) := by
  have hcomma : EndsValue Mark.comma.character := by decide
  cases parts with
  | nil =>
    intro s h
    rcases h.required_or_omitted with hthere | homitted
    · exact endsValues_mark hcomma _ hthere
    · refine endsValues_mark ?_ following homitted
      rcases hsign with rfl | rfl <;> decide
  | cons part parts => exact endsValues_mark hcomma _

/-- Whether a piece is a mark that has to be there. -/
def Piece.isMark : Piece → Bool
  | .required (.mark _) => true
  | _ => false

/-- A text has a character for each of these marks. -/
theorem countP_le_length (h : Spells pieces s) : pieces.countP Piece.isMark ≤ s.length := by
  induction h with
  | nil => exact Nat.zero_le _
  | @required gap token pieces text _ _ ih =>
    rw [List.countP_cons, List.length_append, List.length_append]
    cases token <;> simp [Piece.isMark, Token.characters] <;> omega
  | optional _ _ ih =>
    rw [List.countP_cons_of_neg Bool.false_ne_true, List.length_append, List.length_append]
    omega
  | omitted _ ih => rwa [List.countP_cons_of_neg Bool.false_ne_true]

/-- A text in front of a closing bracket has a character for each part. -/
theorem length_le_length (parts : List (List Piece)) {sign : Mark}
    (h : Spells (separated parts ++ .required (.mark sign) :: following) s) :
    parts.length ≤ s.length := by
  have hcommas (parts : List (List Piece)) :
      parts.length ≤ (separated parts).countP Piece.isMark + 1 := by
    induction parts with
    | nil => exact Nat.zero_le _
    | cons part parts ih =>
      rw [separated, List.countP_append, List.countP_cons]
      cases parts with
      | nil => simp
      | cons next parts =>
        simp only [List.length_cons, commaBefore, Piece.isMark] at ih ⊢
        simp
        omega
  have hparts := hcommas parts
  have hmarks := countP_le_length h
  rw [List.countP_append, List.countP_cons_of_pos rfl] at hmarks
  omega

/-- The elements of a list are read one after another. -/
theorem elements_of_reads {levels depth : Nat} (hdepth : 2 * levels < depth) {element : Reader α}
    {forms : List (List Piece)} {values : List α}
    (hforms : List.Forall₂ (Reads levels element) forms values) {hadComma : Bool}
    (hcomma : forms ≠ [] → hadComma = true) {steps : Nat} (hsteps : forms.length < steps)
    (h : Spells (separated forms ++ .required (.mark .closeList) :: following) s) :
    ∃ rest, Spells following rest ∧
      elements element steps hadComma (depth + 1) s = .ok (values, ']' :: rest) := by
  induction hforms generalizing hadComma steps s with
  | nil =>
    obtain ⟨steps, rfl⟩ := Nat.exists_eq_add_one.mpr hsteps
    obtain ⟨rest, hrest, hhas⟩ := hasElement_close h hadComma
    change hasElement ']' hadComma s = _ at hhas
    refine ⟨rest, hrest, ?_⟩
    rw [elements, scannerBind_of_ok hhas]
    rfl
  | @cons form value forms values hform hforms ih =>
    obtain ⟨steps, rfl⟩ := Nat.exists_eq_add_one.mpr (Nat.zero_lt_of_lt hsteps)
    obtain rfl := hcomma (List.cons_ne_nil _ _)
    rw [separated, List.append_assoc] at h
    obtain ⟨c, front, hc, hfront, hhas⟩ := hasElement_next (.inl rfl) hform.starts h
    change hasElement ']' true s = _ at hhas
    obtain ⟨behind, hbehind, hread⟩ :=
      hform.reads hdepth (endsValues_separated forms (.inl rfl) following) hc hfront
    obtain ⟨hstarts, -⟩ :=
      (List.forall₂_and_left forms values).mp (hforms.imp fun _ _ h ↦ ⟨h.starts, h⟩)
    obtain ⟨hadNext, next, hmore, hnext, htaken⟩ := comma_of_spells hstarts (.inl rfl) hbehind
    obtain ⟨rest, hrest, htail⟩ := ih hmore (Nat.lt_of_succ_lt_succ hsteps) hnext
    have hnested : nested element (depth + 1) (c :: front) = .ok (value, behind) := hread
    refine ⟨rest, hrest, ?_⟩
    rw [elements, scannerBind_of_ok hhas, if_pos rfl, readerBind_of_ok hnested,
      scannerBind_of_ok htaken, readerBind_of_ok htail]
    rfl

/-- A list is read from its elements in brackets. -/
theorem reads_list {levels : Nat} {element : Reader α} {forms : List (List Piece)} {values : List α}
    (hforms : List.Forall₂ (Reads levels element) forms values) :
    Reads (levels + 1) (list element) (writing.list forms) values where
  starts := startsPart_of_characters rfl (by decide) _
  reads {depth following c s} hdepth _ hc h := by
    obtain ⟨depth, rfl⟩ : ∃ inner, depth = inner + 2 := ⟨depth - 2, by omega⟩
    obtain ⟨hopen, hinside⟩ := Spells.eq_cons_mark h hc
    obtain rfl : c = '[' := hopen
    rw [List.append_eq, List.append_assoc] at hinside
    have hsteps : forms.length < s.length + 1 :=
      Nat.lt_succ_of_le (length_le_length forms hinside)
    obtain ⟨rest, hrest, helements⟩ :=
      elements_of_reads (show 2 * levels < depth by omega) hforms (fun _ ↦ rfl) hsteps hinside
    have hnested : nested (do elements element ((← getThe (List Char)).length + 1) true)
        (depth + 2) s = .ok (values, ']' :: rest) := helements
    refine ⟨rest, hrest, ?_⟩
    rw [list, scannerBind_of_ok (expect_cons '[' s), readerBind_of_ok hnested,
      scannerBind_of_ok (expect_cons ']' rest)]
    rfl

/-! ### Records -/

/-- Pieces start with a name if it is a word. -/
theorem startsPart_name {name : String} (hname : IsWord name) (pieces : List Piece) :
    StartsPart (.required (.name name) :: pieces) := by
  obtain ⟨first, more, hfirst, hletter⟩ := hname.toList_eq_cons
  have htoken : Token.characters (.name name) = first :: more := hfirst
  have hstart : IsStart first := isStart_of_isAlphanum (by simp [Char.isAlphanum, hletter])
  exact startsPart_of_characters htoken hstart _

/-- A name is read in front of a mark that ends it. -/
theorem identifier?_of_spells {name : String} (hname : IsWord name)
    {sign : Mark} (hsign : EndsName sign.character) {c : Char} (hc : IsVisible c)
    (h : Spells (.required (.name name) :: .required (.mark sign) :: pieces) (c :: s)) :
    ∃ rest, Spells (.required (.mark sign) :: pieces) rest ∧
      identifier? (c :: s) = some (name, rest) := by
  obtain ⟨rest, hrest, htext⟩ := h.eq_append hc
  obtain ⟨first, behind, rfl, hfirst⟩ := hrest.head_mark
  have hends : EndsName first := by
    rcases hfirst with hblank | rfl
    · exact .inl hblank
    · exact hsign
  exact ⟨_, hrest, htext ▸ identifier?_append hname hends⟩

variable {record : Record Reader α}

/-- Behind the colon stands the value, with blanks or none around the colon. -/
theorem colon_of_skipGap {behind front : List Char} (hcolon : skipGap .blanks s = .ok (':' :: behind))
    (hfront : skipGap .blanks behind = .ok front) : colon s = .ok ((), front) := by
  rw [colon, bind_of_ok (between_of_skipGap hcolon), bind_of_ok (expect_cons ':' behind),
    between_of_skipGap hfront]

/-- A known member that is not present yet comes to what stands behind its colon, one level deeper. -/
theorem memberValue_of_colon {implicitSome : Bool} {member : Member Reader α} {draft : Draft α}
    {name : String} {front : List Char} (hmember : record.member? name = some member)
    (hnew : name ∉ draft.present) (hcolon : colon s = .ok ((), front)) (depth : Nat) :
    memberValue implicitSome record draft name (depth + 1) s =
      (draft.set name <$> member.read) depth front := by
  rw [memberValue, hmember]
  simp only [hnew, if_false]
  rw [scannerBind_of_ok hcolon]
  rfl

/-- It is read if its value is. -/
theorem memberValue_of_reads {levels depth : Nat} (hdepth : 2 * levels < depth)
    {member : Member Reader α} {draft : Draft α} {form : List Piece} {change : α → α}
    (hmember : record.member? member.name = some member) (hnew : member.name ∉ draft.present)
    (hread : Reads levels member.read form change) (hends : EndsValues following)
    (h : Spells (.required (.mark .colon) :: (form ++ following)) s) :
    ∃ rest, Spells following rest ∧ memberValue false record draft member.name (depth + 1) s =
      .ok (draft.set member.name change, rest) := by
  obtain ⟨behind, hbehind, hskip⟩ := h.skipGap_mark
  obtain ⟨c, front, hc, hfront, hform⟩ := hread.starts hbehind
  obtain ⟨rest, hrest, hvalue⟩ := hread.reads hdepth hends hc.1 hform
  have hcolon := colon_of_skipGap hskip hfront
  exact ⟨rest, hrest, (memberValue_of_colon hmember hnew hcolon depth).trans (map_of_ok hvalue _)⟩

/-- The members of a record start with their names. -/
theorem startsPart_memberPieces (hnames : record.IsWellNamed) {levels : Nat}
    {todo : List (Member Reader α)} {forms : List (String × List Piece)} {change : α → α}
    (hforms : MembersRead (fun read form value ↦ Reads levels read form value) todo forms change)
    (htodo : todo ⊆ record.members) : ∀ part ∈ forms.map memberPieces, StartsPart part := by
  intro part hpart
  obtain ⟨form, hform, rfl⟩ := List.mem_map.mp hpart
  have hmember : form.1 ∈ todo.map Member.name := hforms.map_name ▸ List.mem_map_of_mem hform
  exact startsPart_name
    (hnames.words form.1 (List.mem_cons_of_mem _ (List.map_subset _ htodo hmember))) _

/-- The members of a record are read one after another. -/
theorem members_of_reads (hnames : record.IsWellNamed) {levels depth : Nat}
    (hdepth : 2 * levels < depth) {todo : List (Member Reader α)}
    {forms : List (String × List Piece)} {change : α → α}
    (hforms : MembersRead (fun read form value ↦ Reads levels read form value) todo forms change)
    {done : List (Member Reader α)} (hrecord : record.members = done ++ todo) {draft : Draft α}
    (hpresent : draft.present = (done.map Member.name).reverse) {hadComma : Bool}
    (hcomma : forms ≠ [] → hadComma = true) {steps : Nat} (hsteps : forms.length < steps)
    (h : Spells (separated (forms.map memberPieces) ++ .required (.mark .closeRecord) :: following)
      s) :
    ∃ rest, Spells following rest ∧ members false record steps hadComma draft (depth + 1) s =
      .ok (⟨change draft.value, (record.members.map Member.name).reverse⟩, ')' :: rest) := by
  induction hforms generalizing done draft hadComma steps s with
  | nil =>
    obtain ⟨steps, rfl⟩ := Nat.exists_eq_add_one.mpr hsteps
    obtain ⟨rest, hrest, hhas⟩ := hasElement_close h hadComma
    change hasElement ')' hadComma s = _ at hhas
    refine ⟨rest, hrest, ?_⟩
    rw [members, scannerBind_of_ok hhas, hrecord, List.append_nil, ← hpresent]
    rfl
  | @cons member todo form forms change changes hform hforms ih =>
    obtain ⟨steps, rfl⟩ := Nat.exists_eq_add_one.mpr (Nat.zero_lt_of_lt hsteps)
    obtain rfl := hcomma (List.cons_ne_nil _ _)
    have htodo : member :: todo ⊆ record.members := hrecord ▸ List.subset_append_right _ _
    have hname := hnames.words member.name
      (List.mem_cons_of_mem _ (List.mem_map_of_mem (htodo List.mem_cons_self)))
    rw [List.map_cons, separated, List.append_assoc] at h
    obtain ⟨c, front, hc, hfront, hhas⟩ :=
      hasElement_next (.inr rfl) (startsPart_name hname _) h
    change hasElement ')' true s = _ at hhas
    obtain ⟨behind, hbehind, hidentifier⟩ := identifier?_of_spells hname (by decide) hc hfront
    have hkey : identifier (c :: front) = .ok (member.name, behind) := by
      rw [identifier, hidentifier]
    obtain ⟨after, hafter, hvalue⟩ :=
      memberValue_of_reads hdepth (Record.member?_eq_some hnames.nodup hrecord)
        (Draft.notMem_present hnames.nodup hrecord hpresent) hform
        (endsValues_separated _ (.inr rfl) following) hbehind
    have hmore : record.members = (done ++ [member]) ++ todo := by
      rw [hrecord, List.append_assoc, List.singleton_append]
    have hset : (draft.set member.name change).present =
        ((done ++ [member]).map Member.name).reverse := by
      simp [Draft.set, hpresent]
    have hstarts := startsPart_memberPieces hnames hforms fun _ h ↦ htodo (List.mem_cons_of_mem _ h)
    obtain ⟨hadNext, next, hcommaNext, hnext, htaken⟩ := comma_of_spells hstarts (.inr rfl) hafter
    obtain ⟨rest, hrest, hmembers⟩ :=
      ih hmore hset (fun h ↦ hcommaNext (by simpa using h)) (Nat.lt_of_succ_lt_succ hsteps) hnext
    refine ⟨rest, hrest, ?_⟩
    rw [members, scannerBind_of_ok hhas, if_pos rfl, scannerBind_of_ok hkey, readerBind_of_ok hvalue,
      scannerBind_of_ok htaken]
    exact hmembers

/-- The name of a record is read, whether it is there or not. -/
theorem recordName_of_spells {name : String} (hname : IsWord name) {c : Char} (hc : IsVisible c)
    (h : Spells (.optional (.name name) :: .required (.mark .openRecord) :: pieces) (c :: s)) :
    ∃ rest, Spells (.required (.mark .openRecord) :: pieces) rest ∧
      recordName name (c :: s) = .ok ((), rest) := by
  rcases h.required_or_omitted with hthere | homitted
  · obtain ⟨first, more, hfirst, hletter⟩ := hname.toList_eq_cons
    obtain ⟨rest, hrest, hread⟩ := identifier?_of_spells hname (by decide) hc hthere
    obtain ⟨behind, -, htext⟩ := hthere.eq_append hc
    rw [Token.characters, hfirst, List.cons_append] at htext
    obtain ⟨rfl, -⟩ := List.cons.inj htext
    have hgoes : goesOn (c :: s) := by
      simp [goesOn, isIdentifierPart, Char.isAlphanum, hletter]
    refine ⟨rest, hrest, ?_⟩
    rw [recordName, if_pos hgoes, hread]
    exact if_pos rfl
  · obtain ⟨hopen, -⟩ := homitted.eq_cons_mark hc
    obtain rfl : c = '(' := hopen
    have hgoes : ¬ goesOn ('(' :: s) := by
      simp [goesOn, isIdentifierPart]
    exact ⟨_, homitted, by rw [recordName, if_neg hgoes]⟩

/-- A record is read from its members in parentheses. -/
theorem reads_record (hnames : record.IsWellNamed) {levels : Nat}
    {forms : List (String × List Piece)} {change : α → α}
    (hforms : MembersRead (fun read form value ↦ Reads levels read form value) record.members forms
      change) :
    Reads (levels + 1) (Ron.record false record) (writing.record record.name forms)
      (change record.initial) where
  starts := by
    intro following s h
    rcases Spells.required_or_omitted h with hthere | homitted
    · obtain ⟨c, rest, hc, hskip, hrest⟩ :=
        startsPart_name (hnames.words record.name List.mem_cons_self) _ hthere
      exact ⟨c, rest, hc, hskip, hrest.optional_of_required⟩
    · obtain ⟨c, rest, hc, hskip, hrest⟩ :=
        startsPart_of_characters rfl (by decide) _ homitted
      exact ⟨c, rest, hc, hskip, .omitted hrest⟩
  reads {depth following c s} hdepth _ hc h := by
    obtain ⟨depth, rfl⟩ : ∃ inner, depth = inner + 2 := ⟨depth - 2, by omega⟩
    obtain ⟨front, hfront, hname⟩ :=
      recordName_of_spells (hnames.words record.name List.mem_cons_self) hc h
    obtain ⟨inside, hinside, hopen⟩ := hfront.skipGap_mark
    change skipGap .blanks front = .ok ('(' :: inside) at hopen
    rw [List.append_eq, List.append_assoc] at hinside
    have hsteps : forms.length < inside.length + 1 := by
      have hlength := length_le_length (forms.map memberPieces) hinside
      rw [List.length_map] at hlength
      omega
    have hstart : (Draft.start record).present =
        (([] : List (Member Reader α)).map Member.name).reverse := rfl
    obtain ⟨rest, hrest, hmembers⟩ :=
      members_of_reads hnames (show 2 * levels < depth by omega) hforms (List.nil_append _).symm hstart
        (fun _ ↦ rfl) hsteps hinside
    have hfinish : (members false record (inside.length + 1) true (Draft.start record) >>=
        fun draft ↦ liftM (draft.finish record) : Reader α) (depth + 1) inside =
          .ok (change record.initial, ')' :: rest) := by
      rw [readerBind_of_ok hmembers, Draft.finish_eq_ok hnames.required_subset]
      rfl
    have hvalue : nested (do
        let steps := (← getThe (List Char)).length + 1
        let draft ← members false record steps true (Draft.start record)
        liftM (draft.finish record)) (depth + 2) inside =
          .ok (change record.initial, ')' :: rest) := hfinish
    refine ⟨rest, hrest, ?_⟩
    rw [Ron.record, scannerBind_of_ok hname, scannerBind_of_ok (between_of_skipGap hopen),
      scannerBind_of_ok (expect_cons '(' inside), readerBind_of_ok hvalue,
      scannerBind_of_ok (expect_cons ')' rest)]
    rfl

/-! ### Configurations -/

/-- RON reads back what it writes, if no extension is enabled. -/
theorem readsBack :
    ReadsBack (reading false) writing fun levels ⦃_⦄ read form value ↦
      Reads levels read form value where
  map change hread :=
    { starts := hread.starts
      reads := fun hdepth hends hc h ↦ by
        obtain ⟨rest, hrest, hvalue⟩ := hread.reads hdepth hends hc h
        exact ⟨rest, hrest, map_of_ok hvalue change⟩ }
  text := reads_text
  optionalText levels content := by
    cases content with
    | none => exact reads_none levels
    | some content => exact reads_some levels content
  word := reads_word
  list := reads_list
  record _ _ _ hnames hforms := reads_record hnames hforms

/-- A configuration is read from every text that spells it. -/
theorem readConfiguration_of_spells {config : Configuration} {text : String}
    (h : Spells (config.written writing) text.toList) : readConfiguration text = .ok config := by
  rw [← List.append_nil (config.written writing)] at h
  have hreads := readsBack.configuration 0 config
  obtain ⟨c, front, hc, hskip, hfront⟩ := hreads.starts h
  have hends : EndsValues [] := by
    intro s h c hc
    cases h with
    | nil hgap => exact .inl (hgap c (List.mem_of_mem_head? hc))
  obtain ⟨rest, hrest, hread⟩ := hreads.reads (show 2 * 4 < depthLimit by decide) hends hc.1 hfront
  have hsign : c ≠ '#' := by
    rintro rfl
    exact absurd hc (by decide)
  have hattributes : attributes (text.toList.length + 1) text.toList = .ok ([], c :: front) := by
    have hhead : (c :: front).head? ≠ some '#' := fun h ↦ hsign (Option.some.inj h)
    rw [attributes, bind_of_ok (between_of_skipGap hskip), bind_of_ok (get_ok _), if_neg hhead]
    rfl
  have hrecord : Ron.record false (Configuration.record (reading false)) depthLimit (c :: front) =
      .ok (config, rest) := hread
  have hextension : decide (implicitSomeName ∈ ([] : List String)) = false := by decide
  rw [readConfiguration]
  dsimp only
  rw [bind_of_ok hattributes, hextension, bind_of_ok hrecord,
    bind_of_ok (between_of_skipGap hrest.skipGap_nil), bind_of_ok (get_ok _), if_pos List.isEmpty_nil]
  rfl

/-- The text of a configuration without blanks, with every optional name and comma or without any. -/
def compactText (writesOptional : Bool) (config : Configuration) : String :=
  String.ofList ((config.written writing).flatMap (Piece.characters writesOptional))

/-- That text spells the configuration. -/
theorem spells_compactText (writesOptional : Bool) (config : Configuration) :
    Spells (config.written writing) (compactText writesOptional config).toList := by
  rw [compactText, String.toList_ofList]
  exact spells_characters writesOptional _

end Ron

/-- A configuration that is written in RON is read back, with or without the names of the records and the
last commas, whatever blanks stand between the tokens and whatever the file is called. So it compiles to
the same as what is read from JSON. -/
theorem parseConfig_ron_of_spells (config : Configuration) (file jsonFile : Path) {text json : String}
    (htext : Ron.Spells (config.written Ron.writing) text.toList)
    (hjson : Json.Spells (config.written Json.writing) json.toList) :
    parseConfig text .ron file = .ok config ∧
      (parseConfig text .ron file).map compile = (parseConfig json .json jsonFile).map compile := by
  have hron : parseConfig text .ron file = .ok config := by
    rw [parseConfig, readConfiguration, Ron.readConfiguration_of_spells htext]
  refine ⟨hron, ?_⟩
  rw [hron, parseConfig, readConfiguration, Json.readConfiguration_of_spells hjson]

/-- The shelf is read back from RON with all optional names and commas, as it is from JSON. -/
theorem parseConfig_ron_compactText_escapedShelf :
    Ron.Spells (escapedShelf.written Ron.writing) (Ron.compactText true escapedShelf).toList ∧
      Json.Spells (escapedShelf.written Json.writing) (Json.compactText escapedShelf).toList ∧
      parseConfig (Ron.compactText true escapedShelf) .ron ⟨"sorter.ron"⟩ = .ok escapedShelf ∧
      (parseConfig (Ron.compactText true escapedShelf) .ron ⟨"sorter.ron"⟩).map compile =
        (parseConfig (Json.compactText escapedShelf) .json ⟨"sorter.json"⟩).map compile :=
  ⟨Ron.spells_compactText true escapedShelf, Json.spells_compactText escapedShelf,
    parseConfig_ron_of_spells escapedShelf ⟨"sorter.ron"⟩ ⟨"sorter.json"⟩
      (Ron.spells_compactText true escapedShelf) (Json.spells_compactText escapedShelf)⟩

example : (escapedShelf.groups.flatMap (Group.written Ron.writing)).flatMap
    (Ron.Piece.characters true) =
      "Group(groupName:\"Ores \\\"\\\\\n\x01 é\",items:[\"minecraft:coal\",\"\",],".toList ++
        "itemFrame:None,fallback:Some(\"null\"),)".toList := by
  cbv

end FrameSorter
