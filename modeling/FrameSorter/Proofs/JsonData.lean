import FrameSorter.Proofs.Presentation

/-!
# The data in a JSON text

`Json.readDocument` reads any JSON text, not only that of a configuration, and gives what it says as a
`Datum`: every value of every member is read and none is skipped, and only blanks may stand behind the
outermost value. It is strict. A text is read exactly if it is a tree (`Tree.IsWrittenIn`) that is nested
within a limit, whose literals escape no half of a surrogate pair and whose numbers are not too large, and
it says what the tree does (`readDocument_eq_ok_iff`).
-/

set_option autoImplicit false
set_option relaxedAutoImplicit false

namespace FrameSorter.Json

/-! ### The reader -/

/-- What a JSON text says. An object keeps the order of its members, and those with the same key. -/
inductive Datum
  | null
  | boolean (value : Bool)
  | number (value : Number)
  | text (content : String)
  | list (elements : List Datum)
  | object (members : List (String × Datum))

/-- What a word says. -/
def Keyword.datum : Keyword → Datum
  | .null => .null
  | .true => .boolean Bool.true
  | .false => .boolean Bool.false

/-- The value without members in front of a text without blanks. -/
def scalarDatum (s : List Char) : Except Fault (Datum × List Char) :=
  match s with
  | [] => .error .malformed
  | '"' :: rest => (readLiteral rest).map fun (content, rest) ↦ (.text content, rest)
  | c :: rest =>
    if c = '-' ∨ c.isDigit then
      (readNumber (c :: rest)).map fun (number, rest) ↦ (.number number, rest)
    else
      match [Keyword.null, .true, .false].findSome? fun word ↦
          (afterWord? word.characters (c :: rest)).map (word.datum, ·) with
      | none => .error .malformed
      | some taken => .ok taken

/-- The members of an object, all of them, up to its closing brace. Every member takes a character. -/
def entries {α : Type} (value : Reader α) :
    (steps : Nat) → (isFirst : Bool) → Reader (List (String × α))
  | 0, _ => throw .malformed
  | steps + 1, isFirst => do
    match ← nextKey isFirst with
    | none => return []
    | some key =>
      colon
      let head ← value
      let tail ← entries value steps false
      return (key, head) :: tail

/-- An object. -/
def object {α : Type} (value : Reader α) : Reader (List (String × α)) := fun s ↦
  match skipBlanks s with
  | '\x7b' :: rest => (do
      let found ← entries value (rest.length + 1) true
      closeObject
      return found : Reader (List (String × α))) rest
  | _ => .error .malformed

/-- A value that is not nested deeper than `levels`. -/
def datum : (levels : Nat) → Reader Datum
  | 0 => throw .malformed
  | levels + 1 => fun s ↦
    match skipBlanks s with
    | '[' :: _ => (Datum.list <$> list (datum levels)) s
    | '\x7b' :: _ => (Datum.object <$> object (datum levels)) s
    | front => scalarDatum front

/-- How deep the values of a document may be nested. -/
def nestingLimit : Nat := 128

/-- What a document says. Behind it, only blanks may stand. -/
def readDocument (document : String) : Except Fault Datum :=
  whole (datum nestingLimit document.toList)

/-! ### What a tree says -/

/-- What a value without members says. -/
def Scalar.datum? : Scalar → Option Datum
  | .keyword word => some word.datum
  | .number numeral => numeral.parts.number?.map .number
  | .text literal => literal.content?.map .text

/-- What one member of an object says. -/
def memberDatum? {α : Type} (value : Tree → Option α) (member : Literal × Tree) : Option (String × α) := do
  return (← member.1.content?, ← value member.2)

/-- The members that a tree has, the value of each found in the same way. -/
def Tree.entries? {α : Type} (value : Tree → Option α) : Tree → Option (List (String × α))
  | .object members => members.mapM (memberDatum? value)
  | _ => none

/-- What a tree says that is not nested deeper than `levels`. -/
def Tree.datum? : (levels : Nat) → Tree → Option Datum
  | 0, _ => none
  | _ + 1, .scalar value => value.datum?
  | levels + 1, .list elements => (Tree.list? (datum? levels) (.list elements)).map .list
  | levels + 1, .object members => (Tree.entries? (datum? levels) (.object members)).map .object

/-! ### Values without members -/

section Scalars

variable {s rest behind : List Char} {found : Datum}

/-- A value that is taken as another one is taken where it is. -/
theorem taken_eq_ok_iff {α β : Type} {read : Except Fault (α × List Char)} {change : α → β}
    {value : β} :
    read.map (fun (taken, rest) ↦ (change taken, rest)) = .ok (value, rest) ↔
      ∃ taken, read = .ok (taken, rest) ∧ change taken = value := by
  cases read with
  | error fault => simp [Except.map]
  | ok taken =>
    obtain ⟨taken, behind⟩ := taken
    simp [Except.map, and_comm]

/-- A value without members is read as what it says. -/
theorem scalarDatum_characters (scalar : Scalar) (hends : EndsNumber rest) :
    scalarDatum (scalar.characters ++ rest) = .ok (found, behind) ↔
      scalar.datum? = some found ∧ behind = rest := by
  cases scalar with
  | keyword word =>
    have hword : afterWord? word.characters (word.characters ++ rest) = some rest :=
      afterWord?_eq_some_iff.mpr rfl
    cases word <;>
      simp_all [Scalar.characters, Keyword.characters, scalarDatum, afterWord?, Scalar.datum?, eq_comm]
  | number numeral =>
    obtain ⟨first, more, hnumeral, hfirst⟩ := numeral.exists_cons
    have hread (number : Number) :
        readNumber (numeral.characters ++ rest) = .ok (number, behind) ↔
          numeral.parts.number? = some number ∧ behind = rest :=
      readNumber_characters numeral hends
    have hquote : first ≠ '"' := by
      rintro rfl
      revert hfirst
      decide
    rw [Scalar.characters]
    rw [hnumeral, List.cons_append] at hread ⊢
    rw [scalarDatum, if_pos hfirst, taken_eq_ok_iff]
    · simp only [hread, Scalar.datum?, Option.map_eq_some_iff, ← exists_and_right, and_right_comm]
    · exact hquote
  | text literal =>
    rw [Scalar.characters, Literal.characters, List.cons_append, scalarDatum, taken_eq_ok_iff]
    simp only [readLiteral_iff, Scalar.datum?, Option.map_eq_some_iff, ← exists_and_right,
      and_right_comm]

/-- Only values without members are read as such. -/
theorem exists_scalar_of_datum (hread : scalarDatum s = .ok (found, rest)) :
    ∃ scalar : Scalar, s = scalar.characters ++ rest := by
  unfold scalarDatum at hread
  split at hread
  next => cases hread
  next inside =>
    obtain ⟨content, hliteral, -⟩ := taken_eq_ok_iff.mp hread
    obtain ⟨literal, rfl⟩ := exists_literal_of_read hliteral
    exact ⟨.text literal, rfl⟩
  next c more hquote =>
    split at hread
    · obtain ⟨number, hnumber, -⟩ := taken_eq_ok_iff.mp hread
      obtain ⟨numeral, hnumeral⟩ := exists_numeral_of_read hnumber
      exact ⟨.number numeral, hnumeral⟩
    · split at hread
      next => cases hread
      next taken htaken =>
        cases hread
        obtain ⟨word, -, hword⟩ := List.exists_of_findSome?_eq_some htaken
        obtain ⟨behind, hbehind, htaken⟩ := Option.map_eq_some_iff.mp hword
        obtain ⟨-, rfl⟩ := Prod.mk.inj htaken
        exact ⟨.keyword word, afterWord?_eq_some_iff.mp hbehind⟩

end Scalars

/-! ### Objects -/

section Objects

variable {α : Type} {isFirst : Bool} {s rest behind : List Char}

/-- The members of an object are read one after another. -/
theorem entries_eq_ok_iff {value : Reader α} {steps : Nat} {found : List (String × α)} :
    entries value (steps + 1) isFirst s = .ok (found, rest) ↔
      (nextKey isFirst s = .ok (none, rest) ∧ found = []) ∨
        ∃ key afterKey front head behind tail, nextKey isFirst s = .ok (some key, afterKey) ∧
          skipBlanks afterKey = ':' :: front ∧ value front = .ok (head, behind) ∧
            entries value steps false behind = .ok (tail, rest) ∧ found = (key, head) :: tail := by
  rw [entries, bind_eq_ok_iff]
  constructor
  · rintro ⟨key, afterKey, hkey, hread⟩
    cases key with
    | none =>
      obtain ⟨rfl, rfl⟩ := pure_eq_ok_iff.mp hread
      exact Or.inl ⟨hkey, rfl⟩
    | some key =>
      simp only [bind_eq_ok_iff, pure_eq_ok_iff] at hread
      obtain ⟨_, front, hcolon, head, behind, hhead, tail, _, htail, rfl, rfl⟩ := hread
      exact Or.inr ⟨key, afterKey, front, head, behind, tail, hkey, colon_eq_ok_iff.mp hcolon, hhead,
        htail, rfl⟩
  · rintro (⟨hend, rfl⟩ | ⟨key, afterKey, front, head, behind, tail, hkey, hcolon, hhead, htail, rfl⟩)
    · exact ⟨none, rest, hend, pure_eq_ok_iff.mpr ⟨rfl, rfl⟩⟩
    · refine ⟨some key, afterKey, hkey, ?_⟩
      simp only [bind_eq_ok_iff, pure_eq_ok_iff]
      exact ⟨(), front, colon_eq_ok_iff.mpr hcolon, head, behind, hhead, tail, rest, htail, rfl, rfl⟩

/-- An object is read between its braces. -/
theorem object_eq_ok_iff {value : Reader α} {found : List (String × α)} :
    object value s = .ok (found, rest) ↔
      ∃ inside behind, skipBlanks s = '\x7b' :: inside ∧
        entries value (inside.length + 1) true inside = .ok (found, behind) ∧
          skipBlanks behind = '\x7d' :: rest := by
  unfold object
  split
  next inside hskip =>
    simp only [bind_eq_ok_iff, pure_eq_ok_iff]
    constructor
    · rintro ⟨_, behind, hread, _, last, hclose, rfl, rfl⟩
      exact ⟨inside, behind, hskip, hread, closeObject_eq_ok_iff.mp hclose⟩
    · rintro ⟨inside', behind, hopen, hread, hclose⟩
      obtain rfl := (List.cons.inj (hskip.symm.trans hopen)).2
      exact ⟨found, behind, hread, (), rest, closeObject_eq_ok_iff.mpr hclose, rfl, rfl⟩
  next hskip =>
    refine iff_of_false nofun ?_
    rintro ⟨inside, behind, hopen, -⟩
    exact hskip inside hopen

/-- The members of an object are found if all of them are. -/
theorem mapM_memberDatum?_cons_eq_some_iff {decode : Tree → Option α} {key : Literal} {tree : Tree}
    {members : List (Literal × Tree)} {found : List (String × α)} :
    ((key, tree) :: members).mapM (memberDatum? decode) = some found ↔
      ∃ name head tail, key.content? = some name ∧ decode tree = some head ∧
        members.mapM (memberDatum? decode) = some tail ∧ (name, head) :: tail = found := by
  simp [List.mapM_cons, memberDatum?, Option.bind_eq_some_iff]

/-- Objects whose values are all of one kind. -/
def Schema.entries (schema : Schema α) : Schema (List (String × α)) where
  read := object schema.read
  decode := Tree.entries? schema.decode
  Step := fun _ _ ↦ False

variable {schema : Schema α}

/-- The members of an object are read as they are found in the trees. -/
theorem reads_entries (h : schema.Agrees) {members : List (Literal × Tree)} {steps : Nat}
    {found : List (String × α)} (hleads : LeadsMembers isFirst members s rest)
    (hsteps : members.length < steps) :
    (∃ last, entries schema.read steps isFirst s = .ok (found, last) ∧
        skipBlanks last = '\x7d' :: behind) ↔
      members.mapM (memberDatum? schema.decode) = some found ∧ behind = rest := by
  induction members generalizing isFirst s steps found with
  | nil =>
    obtain ⟨steps, rfl⟩ := Nat.exists_eq_add_one.mpr hsteps
    have hend := hleads.nextKey_nil
    simp only [entries_eq_ok_iff, hend]
    constructor
    · rintro ⟨last, ⟨hlast, rfl⟩ | ⟨key, afterKey, front, head, next, tail, hkey, -⟩, hclose⟩
      · obtain ⟨-, rfl⟩ := Prod.mk.inj (Except.ok.inj hlast)
        exact ⟨rfl, (List.cons.inj hclose).2.symm⟩
      · cases hkey
    · rintro ⟨hfound, rfl⟩
      exact ⟨'\x7d' :: behind, Or.inl ⟨rfl, (Option.some.inj hfound).symm⟩, rfl⟩
  | cons member members ih =>
    obtain ⟨key, tree⟩ := member
    obtain ⟨steps, rfl⟩ := Nat.exists_eq_add_one.mpr ((Nat.zero_le _).trans_lt hsteps)
    rw [LeadsMembers] at hleads
    obtain ⟨front, afterKey, value, next, hcomma, hkey, hcolon, htree, hmembers⟩ := hleads
    have hlength := Nat.lt_of_succ_lt_succ hsteps
    simp only [entries_eq_ok_iff, mapM_memberDatum?_cons_eq_some_iff]
    constructor
    · rintro ⟨last, ⟨hlast, -⟩ | ⟨name, afterKey', value', head, next', tail, hname, hcolon', hhead,
        hread, rfl⟩, hclose⟩
      · exact absurd hlast (nextKey_ne_none hcomma hkey)
      · obtain ⟨hcontent, rfl⟩ := (nextKey_of_leads hcomma hkey).mp hname
        obtain rfl := (List.cons.inj (hcolon.symm.trans hcolon')).2
        obtain ⟨hdecode, rfl⟩ := (h.reads htree hmembers.endsNumber).mp hhead
        obtain ⟨htails, hbehind⟩ := (ih hmembers hlength).mp ⟨last, hread, hclose⟩
        exact ⟨⟨name, head, tail, hcontent, hdecode, htails, rfl⟩, hbehind⟩
    · rintro ⟨⟨name, head, tail, hcontent, hdecode, htails, rfl⟩, hbehind⟩
      have hname := (nextKey_of_leads hcomma hkey).mpr ⟨hcontent, rfl⟩
      have hhead := (h.reads htree hmembers.endsNumber).mpr ⟨hdecode, rfl⟩
      obtain ⟨last, hread, hclose⟩ := (ih hmembers hlength).mpr ⟨htails, hbehind⟩
      exact ⟨last, Or.inr ⟨name, afterKey, value, head, next, tail, hname, hcolon, hhead, hread, rfl⟩,
        hclose⟩

/-- Members are read only where keys and trees are. -/
theorem exists_members_of_entries (h : schema.Agrees) {steps : Nat} {found : List (String × α)}
    (hread : entries schema.read steps isFirst s = .ok (found, behind))
    (hclose : skipBlanks behind = '\x7d' :: rest) :
    ∃ members, LeadsMembers isFirst members s rest := by
  induction steps generalizing isFirst s found with
  | zero => cases hread
  | succ steps ih =>
    rcases entries_eq_ok_iff.mp hread with
      ⟨hend, -⟩ | ⟨name, afterKey, front, head, next, tail, hname, hcolon, hhead, htail, -⟩
    · obtain ⟨more, hskip, rfl⟩ := nextKey_eq_none_iff.mp hend
      refine ⟨[], ?_⟩
      rw [LeadsMembers, hskip]
      exact hclose
    · obtain ⟨start, inside, hcomma, hquote, hliteral⟩ := nextKey_eq_some_iff.mp hname
      obtain ⟨key, rfl⟩ := exists_literal_of_read hliteral
      obtain ⟨tree, htree⟩ := h.exists_tree hhead
      obtain ⟨members, hmembers⟩ := ih htail
      refine ⟨(key, tree) :: members, ?_⟩
      rw [LeadsMembers]
      exact ⟨start, afterKey, front, next, hcomma, hquote, hcolon, htree, hmembers⟩

/-- Objects. -/
theorem agrees_entries (h : schema.Agrees) : schema.entries.Agrees where
  reads {tree s rest behind found} hleads _ := by
    change object schema.read s = _ ↔ tree.entries? schema.decode = _ ∧ _
    rw [object_eq_ok_iff]
    constructor
    · rintro ⟨inside, last, hopen, hread, hclose⟩
      obtain ⟨members, rfl, hmembers⟩ := hleads.exists_members hopen
      exact (reads_entries h hmembers (hmembers.length_lt.trans (Nat.lt_succ_self _))).mp
        ⟨last, hread, hclose⟩
    · rintro ⟨hdecode, hbehind⟩
      match tree with
      | .object members =>
        rw [Tree.Leads] at hleads
        obtain ⟨inside, hopen, hmembers⟩ := hleads
        obtain ⟨last, hread, hclose⟩ :=
          (reads_entries h hmembers (hmembers.length_lt.trans (Nat.lt_succ_self _))).mpr
            ⟨hdecode, hbehind⟩
        exact ⟨inside, last, hopen, hread, hclose⟩
  exists_tree {s rest found} hread := by
    obtain ⟨inside, behind, hopen, hentries, hclose⟩ := object_eq_ok_iff.mp hread
    obtain ⟨members, hmembers⟩ := exists_members_of_entries h hentries hclose
    refine ⟨.object members, ?_⟩
    rw [Tree.Leads]
    exact ⟨inside, hopen, hmembers⟩

end Objects

/-! ### Values of any kind -/

/-- Values of any kind that are not nested deeper than `levels`. -/
def Schema.datum (levels : Nat) : Schema Datum where
  read := Json.datum levels
  decode := Tree.datum? levels
  Step := fun _ _ ↦ False

section Data

variable {s rest more : List Char} {levels : Nat}

/-- What starts with a bracket is read as a list. -/
theorem datum_of_bracket (hopen : skipBlanks s = '[' :: more) :
    datum (levels + 1) s = (Datum.list <$> list (datum levels)) s := by
  simp only [datum, hopen]

/-- What starts with a brace is read as an object. -/
theorem datum_of_brace (hopen : skipBlanks s = '\x7b' :: more) :
    datum (levels + 1) s = (Datum.object <$> object (datum levels)) s := by
  simp only [datum, hopen]

/-- Everything else is read as a value without members. -/
theorem datum_of_other (hlist : ∀ more, skipBlanks s ≠ '[' :: more)
    (hobject : ∀ more, skipBlanks s ≠ '\x7b' :: more) :
    datum (levels + 1) s = scalarDatum (skipBlanks s) := by
  unfold datum
  split
  next more hopen => exact absurd hopen (hlist more)
  next more hopen => exact absurd hopen (hobject more)
  next => rfl

/-- Values of any kind, to any depth. -/
theorem agrees_datum (levels : Nat) : (Schema.datum levels).Agrees := by
  induction levels with
  | zero => exact ⟨fun _ _ ↦ iff_of_false nofun nofun, nofun⟩
  | succ levels ih =>
    have hlist := agrees_map (agrees_list ih) Datum.list
    have hobject := agrees_map (agrees_entries ih) Datum.object
    refine ⟨fun {tree s rest behind value} hleads hends ↦ ?_, fun {s rest value} hread ↦ ?_⟩
    · change datum (levels + 1) s = _ ↔ tree.datum? (levels + 1) = _ ∧ _
      cases tree with
      | scalar scalar =>
        obtain ⟨first, more, hfirst, hstarts⟩ := hleads.exists_cons
        have hmarks := Scalar.StartsWith.notMem hstarts
        rw [Tree.Leads] at hleads
        rw [datum_of_other, hleads, scalarDatum_characters scalar hends, Tree.datum?]
        · rintro more' hopen
          exact absurd (by simp [(List.cons.inj (hfirst.symm.trans hopen)).1]) hmarks
        · rintro more' hopen
          exact absurd (by simp [(List.cons.inj (hfirst.symm.trans hopen)).1]) hmarks
      | list trees =>
        have hbrackets := hleads
        rw [Tree.Leads] at hbrackets
        obtain ⟨inside, hopen, -⟩ := hbrackets
        rw [datum_of_bracket hopen]
        exact hlist.reads hleads hends
      | object members =>
        have hbraces := hleads
        rw [Tree.Leads] at hbraces
        obtain ⟨inside, hopen, -⟩ := hbraces
        rw [datum_of_brace hopen]
        exact hobject.reads hleads hends
    · change datum (levels + 1) s = _ at hread
      by_cases hbracket : ∃ more, skipBlanks s = '[' :: more
      · obtain ⟨more, hopen⟩ := hbracket
        rw [datum_of_bracket hopen] at hread
        exact hlist.exists_tree hread
      by_cases hbrace : ∃ more, skipBlanks s = '\x7b' :: more
      · obtain ⟨more, hopen⟩ := hbrace
        rw [datum_of_brace hopen] at hread
        exact hobject.exists_tree hread
      · rw [datum_of_other (not_exists.mp hbracket) (not_exists.mp hbrace)] at hread
        obtain ⟨scalar, hscalar⟩ := exists_scalar_of_datum hread
        exact ⟨.scalar scalar, by rwa [Tree.Leads]⟩

/-- A document is read exactly if it is a tree that says something, and as what the tree says. -/
theorem readDocument_eq_ok_iff {document : String} {found : Datum} :
    readDocument document = .ok found ↔
      ∃ tree : Tree, tree.IsWrittenIn document ∧ tree.datum? nestingLimit = some found := by
  have hagrees := agrees_datum nestingLimit
  rw [readDocument, whole_eq_ok_iff]
  constructor
  · rintro ⟨rest, hread, hrest⟩
    obtain ⟨tree, hleads⟩ := hagrees.exists_tree hread
    have hends := endsNumber_of_skipBlanks_nil hrest
    exact ⟨tree, ⟨rest, hleads, hrest⟩, ((hagrees.reads hleads hends).mp hread).1⟩
  · rintro ⟨tree, ⟨rest, hleads, hrest⟩, hdatum⟩
    have hends := endsNumber_of_skipBlanks_nil hrest
    exact ⟨rest, (hagrees.reads hleads hends).mpr ⟨hdatum, rfl⟩, hrest⟩

example : (readDocument "[1, \x7b\"a\": null\x7d]\n").isOk ∧ ¬ (readDocument "[1, ]").isOk := by
  decide +kernel

end Data

end FrameSorter.Json
