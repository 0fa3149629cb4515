import Mathlib.Data.List.DropRight
import FrameSorter.Proofs.JsonLiterals
import FrameSorter.Proofs.JsonNumerals

/-!
# JSON texts as they are written

Every way to write a JSON value is a `Tree`: an object has all its members, in order and with their keys
as they are written. A text starts with a tree if it goes on like the tree does, with any blanks in front
of the parts (`Tree.Leads`).

A value that is skipped may be any tree, to any depth (`skipValue_of_leads`), and nothing else is skipped
(`exists_tree_of_skipValue`).
-/

set_option autoImplicit false
set_option relaxedAutoImplicit false

namespace FrameSorter.Json

/-! ### Values without members -/

/-- The words that are values. -/
inductive Keyword
  | null
  | true
  | false
  deriving DecidableEq, Repr

/-- How a word is written. -/
def Keyword.characters : Keyword → List Char
  | .null => ['n', 'u', 'l', 'l']
  | .true => ['t', 'r', 'u', 'e']
  | .false => ['f', 'a', 'l', 's', 'e']

/-- A value without members: a word, a number or a literal. -/
inductive Scalar
  | keyword (word : Keyword)
  | number (numeral : Numeral)
  | text (literal : Literal)

/-- How a value without members is written. -/
def Scalar.characters : Scalar → List Char
  | .keyword word => word.characters
  | .number numeral => numeral.characters
  | .text literal => literal.characters

section Scalars

variable {s rest : List Char}

/-- A word is found where the text goes on with it. -/
theorem afterWord?_eq_some_iff {word : List Char} : afterWord? word s = some rest ↔ s = word ++ rest := by
  fun_induction afterWord? word s with
  | case1 s => simp
  | case2 word d s ih => simp [ih]
  | case3 c word d s hne => simpa using fun hsame ↦ absurd hsame.symm hne
  | case4 c word => simp

/-- A value without members starts with a character of its own. -/
def Scalar.StartsWith (c : Char) : Scalar → Prop
  | .keyword word => word.characters.head? = some c
  | .number _ => c = '-' ∨ c.isDigit
  | .text _ => c = '"'

/-- A value without members has a first character. -/
theorem Scalar.exists_cons (scalar : Scalar) :
    ∃ first more, scalar.characters = first :: more ∧ scalar.StartsWith first := by
  cases scalar with
  | keyword word => cases word <;> exact ⟨_, _, rfl, rfl⟩
  | number numeral => exact numeral.exists_cons
  | text literal => exact ⟨'"', literal.inside, rfl, rfl⟩

/-- A value without members is skipped. -/
theorem skipScalar_characters (scalar : Scalar) (hrest : EndsNumber rest) :
    skipScalar (scalar.characters ++ rest) = .ok rest := by
  cases scalar with
  | keyword word =>
    have hword : afterWord? word.characters (word.characters ++ rest) = some rest :=
      afterWord?_eq_some_iff.mpr rfl
    cases word <;> simp_all [Scalar.characters, Keyword.characters, skipScalar, afterWord?]
  | number numeral =>
    obtain ⟨first, more, hnumeral, hfirst⟩ := numeral.exists_cons
    have hparts := ofText?_characters numeral hrest
    have hquote : first ≠ '"' := by
      rintro rfl
      revert hfirst
      decide
    rw [Scalar.characters]
    rw [hnumeral, List.cons_append] at hparts ⊢
    rw [skipScalar, if_pos hfirst, hparts]
    exact hquote
  | text literal => exact skipCharacters_inside literal rest

/-- Only values without members are skipped as such. -/
theorem exists_scalar (hskip : skipScalar s = .ok rest) :
    ∃ scalar : Scalar, s = scalar.characters ++ rest := by
  unfold skipScalar at hskip
  split at hskip
  next => cases hskip
  next behind =>
    obtain ⟨literal, rfl⟩ := exists_literal_of_skip hskip
    exact ⟨.text literal, rfl⟩
  next c behind hquote =>
    split at hskip
    · split at hskip
      next => cases hskip
      next parts behind hparts =>
        cases hskip
        obtain ⟨numeral, hnumeral⟩ := exists_numeral hparts
        exact ⟨.number numeral, hnumeral⟩
    · split at hskip
      next => cases hskip
      next behind hword =>
        cases hskip
        simp only [Option.or_eq_some_iff, afterWord?_eq_some_iff] at hword
        rcases hword with hnull | ⟨-, htrue | ⟨-, hfalse⟩⟩
        · exact ⟨.keyword .null, hnull⟩
        · exact ⟨.keyword .true, htrue⟩
        · exact ⟨.keyword .false, hfalse⟩

end Scalars

/-! ### Trees -/

/-- A value as it is written. -/
inductive Tree
  | scalar (scalar : Scalar)
  | list (elements : List Tree)
  | object (members : List (Literal × Tree))

/-- In front of a part that is not the first there is a comma. -/
def LeadsComma (isFirst : Bool) (s rest : List Char) : Prop :=
  if isFirst then rest = s else skipBlanks s = ',' :: rest

mutual

/-- The text starts with the value, with blanks or none in front of each of its parts, and this is the
rest. -/
def Tree.Leads : Tree → List Char → List Char → Prop
  | .scalar scalar, s, rest => skipBlanks s = scalar.characters ++ rest
  | .list elements, s, rest =>
    ∃ inside, skipBlanks s = '[' :: inside ∧ LeadsElements true elements inside rest
  | .object members, s, rest =>
    ∃ inside, skipBlanks s = '\x7b' :: inside ∧ LeadsMembers true members inside rest

/-- The text starts with the elements of a list and its closing bracket. -/
def LeadsElements (isFirst : Bool) : List Tree → List Char → List Char → Prop
  | [], s, rest => skipBlanks s = ']' :: rest
  | tree :: trees, s, rest =>
    ∃ front behind, LeadsComma isFirst s front ∧ tree.Leads front behind ∧
      LeadsElements false trees behind rest

/-- The text starts with the members of an object and its closing brace. -/
def LeadsMembers (isFirst : Bool) : List (Literal × Tree) → List Char → List Char → Prop
  | [], s, rest => skipBlanks s = '\x7d' :: rest
  | (key, tree) :: members, s, rest =>
    ∃ front afterKey value behind, LeadsComma isFirst s front ∧
      skipBlanks front = key.characters ++ afterKey ∧ skipBlanks afterKey = ':' :: value ∧
      tree.Leads value behind ∧ LeadsMembers false members behind rest

end

section Trees

variable {s rest behind : List Char} {c : Char}

/-- Blanks are skipped at once. -/
theorem skipBlanks_skipBlanks (s : List Char) : skipBlanks (skipBlanks s) = skipBlanks s :=
  List.dropWhile_idempotent isBlank s

/-- Blanks are characters of the text. -/
theorem length_skipBlanks_le (s : List Char) : (skipBlanks s).length ≤ s.length :=
  List.length_dropWhile_le isBlank s

/-- Behind its blanks a text is no longer than with them. -/
theorem length_le_of_skipBlanks {part : List Char} (hskip : skipBlanks s = part ++ rest) :
    part.length + rest.length ≤ s.length := by
  have hlength := length_skipBlanks_le s
  rwa [hskip, List.length_append] at hlength

/-- Where there are only blanks, they are skipped with those that follow. -/
theorem skipBlanks_append_of_nil (hskip : skipBlanks s = []) (more : List Char) :
    skipBlanks (s ++ more) = skipBlanks more := by
  have hskip' : s.dropWhile isBlank = [] := hskip
  rw [skipBlanks, List.dropWhile_append, hskip', List.isEmpty_nil, if_pos rfl]
  rfl

/-- The first character of a value. -/
def Tree.StartsWith (c : Char) : Tree → Prop
  | .scalar value => value.StartsWith c
  | .list _ => c = '['
  | .object _ => c = '\x7b'

/-- No value without members starts like a list or an object, or like something that stands behind a
value. -/
theorem Scalar.StartsWith.notMem {scalar : Scalar} (hstarts : scalar.StartsWith c) :
    c ∉ ['[', '\x7b', ']', '\x7d', ',', ':'] := by
  cases scalar with
  | keyword word =>
    cases word <;>
    · obtain rfl := Option.some.inj hstarts
      decide
  | number numeral =>
    have hmarks : ∀ mark ∈ ['[', '\x7b', ']', '\x7d', ',', ':'], ¬ (mark = '-' ∨ mark.isDigit) := by
      simp
    exact fun hmark ↦ hmarks c hmark hstarts
  | text literal =>
    obtain rfl : c = '"' := hstarts
    decide

/-- No value without members starts with a blank. -/
theorem Scalar.StartsWith.not_isBlank {scalar : Scalar} (hstarts : scalar.StartsWith c) :
    ¬ isBlank c := by
  intro hblank
  simp only [isBlank, Bool.or_eq_true, beq_iff_eq] at hblank
  cases scalar with
  | keyword word =>
    cases word <;>
    · obtain rfl := Option.some.inj hstarts
      revert hblank
      decide
  | number numeral =>
    have hnumber : c = '-' ∨ c.isDigit := hstarts
    rcases hblank with ((rfl | rfl) | rfl) | rfl <;> exact absurd hnumber (by decide)
  | text literal =>
    obtain rfl : c = '"' := hstarts
    revert hblank
    decide

/-- No value starts like something that stands behind a value. -/
theorem Tree.StartsWith.notMem {tree : Tree} (hstarts : tree.StartsWith c) :
    c ∉ [']', '\x7d', ',', ':'] := by
  cases tree with
  | scalar scalar =>
    have hscalar : scalar.StartsWith c := hstarts
    exact fun hmark ↦ hscalar.notMem (List.mem_cons_of_mem '[' (List.mem_cons_of_mem '\x7b' hmark))
  | list elements =>
    obtain rfl : c = '[' := hstarts
    decide
  | object members =>
    obtain rfl : c = '\x7b' := hstarts
    decide

/-- Behind the blanks stands the first character of the value. -/
theorem Tree.Leads.exists_cons {tree : Tree} (hleads : tree.Leads s rest) :
    ∃ first more, skipBlanks s = first :: more ∧ tree.StartsWith first := by
  cases tree with
  | scalar scalar =>
    rw [Tree.Leads] at hleads
    obtain ⟨first, more, hscalar, hstarts⟩ := scalar.exists_cons
    exact ⟨first, more ++ rest, by rw [hleads, hscalar, List.cons_append], hstarts⟩
  | list elements =>
    rw [Tree.Leads] at hleads
    obtain ⟨inside, hskip, -⟩ := hleads
    exact ⟨'[', inside, hskip, rfl⟩
  | object members =>
    rw [Tree.Leads] at hleads
    obtain ⟨inside, hskip, -⟩ := hleads
    exact ⟨'\x7b', inside, hskip, rfl⟩

/-- Blanks in front of a value do not matter. -/
theorem Tree.leads_skipBlanks {tree : Tree} : tree.Leads (skipBlanks s) rest ↔ tree.Leads s rest := by
  cases tree <;> simp only [Tree.Leads, skipBlanks_skipBlanks]

/-- A number ends where the text goes on with something else, behind blanks or none. -/
theorem endsNumber_of_skipBlanks (hskip : skipBlanks s = c :: rest) (hc : ¬ continuesNumber c) :
    EndsNumber s := by
  cases s with
  | nil => cases hskip
  | cons first more =>
    rintro d ⟨⟩
    by_cases hblank : isBlank first
    · simp only [isBlank, Bool.or_eq_true, beq_iff_eq] at hblank
      rcases hblank with ((rfl | rfl) | rfl) | rfl <;> decide
    · rw [skipBlanks, List.dropWhile_cons_of_neg hblank] at hskip
      rwa [(List.cons.inj hskip).1]

/-- A number ends at the end of a document. -/
theorem endsNumber_of_skipBlanks_nil (hskip : skipBlanks s = []) : EndsNumber s := by
  cases s with
  | nil => nofun
  | cons first more =>
    rintro d ⟨⟩
    have hblank := List.dropWhile_eq_nil_iff.mp hskip first List.mem_cons_self
    simp only [isBlank, Bool.or_eq_true, beq_iff_eq] at hblank
    rcases hblank with ((rfl | rfl) | rfl) | rfl <;> decide

/-- A number ends in front of a comma or the end of a list. -/
theorem LeadsElements.endsNumber {trees : List Tree} (hleads : LeadsElements false trees s rest) :
    EndsNumber s := by
  cases trees with
  | nil =>
    rw [LeadsElements] at hleads
    exact endsNumber_of_skipBlanks hleads (by decide)
  | cons tree trees =>
    rw [LeadsElements] at hleads
    obtain ⟨front, behind, hcomma, -⟩ := hleads
    exact endsNumber_of_skipBlanks hcomma (by decide)

/-- A number ends in front of a comma or the end of an object. -/
theorem LeadsMembers.endsNumber {members : List (Literal × Tree)}
    (hleads : LeadsMembers false members s rest) : EndsNumber s := by
  cases members with
  | nil =>
    rw [LeadsMembers] at hleads
    exact endsNumber_of_skipBlanks hleads (by decide)
  | cons member members =>
    rw [LeadsMembers] at hleads
    obtain ⟨front, afterKey, value, behind, hcomma, -⟩ := hleads
    exact endsNumber_of_skipBlanks hcomma (by decide)

end Trees

/-! ### Skipping a value -/

/-- How far a value has been skipped. -/
structure Skipping where
  awaited : Awaited
  holders : List Holder
  text : List Char

/-- Skipping goes on from one place to a later one, in one step at least and in no more steps than it
takes characters. -/
def Skipping.Reaches (place later : Skipping) : Prop :=
  ∃ cost, 0 < cost ∧ cost + later.text.length ≤ place.text.length ∧
    ∀ steps, skip (steps + cost) place.awaited place.holders place.text =
      skip steps later.awaited later.holders later.text

namespace Skipping

variable {place later latest : Skipping}

/-- One place after another. -/
theorem Reaches.trans (hfirst : place.Reaches later) (hsecond : later.Reaches latest) :
    place.Reaches latest := by
  obtain ⟨first, hfirstCost, hfirstLength, hfirst⟩ := hfirst
  obtain ⟨second, -, hsecondLength, hsecond⟩ := hsecond
  refine ⟨second + first, by omega, by omega, fun steps ↦ ?_⟩
  rw [← Nat.add_assoc, hfirst, hsecond]

/-- One step. -/
theorem reaches_of_step {awaited next : Awaited} {holders holding : List Holder} {s rest : List Char}
    (hlength : rest.length < s.length)
    (hstep : ∀ steps, skip (steps + 1) awaited holders s = skip steps next holding rest) :
    Reaches ⟨awaited, holders, s⟩ ⟨next, holding, rest⟩ :=
  ⟨1, Nat.one_pos, by simp only; omega, hstep⟩

end Skipping

/-- A value without members is skipped in one step. -/
theorem reaches_scalar (scalar : Scalar) {s rest : List Char}
    (hleads : skipBlanks s = scalar.characters ++ rest) (hends : EndsNumber rest)
    (holders : List Holder) :
    Skipping.Reaches ⟨.value, holders, s⟩ ⟨.continuation, holders, rest⟩ := by
  obtain ⟨first, more, hscalar, hstarts⟩ := scalar.exists_cons
  have hmarks := hstarts.notMem
  have hskip := skipScalar_characters scalar hends
  have hlength := length_le_of_skipBlanks hleads
  rw [hscalar] at hleads hskip hlength
  refine Skipping.reaches_of_step (Nat.lt_of_lt_of_le (by simp) hlength) fun steps ↦ ?_
  rw [skip, hleads, List.cons_append]
  split
  next hfirst => exact absurd (by simp [(List.cons.inj hfirst).1]) hmarks
  next hfirst => exact absurd (by simp [(List.cons.inj hfirst).1]) hmarks
  next => rw [← List.cons_append, hskip]

/-- The text behind a mark is shorter. -/
theorem length_lt_of_skipBlanks {mark : Char} {s rest : List Char}
    (hmark : skipBlanks s = mark :: rest) : rest.length < s.length := by
  have hlength : [mark].length + rest.length ≤ s.length := length_le_of_skipBlanks hmark
  rw [List.length_singleton] at hlength
  omega

/-- A list or an object without members is skipped in one step. -/
theorem reaches_empty {opening closing : Char} {s inside rest : List Char}
    (hmarks : (opening = '[' ∧ closing = ']') ∨ (opening = '\x7b' ∧ closing = '\x7d'))
    (hopen : skipBlanks s = opening :: inside) (hclose : skipBlanks inside = closing :: rest)
    (holders : List Holder) :
    Skipping.Reaches ⟨.value, holders, s⟩ ⟨.continuation, holders, rest⟩ := by
  have hlength := (length_lt_of_skipBlanks hclose).trans (length_lt_of_skipBlanks hopen)
  rcases hmarks with ⟨rfl, rfl⟩ | ⟨rfl, rfl⟩
  all_goals exact Skipping.reaches_of_step hlength fun steps ↦ by simp only [skip, hopen, hclose]

/-- Behind the opening bracket of a list its first element is awaited. -/
theorem reaches_firstElement {tree : Tree} {s inside rest : List Char}
    (hopen : skipBlanks s = '[' :: inside) (htree : tree.Leads inside rest) (holders : List Holder) :
    Skipping.Reaches ⟨.value, holders, s⟩ ⟨.value, .list :: holders, skipBlanks inside⟩ := by
  obtain ⟨first, more, hfirst, hstarts⟩ := htree.exists_cons
  have hmarks := hstarts.notMem
  have hlength := (length_skipBlanks_le inside).trans_lt (length_lt_of_skipBlanks hopen)
  refine Skipping.reaches_of_step hlength fun steps ↦ ?_
  simp only [skip, hopen, hfirst]
  split
  next hclose => exact absurd (by simp [(List.cons.inj hclose).1]) hmarks
  next => rfl

/-- Behind the opening brace of an object its first key is awaited. -/
theorem reaches_firstKey {key : Literal} {s inside rest : List Char}
    (hopen : skipBlanks s = '\x7b' :: inside) (hkey : skipBlanks inside = key.characters ++ rest)
    (holders : List Holder) :
    Skipping.Reaches ⟨.value, holders, s⟩ ⟨.key, .object :: holders, skipBlanks inside⟩ := by
  have hlength := (length_skipBlanks_le inside).trans_lt (length_lt_of_skipBlanks hopen)
  refine Skipping.reaches_of_step hlength fun steps ↦ ?_
  simp only [skip, hopen, hkey]
  rfl

/-- Behind a key and its colon a value is awaited. -/
theorem reaches_memberValue {key : Literal} {s afterKey value : List Char}
    (hkey : skipBlanks s = key.characters ++ afterKey) (hcolon : skipBlanks afterKey = ':' :: value)
    (holders : List Holder) :
    Skipping.Reaches ⟨.key, holders, s⟩ ⟨.value, holders, value⟩ := by
  have hkeyLength := length_le_of_skipBlanks hkey
  have hlength := (length_lt_of_skipBlanks hcolon).trans_le ((Nat.le_add_left _ _).trans hkeyLength)
  refine Skipping.reaches_of_step hlength fun steps ↦ ?_
  rw [skip, hkey]
  simp only [Literal.characters, List.cons_append, skipCharacters_inside, hcolon]

/-- The mark at the end of a list or an object. -/
def Holder.closing : Holder → Char
  | .list => ']'
  | .object => '\x7d'

/-- What stands behind a comma in a list or an object. -/
def Holder.next : Holder → Awaited
  | .list => .value
  | .object => .key

/-- Behind a comma the next part of a list or an object is awaited. -/
theorem reaches_next (holder : Holder) {s rest : List Char} (hcomma : skipBlanks s = ',' :: rest)
    (holders : List Holder) :
    Skipping.Reaches ⟨.continuation, holder :: holders, s⟩ ⟨holder.next, holder :: holders, rest⟩ := by
  refine Skipping.reaches_of_step (length_lt_of_skipBlanks hcomma) fun steps ↦ ?_
  cases holder <;> simp only [skip, hcomma, Holder.next]

/-- A closing mark ends a list or an object. -/
theorem reaches_close (holder : Holder) {s rest : List Char}
    (hclose : skipBlanks s = holder.closing :: rest) (holders : List Holder) :
    Skipping.Reaches ⟨.continuation, holder :: holders, s⟩ ⟨.continuation, holders, rest⟩ := by
  refine Skipping.reaches_of_step (length_lt_of_skipBlanks hclose) fun steps ↦ ?_
  cases holder <;> simp only [skip, hclose, Holder.closing]

mutual

/-- A value is skipped up to its end. -/
theorem reaches_tree (tree : Tree) {s rest : List Char} (hleads : tree.Leads s rest)
    (hends : EndsNumber rest) (holders : List Holder) :
    Skipping.Reaches ⟨.value, holders, s⟩ ⟨.continuation, holders, rest⟩ := by
  match tree with
  | .scalar scalar =>
    rw [Tree.Leads] at hleads
    exact reaches_scalar scalar hleads hends holders
  | .list [] =>
    simp only [Tree.Leads, LeadsElements] at hleads
    obtain ⟨inside, hopen, hclose⟩ := hleads
    exact reaches_empty (Or.inl ⟨rfl, rfl⟩) hopen hclose holders
  | .list (tree :: trees) =>
    simp only [Tree.Leads, LeadsElements] at hleads
    obtain ⟨inside, hopen, front, behind, hfront, htree, htrees⟩ := hleads
    obtain rfl : front = inside := hfront
    exact (reaches_firstElement hopen htree holders).trans
      ((reaches_tree tree (Tree.leads_skipBlanks.mpr htree) htrees.endsNumber _).trans
        (reaches_elements trees htrees holders))
  | .object [] =>
    simp only [Tree.Leads, LeadsMembers] at hleads
    obtain ⟨inside, hopen, hclose⟩ := hleads
    exact reaches_empty (Or.inr ⟨rfl, rfl⟩) hopen hclose holders
  | .object ((key, tree) :: members) =>
    simp only [Tree.Leads, LeadsMembers] at hleads
    obtain ⟨inside, hopen, front, afterKey, value, behind, hfront, hkey, hcolon, htree, hmembers⟩ :=
      hleads
    obtain rfl : front = inside := hfront
    have hskipped : skipBlanks (skipBlanks front) = key.characters ++ afterKey :=
      (skipBlanks_skipBlanks front).trans hkey
    exact (reaches_firstKey hopen hkey holders).trans
      ((reaches_memberValue hskipped hcolon _).trans
        ((reaches_tree tree htree hmembers.endsNumber _).trans
          (reaches_members members hmembers holders)))

/-- The elements of a list are skipped up to its end. -/
theorem reaches_elements (trees : List Tree) {s rest : List Char}
    (hleads : LeadsElements false trees s rest) (holders : List Holder) :
    Skipping.Reaches ⟨.continuation, .list :: holders, s⟩ ⟨.continuation, holders, rest⟩ := by
  match trees with
  | [] =>
    rw [LeadsElements] at hleads
    exact reaches_close .list hleads holders
  | tree :: trees =>
    rw [LeadsElements] at hleads
    obtain ⟨front, behind, hcomma, htree, htrees⟩ := hleads
    exact (reaches_next .list hcomma holders).trans
      ((reaches_tree tree htree htrees.endsNumber _).trans (reaches_elements trees htrees holders))

/-- The members of an object are skipped up to its end. -/
theorem reaches_members (members : List (Literal × Tree)) {s rest : List Char}
    (hleads : LeadsMembers false members s rest) (holders : List Holder) :
    Skipping.Reaches ⟨.continuation, .object :: holders, s⟩ ⟨.continuation, holders, rest⟩ := by
  match members with
  | [] =>
    rw [LeadsMembers] at hleads
    exact reaches_close .object hleads holders
  | (key, tree) :: members =>
    rw [LeadsMembers] at hleads
    obtain ⟨front, afterKey, value, behind, hcomma, hkey, hcolon, htree, hmembers⟩ := hleads
    exact (reaches_next .object hcomma holders).trans
      ((reaches_memberValue hkey hcolon _).trans
        ((reaches_tree tree htree hmembers.endsNumber _).trans
          (reaches_members members hmembers holders)))

end

/-- A value of any kind and depth is skipped. -/
theorem skipValue_of_leads {tree : Tree} {s rest : List Char} (hleads : tree.Leads s rest)
    (hends : EndsNumber rest) : skipValue s = .ok ((), rest) := by
  obtain ⟨cost, -, hlength, hskip⟩ := reaches_tree tree hleads hends []
  have hsteps : s.length + 1 = (s.length - cost) + 1 + cost := by
    change cost + rest.length ≤ s.length at hlength
    omega
  have hskipped : skip (s.length + 1) .value [] s = .ok rest := by
    rw [hsteps]
    exact hskip (s.length - cost + 1)
  rw [skipValue, hskipped]
  rfl

/-- A value takes a character. -/
theorem Tree.Leads.length_lt {tree : Tree} {s rest : List Char} (hleads : tree.Leads s rest)
    (hends : EndsNumber rest) : rest.length < s.length := by
  obtain ⟨cost, hcost, hlength, -⟩ := reaches_tree tree hleads hends []
  simp only at hlength
  omega

/-! ### Only values are skipped -/

/-- What still stands in the text when a value has been skipped that is held in this way. -/
def Closes : List Holder → List Char → List Char → Prop
  | [], s, rest => s = rest
  | .list :: holders, s, rest =>
    ∃ trees behind, LeadsElements false trees s behind ∧ Closes holders behind rest
  | .object :: holders, s, rest =>
    ∃ members behind, LeadsMembers false members s behind ∧ Closes holders behind rest

/-- What still stands in the text from some place on. -/
def Owes : Awaited → List Holder → List Char → List Char → Prop
  | .value, holders, s, rest => ∃ (tree : Tree) (behind : List Char),
    tree.Leads s behind ∧ Closes holders behind rest
  | .key, holders, s, rest =>
    ∃ (key : Literal) (tree : Tree) (afterKey value behind : List Char),
      skipBlanks s = key.characters ++ afterKey ∧ skipBlanks afterKey = ':' :: value ∧
        tree.Leads value behind ∧ Closes holders behind rest
  | .continuation, holders, s, rest => Closes holders s rest

/-- What is skipped stood in the text. -/
theorem owes_of_skip {steps : Nat} {awaited : Awaited} {holders : List Holder} {s rest : List Char}
    (hskip : skip steps awaited holders s = .ok rest) : Owes awaited holders s rest := by
  fun_induction skip steps awaited holders s with
  | case1 | case6 | case8 | case10 | case11 | case15 | case18 => cases hskip
  | case2 steps holders s inside hopen behind hclose ih =>
    refine ⟨.list [], behind, ?_, ih hskip⟩
    simp only [Tree.Leads, LeadsElements]
    exact ⟨inside, hopen, hclose⟩
  | case3 steps holders s inside hopen hnext ih =>
    obtain ⟨tree, behind, htree, trees, close, htrees, hcloses⟩ := ih hskip
    refine ⟨.list (tree :: trees), close, ?_, hcloses⟩
    simp only [Tree.Leads, LeadsElements]
    exact ⟨inside, hopen, inside, behind, rfl, Tree.leads_skipBlanks.mp htree, htrees⟩
  | case4 steps holders s inside hopen behind hclose ih =>
    refine ⟨.object [], behind, ?_, ih hskip⟩
    simp only [Tree.Leads, LeadsMembers]
    exact ⟨inside, hopen, hclose⟩
  | case5 steps holders s inside hopen hnext ih =>
    obtain ⟨key, tree, afterKey, value, behind, hkey, hcolon, htree, members, close, hmembers,
      hcloses⟩ := ih hskip
    rw [skipBlanks_skipBlanks] at hkey
    refine ⟨.object ((key, tree) :: members), close, ?_, hcloses⟩
    simp only [Tree.Leads, LeadsMembers]
    exact ⟨inside, hopen, inside, afterKey, value, behind, rfl, hkey, hcolon, htree, hmembers⟩
  | case7 steps holders s behind _ _ hscalar ih =>
    obtain ⟨scalar, htext⟩ := exists_scalar hscalar
    refine ⟨.scalar scalar, behind, ?_, ih hskip⟩
    rwa [Tree.Leads]
  | case9 steps holders s inside hquote afterKey hkey value hcolon ih =>
    obtain ⟨key, rfl⟩ := exists_literal_of_skip hkey
    obtain ⟨tree, behind, htree, hcloses⟩ := ih hskip
    exact ⟨key, tree, afterKey, value, behind, hquote, hcolon, htree, hcloses⟩
  | case12 steps s => exact Except.ok.inj hskip
  | case13 steps holders s behind hclose ih =>
    refine ⟨[], behind, ?_, ih hskip⟩
    rwa [LeadsElements]
  | case14 steps holders s front hcomma ih =>
    obtain ⟨tree, behind, htree, trees, close, htrees, hcloses⟩ := ih hskip
    refine ⟨tree :: trees, close, ?_, hcloses⟩
    rw [LeadsElements]
    exact ⟨front, behind, hcomma, htree, htrees⟩
  | case16 steps holders s behind hclose ih =>
    refine ⟨[], behind, ?_, ih hskip⟩
    rwa [LeadsMembers]
  | case17 steps holders s front hcomma ih =>
    obtain ⟨key, tree, afterKey, value, behind, hkey, hcolon, htree, members, close, hmembers,
      hcloses⟩ := ih hskip
    refine ⟨(key, tree) :: members, close, ?_, hcloses⟩
    rw [LeadsMembers]
    exact ⟨front, afterKey, value, behind, hcomma, hkey, hcolon, htree, hmembers⟩

/-- Only values are skipped. -/
theorem exists_tree_of_skipValue {s rest : List Char} (hskip : skipValue s = .ok ((), rest)) :
    ∃ tree : Tree, tree.Leads s rest := by
  rw [skipValue] at hskip
  cases hrest : skip (s.length + 1) .value [] s with
  | error fault =>
    rw [hrest] at hskip
    cases hskip
  | ok behind =>
    rw [hrest] at hskip
    obtain rfl := (Prod.mk.inj (Except.ok.inj hskip)).2
    obtain ⟨tree, close, htree, hcloses⟩ := owes_of_skip hrest
    obtain rfl : close = behind := hcloses
    exact ⟨tree, htree⟩

end FrameSorter.Json
