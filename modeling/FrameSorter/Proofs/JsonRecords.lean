import FrameSorter.Proofs.JsonSchemas

/-!
# Lists and records in JSON trees

A list is read element by element and a record member by member. Each part is found in the tree in front
of the text just as it is read, so a list or a record agrees with its trees if its parts do
(`agrees_list`, `agrees_record`).
-/

set_option autoImplicit false
set_option relaxedAutoImplicit false

namespace FrameSorter.Json

/-! ### Lists -/

section Lists

variable {α : Type} {isFirst hasMore : Bool} {s rest behind : List Char} {c : Char}

/-- A list ends at its closing bracket. -/
theorem hasElement_eq_false_iff :
    hasElement isFirst s = .ok (false, rest) ↔
      ∃ more, skipBlanks s = ']' :: more ∧ rest = ']' :: more := by
  unfold hasElement
  split
  next hskip => simp [hskip]
  next more hskip => simp [hskip, eq_comm]
  next first more hclose hskip =>
    refine iff_of_false ?_ ?_
    · repeat' split
      all_goals nofun
    · rintro ⟨more', hskip', -⟩
      rw [hskip] at hskip'
      exact hclose (List.cons.inj hskip').1

/-- A list goes on with something that is no closing bracket, behind a comma if it is not the first. -/
theorem hasElement_eq_true_iff :
    hasElement isFirst s = .ok (true, rest) ↔
      ∃ front first more, LeadsComma isFirst s front ∧ skipBlanks front = first :: more ∧
        first ≠ ']' ∧ rest = first :: more := by
  unfold hasElement LeadsComma
  cases isFirst with
  | true =>
    simp only [if_true, exists_and_left, exists_eq_left]
    cases skipBlanks s with
    | nil => simp
    | cons first more =>
      by_cases hclose : first = ']'
      · simp [hclose]
      · simp [hclose, eq_comm]
  | false =>
    simp only [Bool.false_eq_true, if_false]
    cases skipBlanks s with
    | nil => simp
    | cons first more =>
      by_cases hclose : first = ']'
      · simp [hclose]
      · by_cases hcomma : first = ','
        · subst hcomma
          simp only [List.cons.injEq, true_and, exists_and_left, exists_eq_left', if_true]
          cases skipBlanks more with
          | nil => simp
          | cons second more =>
            by_cases hclose : second = ']'
            · simp [hclose]
            · simp [hclose, eq_comm]
        · simp [hcomma]

/-- The closing bracket is read. -/
theorem closeList_eq_ok_iff : closeList s = .ok ((), rest) ↔ skipBlanks s = ']' :: rest := by
  unfold closeList
  split
  next more hskip => simp [hskip]
  next hskip => simpa using hskip rest

/-- A reader that gives a value without reading takes no character. -/
theorem pure_eq_ok_iff {value given : α} :
    (pure given : Reader α) s = .ok (value, rest) ↔ value = given ∧ rest = s := by
  change (Except.ok (given, s) : Except Fault (α × List Char)) = .ok (value, rest) ↔ _
  rw [Except.ok.injEq, Prod.mk.injEq, eq_comm, @eq_comm _ s]

/-- The elements of a list are read one after another. -/
theorem elements_eq_ok_iff {element : Reader α} {steps : Nat} {values : List α} :
    elements element (steps + 1) isFirst s = .ok (values, rest) ↔
      (hasElement isFirst s = .ok (false, rest) ∧ values = []) ∨
        ∃ front head behind tail, hasElement isFirst s = .ok (true, front) ∧
          element front = .ok (head, behind) ∧
            elements element steps false behind = .ok (tail, rest) ∧ values = head :: tail := by
  rw [elements, bind_eq_ok_iff]
  constructor
  · rintro ⟨hasMore, front, hmore, hread⟩
    cases hasMore with
    | false =>
      obtain ⟨rfl, rfl⟩ := pure_eq_ok_iff.mp hread
      exact Or.inl ⟨hmore, rfl⟩
    | true =>
      obtain ⟨head, behind, hhead, htail⟩ := bind_eq_ok_iff.mp hread
      obtain ⟨tail, last, htail, hvalues⟩ := bind_eq_ok_iff.mp htail
      obtain ⟨rfl, rfl⟩ := pure_eq_ok_iff.mp hvalues
      exact Or.inr ⟨front, head, behind, tail, hmore, hhead, htail, rfl⟩
  · rintro (⟨hend, rfl⟩ | ⟨front, head, behind, tail, hmore, hhead, htail, rfl⟩)
    · exact ⟨false, rest, hend, pure_eq_ok_iff.mpr ⟨rfl, rfl⟩⟩
    · exact ⟨true, front, hmore, bind_eq_ok_iff.mpr ⟨head, behind, hhead,
        bind_eq_ok_iff.mpr ⟨tail, rest, htail, pure_eq_ok_iff.mpr ⟨rfl, rfl⟩⟩⟩⟩

/-- A list is read between its brackets. -/
theorem list_eq_ok_iff {element : Reader α} {values : List α} :
    list element s = .ok (values, rest) ↔
      ∃ inside behind, skipBlanks s = '[' :: inside ∧
        elements element (inside.length + 1) true inside = .ok (values, behind) ∧
          skipBlanks behind = ']' :: rest := by
  unfold list
  split
  next inside hskip =>
    rw [bind_eq_ok_iff]
    constructor
    · rintro ⟨found, behind, hfound, hread⟩
      obtain ⟨closed, last, hclose, hvalues⟩ := bind_eq_ok_iff.mp hread
      obtain ⟨rfl, rfl⟩ := pure_eq_ok_iff.mp hvalues
      exact ⟨inside, behind, hskip, hfound, closeList_eq_ok_iff.mp hclose⟩
    · rintro ⟨inside', behind, hopen, hfound, hclose⟩
      obtain rfl := (List.cons.inj (hskip.symm.trans hopen)).2
      exact ⟨values, behind, hfound, bind_eq_ok_iff.mpr
        ⟨(), rest, closeList_eq_ok_iff.mpr hclose, pure_eq_ok_iff.mpr ⟨rfl, rfl⟩⟩⟩
  next hskip =>
    simp only [mismatch_ne_ok, false_iff]
    rintro ⟨inside, behind, hopen, -⟩
    exact hskip inside hopen

/-- What stands behind a comma is given by the text. -/
theorem LeadsComma.unique (hrest : LeadsComma isFirst s rest) (hbehind : LeadsComma isFirst s behind) :
    rest = behind := by
  cases isFirst with
  | true => exact hrest.trans hbehind.symm
  | false => exact (List.cons.inj (hrest.symm.trans hbehind)).2

/-- A comma is a character of the text. -/
theorem LeadsComma.length_le (hcomma : LeadsComma isFirst s rest) : rest.length ≤ s.length := by
  cases isFirst with
  | true => exact (congrArg List.length hcomma).le
  | false => exact (length_lt_of_skipBlanks hcomma).le

/-- A list takes more characters than it has elements. -/
theorem LeadsElements.length_lt {trees : List Tree} (hleads : LeadsElements isFirst trees s rest) :
    trees.length < s.length := by
  induction trees generalizing isFirst s with
  | nil =>
    rw [LeadsElements] at hleads
    exact (Nat.zero_le _).trans_lt (length_lt_of_skipBlanks hleads)
  | cons tree trees ih =>
    rw [LeadsElements] at hleads
    obtain ⟨front, behind, hcomma, htree, htrees⟩ := hleads
    have hfrontLength := hcomma.length_le
    have htreeLength := htree.length_lt htrees.endsNumber
    have htreesLength := ih htrees
    rw [List.length_cons]
    omega

/-- Where the elements end, the reader finds no further one. -/
theorem LeadsElements.hasElement_nil (hleads : LeadsElements isFirst [] s rest) :
    hasElement isFirst s = .ok (false, ']' :: rest) := by
  rw [LeadsElements] at hleads
  exact hasElement_eq_false_iff.mpr ⟨rest, hleads, rfl⟩

/-- In front of a further element the reader finds it. -/
theorem hasElement_of_leads {front : List Char} {tree : Tree} (hcomma : LeadsComma isFirst s front)
    (htree : tree.Leads front behind) : hasElement isFirst s = .ok (true, skipBlanks front) := by
  obtain ⟨first, more, hfirst, hstarts⟩ := htree.exists_cons
  have hmarks := hstarts.notMem
  exact hasElement_eq_true_iff.mpr ⟨front, first, more, hcomma, hfirst,
    fun hclose ↦ hmarks (by simp [hclose]), hfirst⟩

/-- What the reader finds to be no element ends the list. -/
theorem leads_of_hasElement_false (hend : hasElement isFirst s = .ok (false, behind))
    (hclose : skipBlanks behind = ']' :: rest) : LeadsElements isFirst [] s rest := by
  obtain ⟨more, hskip, rfl⟩ := hasElement_eq_false_iff.mp hend
  rw [LeadsElements, hskip]
  exact hclose

/-- An element that the reader finds stands in front of the others. -/
theorem leads_of_hasElement_true {front : List Char} {tree : Tree} {trees : List Tree}
    (hmore : hasElement isFirst s = .ok (true, front)) (htree : tree.Leads front behind)
    (htrees : LeadsElements false trees behind rest) :
    LeadsElements isFirst (tree :: trees) s rest := by
  obtain ⟨start, first, more, hcomma, hskip, -, rfl⟩ := hasElement_eq_true_iff.mp hmore
  rw [← hskip, Tree.leads_skipBlanks] at htree
  rw [LeadsElements]
  exact ⟨start, behind, hcomma, htree, htrees⟩

variable {schema : Schema α}

/-- The parts of a list are found if all of them are. -/
theorem mapM_cons_eq_some_iff {β : Type} {decode : β → Option α} {part : β} {parts : List β}
    {values : List α} :
    (part :: parts).mapM decode = some values ↔
      ∃ head tail, decode part = some head ∧ parts.mapM decode = some tail ∧ head :: tail = values := by
  simp [List.mapM_cons, Option.bind_eq_some_iff]

/-- The elements of a list are read as they are found in the trees. -/
theorem reads_elements (h : schema.Agrees) {trees : List Tree} {steps : Nat} {values : List α}
    (hleads : LeadsElements isFirst trees s rest) (hsteps : trees.length < steps) :
    (∃ last, elements schema.read steps isFirst s = .ok (values, last) ∧
        skipBlanks last = ']' :: behind) ↔
      trees.mapM schema.decode = some values ∧ behind = rest := by
  -- The reader counts its steps down, but the trees decide where it ends.
  induction trees generalizing isFirst s steps values with
  | nil =>
    obtain ⟨steps, rfl⟩ := Nat.exists_eq_add_one.mpr hsteps
    have hend := hleads.hasElement_nil
    simp only [elements_eq_ok_iff, hend]
    constructor
    · rintro ⟨last, ⟨hlast, rfl⟩ | ⟨front, head, next, tail, hmore, -⟩, hclose⟩
      · obtain ⟨-, rfl⟩ := Prod.mk.inj (Except.ok.inj hlast)
        exact ⟨rfl, (List.cons.inj hclose).2.symm⟩
      · cases hmore
    · rintro ⟨hvalues, rfl⟩
      exact ⟨']' :: behind, Or.inl ⟨rfl, (Option.some.inj hvalues).symm⟩, rfl⟩
  | cons tree trees ih =>
    obtain ⟨steps, rfl⟩ := Nat.exists_eq_add_one.mpr ((Nat.zero_le _).trans_lt hsteps)
    rw [LeadsElements] at hleads
    obtain ⟨front, next, hcomma, htree, htrees⟩ := hleads
    have hmore := hasElement_of_leads hcomma htree
    have hlength := Nat.lt_of_succ_lt_succ hsteps
    have hfront := Tree.leads_skipBlanks.mpr htree
    simp only [elements_eq_ok_iff, hmore, mapM_cons_eq_some_iff]
    constructor
    · rintro ⟨last, ⟨hlast, -⟩ | ⟨front', head, next', tail, hfound, hhead, hread, rfl⟩, hclose⟩
      · cases hlast
      · obtain ⟨-, rfl⟩ := Prod.mk.inj (Except.ok.inj hfound)
        obtain ⟨hdecode, rfl⟩ := (h.reads hfront htrees.endsNumber).mp hhead
        obtain ⟨htails, hbehind⟩ := (ih htrees hlength).mp ⟨last, hread, hclose⟩
        exact ⟨⟨head, tail, hdecode, htails, rfl⟩, hbehind⟩
    · rintro ⟨⟨head, tail, hdecode, htails, rfl⟩, hbehind⟩
      have hhead := (h.reads hfront htrees.endsNumber).mpr ⟨hdecode, rfl⟩
      obtain ⟨last, hread, hclose⟩ := (ih htrees hlength).mpr ⟨htails, hbehind⟩
      exact ⟨last, Or.inr ⟨skipBlanks front, head, next, tail, rfl, hhead, hread, rfl⟩, hclose⟩

/-- Elements are read only where trees are. -/
theorem exists_elements_of_read (h : schema.Agrees) {steps : Nat} {values : List α}
    (hread : elements schema.read steps isFirst s = .ok (values, behind))
    (hclose : skipBlanks behind = ']' :: rest) : ∃ trees, LeadsElements isFirst trees s rest := by
  induction steps generalizing isFirst s values with
  | zero => cases hread
  | succ steps ih =>
    rcases elements_eq_ok_iff.mp hread with ⟨hend, -⟩ | ⟨front, head, next, tail, hmore, hhead, htail, -⟩
    · exact ⟨[], leads_of_hasElement_false hend hclose⟩
    · obtain ⟨tree, htree⟩ := h.exists_tree hhead
      obtain ⟨trees, htrees⟩ := ih htail
      exact ⟨tree :: trees, leads_of_hasElement_true hmore htree htrees⟩

/-- Lists. -/
theorem agrees_list (h : schema.Agrees) : (schemas.list schema).Agrees where
  reads {tree s rest behind values} hleads _ := by
    change list schema.read s = _ ↔ tree.list? schema.decode = _ ∧ _
    rw [list_eq_ok_iff]
    constructor
    · rintro ⟨inside, last, hopen, hread, hclose⟩
      obtain ⟨trees, rfl, helements⟩ := hleads.exists_elements hopen
      exact (reads_elements h helements (helements.length_lt.trans (Nat.lt_succ_self _))).mp
        ⟨last, hread, hclose⟩
    · rintro ⟨hdecode, hbehind⟩
      match tree with
      | .list trees =>
        rw [Tree.Leads] at hleads
        obtain ⟨inside, hopen, helements⟩ := hleads
        obtain ⟨last, hread, hclose⟩ :=
          (reads_elements h helements (helements.length_lt.trans (Nat.lt_succ_self _))).mpr
            ⟨hdecode, hbehind⟩
        exact ⟨inside, last, hopen, hread, hclose⟩
  exists_tree {s rest values} hread := by
    obtain ⟨inside, behind, hopen, helements, hclose⟩ := list_eq_ok_iff.mp hread
    obtain ⟨trees, htrees⟩ := exists_elements_of_read h helements hclose
    refine ⟨.list trees, ?_⟩
    rw [Tree.Leads]
    exact ⟨inside, hopen, htrees⟩

end Lists

/-! ### Records given by position -/

section Records

variable {α : Type} {isFirst : Bool} {s rest behind : List Char} {draft final : Draft α}

/-- The members that a list gives by position are read one after another. -/
theorem positions_eq_ok_iff {member : Member Reader α} {members : List (Member Reader α)} :
    positions (member :: members) isFirst draft s = .ok (final, rest) ↔
      (hasElement isFirst s = .ok (false, rest) ∧ final = draft) ∨
        ∃ front change behind, hasElement isFirst s = .ok (true, front) ∧
          member.read front = .ok (change, behind) ∧
            positions members false (draft.set member.name change) behind = .ok (final, rest) := by
  rw [positions, bind_eq_ok_iff]
  constructor
  · rintro ⟨hasMore, front, hmore, hread⟩
    cases hasMore with
    | false =>
      obtain ⟨rfl, rfl⟩ := pure_eq_ok_iff.mp hread
      exact Or.inl ⟨hmore, rfl⟩
    | true =>
      obtain ⟨change, behind, hchange, hrest⟩ := bind_eq_ok_iff.mp hread
      exact Or.inr ⟨front, change, behind, hmore, hchange, hrest⟩
  · rintro (⟨hend, rfl⟩ | ⟨front, change, behind, hmore, hchange, hrest⟩)
    · exact ⟨false, rest, hend, pure_eq_ok_iff.mpr ⟨rfl, rfl⟩⟩
    · exact ⟨true, front, hmore, bind_eq_ok_iff.mpr ⟨change, behind, hchange, hrest⟩⟩

variable {members : List (Member Schema α)} (h : ∀ member ∈ members, member.read.Agrees)
include h

/-- Members are read by position as they are found in the trees. -/
theorem reads_positions {trees : List Tree} (hleads : LeadsElements isFirst trees s rest) :
    (∃ last, positions (members.map (Member.map Schema.read)) isFirst draft s = .ok (final, last) ∧
        skipBlanks last = ']' :: behind) ↔
      decodePositions members trees draft = some final ∧ behind = rest := by
  fun_induction decodePositions members trees draft generalizing isFirst s with
  | case1 members draft =>
    have hend := hleads.hasElement_nil
    rw [LeadsElements] at hleads
    cases members with
    | nil =>
      simp only [List.map_nil, positions, pure_eq_ok_iff]
      constructor
      · rintro ⟨last, ⟨rfl, rfl⟩, hclose⟩
        exact ⟨rfl, (List.cons.inj (hclose.symm.trans hleads)).2⟩
      · rintro ⟨hfinal, rfl⟩
        exact ⟨s, ⟨(Option.some.inj hfinal).symm, rfl⟩, hleads⟩
    | cons member members =>
      simp only [List.map_cons, positions_eq_ok_iff, hend]
      constructor
      · rintro ⟨last, ⟨hlast, rfl⟩ | ⟨front, change, next, hmore, -⟩, hclose⟩
        · obtain ⟨-, rfl⟩ := Prod.mk.inj (Except.ok.inj hlast)
          exact ⟨rfl, (List.cons.inj hclose).2.symm⟩
        · cases hmore
      · rintro ⟨hfinal, rfl⟩
        exact ⟨']' :: behind, Or.inl ⟨rfl, (Option.some.inj hfinal).symm⟩, rfl⟩
  | case2 tree trees draft =>
    rw [LeadsElements] at hleads
    obtain ⟨front, next, hcomma, htree, -⟩ := hleads
    have hmore := hasElement_of_leads hcomma htree
    simp only [List.map_nil, positions, pure_eq_ok_iff, reduceCtorEq, false_and, iff_false]
    rintro ⟨last, ⟨-, rfl⟩, hclose⟩
    rw [hasElement_eq_false_iff.mpr ⟨behind, hclose, rfl⟩] at hmore
    cases hmore
  | case3 member members tree trees draft ih =>
    rw [LeadsElements] at hleads
    obtain ⟨front, next, hcomma, htree, htrees⟩ := hleads
    have hmore := hasElement_of_leads hcomma htree
    have hfront := Tree.leads_skipBlanks.mpr htree
    obtain ⟨hmember, hmembers⟩ := List.forall_mem_cons.mp h
    simp only [List.map_cons, positions_eq_ok_iff, hmore, Option.bind_eq_bind,
      Option.bind_eq_some_iff]
    constructor
    · rintro ⟨last, ⟨hlast, -⟩ | ⟨front', change, next', hfound, hchange, hread⟩, hclose⟩
      · cases hlast
      · obtain ⟨-, rfl⟩ := Prod.mk.inj (Except.ok.inj hfound)
        obtain ⟨hdecode, rfl⟩ := (hmember.reads hfront htrees.endsNumber).mp hchange
        obtain ⟨hfinal, hbehind⟩ := (ih change hmembers htrees).mp ⟨last, hread, hclose⟩
        exact ⟨⟨change, hdecode, hfinal⟩, hbehind⟩
    · rintro ⟨⟨change, hdecode, hfinal⟩, hbehind⟩
      have hchange := (hmember.reads hfront htrees.endsNumber).mpr ⟨hdecode, rfl⟩
      obtain ⟨last, hread, hclose⟩ := (ih change hmembers htrees).mpr ⟨hfinal, hbehind⟩
      exact ⟨last, Or.inr ⟨skipBlanks front, change, next, rfl, hchange, hread⟩, hclose⟩

/-- Members are read by position only where trees are. -/
theorem exists_elements_of_positions
    (hread : positions (members.map (Member.map Schema.read)) isFirst draft s = .ok (final, behind))
    (hclose : skipBlanks behind = ']' :: rest) : ∃ trees, LeadsElements isFirst trees s rest := by
  induction members generalizing isFirst s draft with
  | nil =>
    obtain ⟨-, rfl⟩ := pure_eq_ok_iff.mp hread
    refine ⟨[], ?_⟩
    rwa [LeadsElements]
  | cons member members ih =>
    obtain ⟨hmember, hmembers⟩ := List.forall_mem_cons.mp h
    rcases positions_eq_ok_iff.mp hread with ⟨hend, -⟩ | ⟨front, change, next, hmore, hchange, hrest⟩
    · exact ⟨[], leads_of_hasElement_false hend hclose⟩
    · obtain ⟨tree, htree⟩ := hmember.exists_tree hchange
      obtain ⟨trees, htrees⟩ := ih hmembers hrest
      exact ⟨tree :: trees, leads_of_hasElement_true hmore htree htrees⟩

end Records

/-! ### Records given by name -/

section Objects

variable {α : Type} {isFirst : Bool} {s rest behind : List Char} {draft final : Draft α} {name : String}

/-- A key is a literal. -/
theorem key_eq_ok_iff {key : Option String} :
    (readLiteral s).map (fun (key, rest) ↦ (some key, rest)) = .ok (key, rest) ↔
      ∃ name, key = some name ∧ readLiteral s = .ok (name, rest) := by
  cases readLiteral s with
  | error fault => simp [Except.map]
  | ok taken => simp [Except.map, Prod.ext_iff, eq_comm]

/-- An object ends at its closing brace. -/
theorem nextKey_eq_none_iff :
    nextKey isFirst s = .ok (none, rest) ↔ ∃ more, skipBlanks s = '\x7d' :: more ∧ rest = '\x7d' :: more := by
  unfold nextKey
  split
  next more hskip => simp [hskip, eq_comm]
  next more hskip =>
    cases isFirst with
    | true => simp [hskip]
    | false =>
      simp only [hskip, Bool.false_eq_true, if_false]
      split <;> simp [key_eq_ok_iff]
  next more hskip => cases isFirst <;> simp [hskip, key_eq_ok_iff]
  next hclose _ _ => simpa using fun more hskip ↦ absurd hskip (hclose more)

/-- An object goes on with a key, behind a comma if it is not the first. -/
theorem nextKey_eq_some_iff :
    nextKey isFirst s = .ok (some name, rest) ↔
      ∃ front inside, LeadsComma isFirst s front ∧ skipBlanks front = '"' :: inside ∧
        readLiteral inside = .ok (name, rest) := by
  unfold nextKey LeadsComma
  split
  next more hskip => cases isFirst <;> simp [hskip]
  next more hskip =>
    cases isFirst with
    | true => simp [hskip]
    | false =>
      simp only [hskip, Bool.false_eq_true, if_false, List.cons.injEq, true_and, exists_and_left,
        exists_eq_left']
      split
      next inside hquote => simp [hquote, key_eq_ok_iff]
      next hquote => simpa using fun inside hinside ↦ absurd hinside (hquote inside)
  next more hskip => cases isFirst <;> simp [hskip, key_eq_ok_iff]
  next _ hcomma hquote =>
    cases isFirst with
    | true => simpa using fun inside hskip ↦ absurd hskip (hquote inside)
    | false => simpa using fun front hskip ↦ absurd hskip (hcomma front)

/-- The closing brace is read. -/
theorem closeObject_eq_ok_iff : closeObject s = .ok ((), rest) ↔ skipBlanks s = '\x7d' :: rest := by
  unfold closeObject
  split
  next more hskip => simp [hskip]
  next hskip => simpa using hskip rest

/-- The colon is read. -/
theorem colon_eq_ok_iff : colon s = .ok ((), rest) ↔ skipBlanks s = ':' :: rest := by
  unfold colon
  split
  next more hskip => simp [hskip]
  next hskip => simpa using hskip rest

/-- The members of an object are read one after another. -/
theorem members_eq_ok_iff {record : Record Reader α} {steps : Nat} :
    members record (steps + 1) isFirst draft s = .ok (final, rest) ↔
      (nextKey isFirst s = .ok (none, rest) ∧ final = draft) ∨
        ∃ name afterKey next behind, nextKey isFirst s = .ok (some name, afterKey) ∧
          memberValue record draft name afterKey = .ok (next, behind) ∧
            members record steps false next behind = .ok (final, rest) := by
  rw [members, bind_eq_ok_iff]
  constructor
  · rintro ⟨key, afterKey, hkey, hread⟩
    cases key with
    | none =>
      obtain ⟨rfl, rfl⟩ := pure_eq_ok_iff.mp hread
      exact Or.inl ⟨hkey, rfl⟩
    | some name =>
      obtain ⟨next, behind, hvalue, hmembers⟩ := bind_eq_ok_iff.mp hread
      exact Or.inr ⟨name, afterKey, next, behind, hkey, hvalue, hmembers⟩
  · rintro (⟨hend, rfl⟩ | ⟨name, afterKey, next, behind, hkey, hvalue, hmembers⟩)
    · exact ⟨none, rest, hend, pure_eq_ok_iff.mpr ⟨rfl, rfl⟩⟩
    · exact ⟨some name, afterKey, hkey, bind_eq_ok_iff.mpr ⟨next, behind, hvalue, hmembers⟩⟩

/-- An object takes more characters than it has members. -/
theorem LeadsMembers.length_lt {members : List (Literal × Tree)}
    (hleads : LeadsMembers isFirst members s rest) : members.length < s.length := by
  induction members generalizing isFirst s with
  | nil =>
    rw [LeadsMembers] at hleads
    exact (Nat.zero_le _).trans_lt (length_lt_of_skipBlanks hleads)
  | cons member members ih =>
    rw [LeadsMembers] at hleads
    obtain ⟨front, afterKey, value, behind, hcomma, hkey, hcolon, htree, hmembers⟩ := hleads
    have hfrontLength := hcomma.length_le
    have hkeyLength := length_le_of_skipBlanks hkey
    have hcolonLength := length_lt_of_skipBlanks hcolon
    have htreeLength := htree.length_lt hmembers.endsNumber
    have hmembersLength := ih hmembers
    rw [List.length_cons]
    omega

/-- Where the members end, the reader finds no further key. -/
theorem LeadsMembers.nextKey_nil (hleads : LeadsMembers isFirst [] s rest) :
    nextKey isFirst s = .ok (none, '\x7d' :: rest) := by
  rw [LeadsMembers] at hleads
  exact nextKey_eq_none_iff.mpr ⟨rest, hleads, rfl⟩

/-- In front of a further member the reader finds what its key says. -/
theorem nextKey_of_leads {front afterKey : List Char} {key : Literal}
    (hcomma : LeadsComma isFirst s front) (hkey : skipBlanks front = key.characters ++ afterKey) :
    nextKey isFirst s = .ok (some name, behind) ↔ key.content? = some name ∧ behind = afterKey := by
  rw [nextKey_eq_some_iff, ← readLiteral_iff]
  constructor
  · rintro ⟨front', inside, hcomma', hquote, hread⟩
    obtain rfl := hcomma.unique hcomma'
    obtain rfl := (List.cons.inj (hkey.symm.trans hquote)).2
    exact hread
  · exact fun hread ↦ ⟨front, _, hcomma, hkey, hread⟩

/-- In front of a further member the object does not end. -/
theorem nextKey_ne_none {front afterKey : List Char} {key : Literal}
    (hcomma : LeadsComma isFirst s front) (hkey : skipBlanks front = key.characters ++ afterKey) :
    nextKey isFirst s ≠ .ok (none, behind) := by
  intro hend
  obtain ⟨more, hclose, -⟩ := nextKey_eq_none_iff.mp hend
  cases isFirst with
  | true =>
    obtain rfl : front = s := hcomma
    cases hkey.symm.trans hclose
  | false =>
    have hfirst : skipBlanks s = ',' :: front := hcomma
    cases hfirst.symm.trans hclose

variable {record : Record Schema α}

/-- The member with a key is read, or skipped if the record does not have it. -/
theorem memberValue_eq_ok_iff :
    memberValue (record.map Schema.read) draft name s = .ok (final, rest) ↔
      ∃ value, skipBlanks s = ':' :: value ∧
        ((record.member? name = none ∧ skipValue value = .ok ((), rest) ∧ final = draft) ∨
          ∃ member change, record.member? name = some member ∧ name ∉ draft.present ∧
            member.read.read value = .ok (change, rest) ∧ final = draft.set name change) := by
  unfold memberValue
  rw [Record.member?_map]
  cases hmember : record.member? name with
  | none =>
    simp only [Option.map_none, bind_eq_ok_iff, pure_eq_ok_iff]
    constructor
    · rintro ⟨_, value, hcolon, _, behind, hskip, rfl, rfl⟩
      exact ⟨value, colon_eq_ok_iff.mp hcolon, Or.inl ⟨trivial, hskip, rfl⟩⟩
    · rintro ⟨value, hcolon, ⟨-, hskip, rfl⟩ | ⟨member, change, hfound, -⟩⟩
      · exact ⟨(), value, colon_eq_ok_iff.mpr hcolon, (), rest, hskip, rfl, rfl⟩
      · cases hfound
  | some member =>
    simp only [Option.map_some]
    split_ifs with hpresent
    · refine iff_of_false nofun ?_
      rintro ⟨value, -, ⟨hnone, -⟩ | ⟨found, change, -, hfresh, -⟩⟩
      · cases hnone
      · exact hfresh hpresent
    · simp only [bind_eq_ok_iff, pure_eq_ok_iff]
      constructor
      · rintro ⟨_, value, hcolon, change, behind, hchange, rfl, rfl⟩
        exact ⟨value, colon_eq_ok_iff.mp hcolon, Or.inr ⟨member, change, rfl, hpresent, hchange, rfl⟩⟩
      · rintro ⟨value, hcolon, ⟨hnone, -⟩ | ⟨found, change, hfound, -, hchange, rfl⟩⟩
        · cases hnone
        · cases hfound
          exact ⟨(), value, colon_eq_ok_iff.mpr hcolon, change, rest, hchange, rfl, rfl⟩

/-- The member with a key is found, or left out if the record does not have it. -/
theorem decodeMember_eq_some_iff {tree : Tree} :
    decodeMember record draft name tree = some final ↔
      (record.member? name = none ∧ final = draft) ∨
        ∃ member change, record.member? name = some member ∧ name ∉ draft.present ∧
          member.read.decode tree = some change ∧ final = draft.set name change := by
  unfold decodeMember
  cases record.member? name with
  | none => simp [eq_comm]
  | some member => by_cases hpresent : name ∈ draft.present <;> simp [hpresent, eq_comm]

variable (h : ∀ member ∈ record.members, member.read.Agrees)
include h

/-- The value of a member is read as it is found in the tree, or skipped. -/
theorem reads_memberValue {tree : Tree} {value : List Char} (hcolon : skipBlanks s = ':' :: value)
    (hleads : tree.Leads value rest) (hends : EndsNumber rest) :
    memberValue (record.map Schema.read) draft name s = .ok (final, behind) ↔
      decodeMember record draft name tree = some final ∧ behind = rest := by
  have hskip := skipValue_of_leads hleads hends
  rw [memberValue_eq_ok_iff, decodeMember_eq_some_iff]
  constructor
  · rintro ⟨value', hcolon', hread⟩
    obtain rfl := (List.cons.inj (hcolon.symm.trans hcolon')).2
    rcases hread with ⟨hunknown, hbehind, rfl⟩ | ⟨member, change, hmember, hfresh, hchange, rfl⟩
    · rw [hskip] at hbehind
      exact ⟨Or.inl ⟨hunknown, rfl⟩, (Prod.mk.inj (Except.ok.inj hbehind)).2.symm⟩
    · obtain ⟨hdecode, hbehind⟩ := ((h member (List.mem_of_find?_eq_some hmember)).reads hleads hends).mp
        hchange
      exact ⟨Or.inr ⟨member, change, hmember, hfresh, hdecode, rfl⟩, hbehind⟩
  · rintro ⟨⟨hunknown, rfl⟩ | ⟨member, change, hmember, hfresh, hdecode, rfl⟩, rfl⟩
    · exact ⟨value, hcolon, Or.inl ⟨hunknown, hskip, rfl⟩⟩
    · have hchange := ((h member (List.mem_of_find?_eq_some hmember)).reads hleads hends).mpr
        ⟨hdecode, rfl⟩
      exact ⟨value, hcolon, Or.inr ⟨member, change, hmember, hfresh, hchange, rfl⟩⟩

/-- A member is read only where a tree is. -/
theorem exists_tree_of_memberValue
    (hread : memberValue (record.map Schema.read) draft name s = .ok (final, rest)) :
    ∃ (tree : Tree) (value : List Char), skipBlanks s = ':' :: value ∧ tree.Leads value rest := by
  obtain ⟨value, hcolon, ⟨-, hskip, -⟩ | ⟨member, change, hmember, -, hchange, -⟩⟩ :=
    memberValue_eq_ok_iff.mp hread
  · obtain ⟨tree, htree⟩ := exists_tree_of_skipValue hskip
    exact ⟨tree, value, hcolon, htree⟩
  · obtain ⟨tree, htree⟩ := (h member (List.mem_of_find?_eq_some hmember)).exists_tree hchange
    exact ⟨tree, value, hcolon, htree⟩

/-- The members of an object are read as they are found in the trees. -/
theorem reads_members {trees : List (Literal × Tree)} {steps : Nat}
    (hleads : LeadsMembers isFirst trees s rest) (hsteps : trees.length < steps) :
    (∃ last, members (record.map Schema.read) steps isFirst draft s = .ok (final, last) ∧
        skipBlanks last = '\x7d' :: behind) ↔
      decodeMembers record trees draft = some final ∧ behind = rest := by
  induction trees generalizing isFirst s steps draft with
  | nil =>
    obtain ⟨steps, rfl⟩ := Nat.exists_eq_add_one.mpr hsteps
    have hend := hleads.nextKey_nil
    simp only [members_eq_ok_iff, hend]
    constructor
    · rintro ⟨last, ⟨hlast, rfl⟩ | ⟨name, afterKey, next, behind', hkey, -⟩, hclose⟩
      · obtain ⟨-, rfl⟩ := Prod.mk.inj (Except.ok.inj hlast)
        exact ⟨rfl, (List.cons.inj hclose).2.symm⟩
      · cases hkey
    · rintro ⟨hfinal, rfl⟩
      exact ⟨'\x7d' :: behind, Or.inl ⟨rfl, (Option.some.inj hfinal).symm⟩, rfl⟩
  | cons member trees ih =>
    obtain ⟨key, tree⟩ := member
    obtain ⟨steps, rfl⟩ := Nat.exists_eq_add_one.mpr ((Nat.zero_le _).trans_lt hsteps)
    rw [LeadsMembers] at hleads
    obtain ⟨front, afterKey, value, next, hcomma, hkey, hcolon, htree, htrees⟩ := hleads
    have hlength := Nat.lt_of_succ_lt_succ hsteps
    simp only [members_eq_ok_iff, decodeMembers, Option.bind_eq_bind, Option.bind_eq_some_iff]
    constructor
    · rintro ⟨last, ⟨hlast, -⟩ | ⟨name, afterKey', draft', next', hname, hvalue, hread⟩, hclose⟩
      · exact absurd hlast (nextKey_ne_none hcomma hkey)
      · obtain ⟨hcontent, rfl⟩ := (nextKey_of_leads hcomma hkey).mp hname
        obtain ⟨hdecode, rfl⟩ := (reads_memberValue h hcolon htree htrees.endsNumber).mp hvalue
        obtain ⟨hfinal, hbehind⟩ := (ih htrees hlength).mp ⟨last, hread, hclose⟩
        exact ⟨⟨name, hcontent, draft', hdecode, hfinal⟩, hbehind⟩
    · rintro ⟨⟨name, hcontent, draft', hdecode, hfinal⟩, hbehind⟩
      have hname := (nextKey_of_leads hcomma hkey).mpr ⟨hcontent, rfl⟩
      have hvalue := (reads_memberValue h hcolon htree htrees.endsNumber).mpr ⟨hdecode, rfl⟩
      obtain ⟨last, hread, hclose⟩ := (ih htrees hlength).mpr ⟨hfinal, hbehind⟩
      exact ⟨last, Or.inr ⟨name, afterKey, draft', next, hname, hvalue, hread⟩, hclose⟩

/-- Members are read only where keys and trees are. -/
theorem exists_members_of_read {steps : Nat}
    (hread : members (record.map Schema.read) steps isFirst draft s = .ok (final, behind))
    (hclose : skipBlanks behind = '\x7d' :: rest) :
    ∃ trees, LeadsMembers isFirst trees s rest := by
  induction steps generalizing isFirst s draft with
  | zero => cases hread
  | succ steps ih =>
    rcases members_eq_ok_iff.mp hread with
      ⟨hend, -⟩ | ⟨name, afterKey, next, behind', hname, hvalue, hmembers⟩
    · obtain ⟨more, hskip, rfl⟩ := nextKey_eq_none_iff.mp hend
      refine ⟨[], ?_⟩
      rw [LeadsMembers, hskip]
      exact hclose
    · obtain ⟨front, inside, hcomma, hquote, hliteral⟩ := nextKey_eq_some_iff.mp hname
      obtain ⟨key, rfl⟩ := exists_literal_of_read hliteral
      obtain ⟨tree, value, hcolon, htree⟩ := exists_tree_of_memberValue h hvalue
      obtain ⟨trees, htrees⟩ := ih hmembers
      refine ⟨(key, tree) :: trees, ?_⟩
      rw [LeadsMembers]
      exact ⟨front, afterKey, value, behind', hcomma, hquote, hcolon, htree, htrees⟩

end Objects

/-! ### Records -/

section Records

variable {α : Type} {s rest : List Char}

/-- A step that reads nothing takes no character. -/
theorem liftM_eq_ok_iff {step : Except Fault α} {value : α} :
    (liftM step : Reader α) s = .ok (value, rest) ↔ step = .ok value ∧ rest = s := by
  cases step with
  | error fault => exact iff_of_false nofun nofun
  | ok taken =>
    constructor
    · rintro ⟨⟩
      exact ⟨rfl, rfl⟩
    · rintro ⟨⟨⟩, rfl⟩
      rfl

/-- A record is read from an object or from a list. -/
theorem record_eq_ok_iff {record : Record Schema α} {value : α} :
    Json.record (record.map Schema.read) s = .ok (value, rest) ↔
      (∃ inside draft behind, skipBlanks s = '[' :: inside ∧
        positions (record.members.map (Member.map Schema.read)) true (Draft.start record) inside =
          .ok (draft, behind) ∧
        draft.complete? record = some value ∧ skipBlanks behind = ']' :: rest) ∨
      ∃ inside draft behind, skipBlanks s = '\x7b' :: inside ∧
        members (record.map Schema.read) (inside.length + 1) true (Draft.start record) inside =
          .ok (draft, behind) ∧
        draft.complete? record = some value ∧ skipBlanks behind = '\x7d' :: rest := by
  unfold Json.record
  split
  next inside hskip =>
    simp only [bind_eq_ok_iff, liftM_eq_ok_iff, pure_eq_ok_iff]
    constructor
    · rintro ⟨draft, _, hread, value, behind, ⟨hfinish, rfl⟩, _, last, hclose, rfl, rfl⟩
      have hcomplete : draft.complete? (record.map Schema.read) = some value :=
        Draft.finishPositional_eq_ok_iff.mp hfinish
      exact Or.inl ⟨inside, draft, behind, hskip, hread, hcomplete, closeList_eq_ok_iff.mp hclose⟩
    · rintro (⟨inside', draft, behind, hopen, hread, hcomplete, hclose⟩ | ⟨inside', _, _, hopen, -⟩)
      · obtain rfl := (List.cons.inj (hskip.symm.trans hopen)).2
        exact ⟨draft, behind, hread, value, behind,
          ⟨Draft.finishPositional_eq_ok_iff.mpr hcomplete, rfl⟩, (), rest,
          closeList_eq_ok_iff.mpr hclose, rfl, rfl⟩
      · cases hskip.symm.trans hopen
  next inside hskip =>
    simp only [bind_eq_ok_iff, liftM_eq_ok_iff, pure_eq_ok_iff]
    constructor
    · rintro ⟨draft, _, hread, value, behind, ⟨hfinish, rfl⟩, _, last, hclose, rfl, rfl⟩
      have hcomplete : draft.complete? (record.map Schema.read) = some value :=
        Draft.finish_eq_ok_iff.mp hfinish
      exact Or.inr ⟨inside, draft, behind, hskip, hread, hcomplete, closeObject_eq_ok_iff.mp hclose⟩
    · rintro (⟨inside', _, _, hopen, -⟩ | ⟨inside', draft, behind, hopen, hread, hcomplete, hclose⟩)
      · cases hskip.symm.trans hopen
      · obtain rfl := (List.cons.inj (hskip.symm.trans hopen)).2
        exact ⟨draft, behind, hread, value, behind, ⟨Draft.finish_eq_ok_iff.mpr hcomplete, rfl⟩, (),
          rest, closeObject_eq_ok_iff.mpr hclose, rfl, rfl⟩
  next hlist hobject =>
    simp only [mismatch_ne_ok, false_iff]
    rintro (⟨inside, draft, behind, hopen, -⟩ | ⟨inside, draft, behind, hopen, -⟩)
    · exact hlist inside hopen
    · exact hobject inside hopen

/-- Records. -/
theorem agrees_record {record : Record Schema α} (h : ∀ member ∈ record.members, member.read.Agrees) :
    (schemas.record record).Agrees where
  reads {tree s rest behind value} hleads _ := by
    change Json.record (record.map Schema.read) s = _ ↔ tree.record? record = _ ∧ _
    rw [record_eq_ok_iff]
    constructor
    · rintro (⟨inside, draft, last, hopen, hread, hcomplete, hclose⟩ |
        ⟨inside, draft, last, hopen, hread, hcomplete, hclose⟩)
      · obtain ⟨trees, rfl, helements⟩ := hleads.exists_elements hopen
        obtain ⟨hdecode, hbehind⟩ := (reads_positions h helements).mp ⟨last, hread, hclose⟩
        exact ⟨Option.bind_eq_some_iff.mpr ⟨draft, hdecode, hcomplete⟩, hbehind⟩
      · obtain ⟨trees, rfl, hmembers⟩ := hleads.exists_members hopen
        have hsteps := hmembers.length_lt.trans (Nat.lt_succ_self _)
        obtain ⟨hdecode, hbehind⟩ := (reads_members h hmembers hsteps).mp ⟨last, hread, hclose⟩
        exact ⟨Option.bind_eq_some_iff.mpr ⟨draft, hdecode, hcomplete⟩, hbehind⟩
    · rintro ⟨hrecord, hbehind⟩
      match tree with
      | .list trees =>
        obtain ⟨draft, hdecode, hcomplete⟩ := Option.bind_eq_some_iff.mp hrecord
        rw [Tree.Leads] at hleads
        obtain ⟨inside, hopen, helements⟩ := hleads
        obtain ⟨last, hread, hclose⟩ := (reads_positions h helements).mpr ⟨hdecode, hbehind⟩
        exact Or.inl ⟨inside, draft, last, hopen, hread, hcomplete, hclose⟩
      | .object trees =>
        obtain ⟨draft, hdecode, hcomplete⟩ := Option.bind_eq_some_iff.mp hrecord
        rw [Tree.Leads] at hleads
        obtain ⟨inside, hopen, hmembers⟩ := hleads
        have hsteps := hmembers.length_lt.trans (Nat.lt_succ_self _)
        obtain ⟨last, hread, hclose⟩ := (reads_members h hmembers hsteps).mpr ⟨hdecode, hbehind⟩
        exact Or.inr ⟨inside, draft, last, hopen, hread, hcomplete, hclose⟩
  exists_tree {s rest value} hread := by
    rcases record_eq_ok_iff.mp hread with ⟨inside, draft, last, hopen, hread, -, hclose⟩ |
      ⟨inside, draft, last, hopen, hread, -, hclose⟩
    · obtain ⟨trees, htrees⟩ := exists_elements_of_positions h hread hclose
      refine ⟨.list trees, ?_⟩
      rw [Tree.Leads]
      exact ⟨inside, hopen, htrees⟩
    · obtain ⟨trees, htrees⟩ := exists_members_of_read h hread hclose
      refine ⟨.object trees, ?_⟩
      rw [Tree.Leads]
      exact ⟨inside, hopen, htrees⟩

end Records

end FrameSorter.Json
