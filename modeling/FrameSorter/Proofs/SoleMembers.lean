import FrameSorter.Proofs.JsonRecords
import FrameSorter.Proofs.RonRoundTrip
import FrameSorter.Proofs.TomlRoundTrip

/-!
# Records with a single member

A record that names only one of its members comes to what this member is read as, in every format: if the
member is read, the others have their defaults, and if it is not, the record has the fault of the
member (`Json.record_of_read`, `Json.record_of_error`, `Toml.asRecord_soleMember`, `Ron.record_of_read`,
`Ron.record_of_error`). In JSON and RON this is so at any place of a text, as the reader of a record only
looks at what stands behind the name of the member (`Json.soleMember`, `Ron.soleMember`).
-/

set_option autoImplicit false
set_option relaxedAutoImplicit false

namespace FrameSorter

/-! ### JSON -/

namespace Json

variable {α : Type} {record : Record Reader α} {member : Member Reader α} {name : String}
  {s rest : List Char} {change : α → α} {fault : Fault}

/-- An object with a single member, up to its value. -/
def soleMember (name : String) (s : List Char) : List Char :=
  '\x7b' :: ((literal name).toList ++ ':' :: s)

/-- The key of the only member is read. -/
theorem nextKey_soleMember (name : String) (s : List Char) :
    nextKey true ((literal name).toList ++ ':' :: s) = .ok (some name, ':' :: s) := by
  have hskip : skipBlanks ((literal name).toList ++ ':' :: s) = (literal name).toList ++ ':' :: s := by
    obtain ⟨behind, hquote, -⟩ := readLiteral_append name (':' :: s)
    rw [hquote]
    rfl
  exact nextKey_literal hskip

/-- What follows the key is the value of the member. -/
theorem memberValue_soleMember (hmember : record.member? name = some member) (s : List Char) :
    memberValue record (Draft.start record) name (':' :: s) =
      ((Draft.start record).set name <$> member.read) s :=
  memberValue_of_colon hmember List.not_mem_nil rfl

/-- A record is read from an object with a single member if this member is, and needs no other. -/
theorem record_of_read (hmember : record.member? name = some member)
    (hrequired : record.required ⊆ [name]) (hread : member.read s = .ok (change, '\x7d' :: rest)) :
    Json.record record (soleMember name s) = .ok (change record.initial, rest) := by
  have hvalue : memberValue record (Draft.start record) name (':' :: s) =
      .ok ((Draft.start record).set name change, '\x7d' :: rest) :=
    (memberValue_soleMember hmember s).trans (map_of_ok hread _)
  have hmembers (steps : Nat) : members record (steps + 2) true (Draft.start record)
      ((literal name).toList ++ ':' :: s) =
        .ok ((Draft.start record).set name change, '\x7d' :: rest) := by
    have hend : nextKey false ('\x7d' :: rest) = .ok (none, '\x7d' :: rest) := rfl
    rw [members, bind_of_ok (nextKey_soleMember name s)]
    refine (bind_of_ok hvalue _).trans ?_
    rw [members, bind_of_ok hend]
    rfl
  have hclose : closeObject ('\x7d' :: rest) = .ok ((), rest) := rfl
  -- One step takes the member, and another one finds the closing brace.
  obtain ⟨steps, hsteps⟩ : ∃ steps,
      ((literal name).toList ++ ':' :: s).length + 1 = steps + 2 := by
    refine ⟨((literal name).toList ++ s).length, ?_⟩
    simp only [List.length_append, List.length_cons]
    omega
  have hbrace : skipBlanks (soleMember name s) = '\x7b' :: ((literal name).toList ++ ':' :: s) := rfl
  rw [Json.record, hbrace]
  simp only [hsteps]
  rw [bind_of_ok (hmembers steps), Draft.finish_eq_ok hrequired, bind_of_ok (liftM_of_ok _ _),
    bind_of_ok hclose]
  rfl

/-- It has the fault of this member. -/
theorem record_of_error (hmember : record.member? name = some member)
    (hread : member.read s = .error fault) :
    Json.record record (soleMember name s) = .error fault := by
  have hvalue : memberValue record (Draft.start record) name (':' :: s) = .error fault :=
    (memberValue_soleMember hmember s).trans (map_of_error hread _)
  have hbrace : skipBlanks (soleMember name s) = '\x7b' :: ((literal name).toList ++ ':' :: s) := rfl
  rw [Json.record, hbrace]
  refine bind_of_error ?_ _
  rw [members, bind_of_ok (nextKey_soleMember name s)]
  exact bind_of_error hvalue _

end Json

/-! ### TOML -/

namespace Toml

variable {α : Type} {record : Record Reader α} {member : Member Reader α} {name : String}

/-- A table with a single member comes to this member, if the record needs no other. -/
theorem asRecord_soleMember (hmember : record.member? name = some member)
    (hrequired : record.required ⊆ [name]) (origin : Origin) (value : Value) :
    asRecord record (.table origin [(name, value)]) =
      (member.read value).map fun change ↦ change record.initial := by
  have hset : setMember record (Draft.start record) (name, value) =
      (member.read value).map fun change ↦ (Draft.start record).set name change := by
    rw [setMember, hmember]
  change ([(name, value)].foldlM (setMember record) (Draft.start record) >>= fun draft ↦
    draft.finish record) = _
  rw [List.foldlM_cons, hset]
  cases member.read value with
  | error fault => rfl
  | ok change => exact Draft.finish_eq_ok hrequired

end Toml

/-! ### RON -/

namespace Ron

variable {α : Type} {implicitSome : Bool} {record : Record Reader α} {member : Member Reader α}
  {name : String} {c : Char} {s rest : List Char} {depth : Nat} {change : α → α} {fault : Fault}

/-- A record with a single member and no name in front, up to the value of the member. -/
def soleMember (name : String) (s : List Char) : List Char :=
  '(' :: (name.toList ++ ':' :: s)

/-- No name stands in front of the parenthesis, and behind it stands the member. -/
theorem record_soleMember (name : String) (s : List Char) (depth : Nat) :
    Ron.record implicitSome record (depth + 2) (soleMember name s) =
      ((members implicitSome record ((name.toList ++ ':' :: s).length + 1) true
          (Draft.start record) >>= fun draft ↦ liftM (draft.finish record) : Reader α) (depth + 1) >>=
        fun value ↦ (do
          expect ')'
          return value : Scanner α)) (name.toList ++ ':' :: s) := by
  have hname : recordName record.name (soleMember name s) = .ok ((), soleMember name s) := by
    have hgoes : ¬ goesOn (soleMember name s) := by
      simp [goesOn, isIdentifierPart, soleMember]
    rw [recordName, if_neg hgoes]
  have hopen : between (soleMember name s) = .ok ((), soleMember name s) :=
    between_of_skipGap (skipGap_of_isVisible (by decide))
  have hparenthesis : expect '(' (soleMember name s) = .ok ((), name.toList ++ ':' :: s) :=
    expect_cons '(' _
  rw [Ron.record, scannerBind_of_ok hname, scannerBind_of_ok hopen, scannerBind_of_ok hparenthesis]
  rfl

/-- What follows the name of the only member is its value. -/
theorem members_soleMember (hname : IsWord name) (steps : Nat) (s : List Char) :
    members implicitSome record (steps + 1) true (Draft.start record) depth (name.toList ++ ':' :: s) =
      (memberValue implicitSome record (Draft.start record) name >>= fun draft ↦ do
        members implicitSome record steps (← comma) draft) depth (':' :: s) := by
  obtain ⟨first, more, hfirst, hletter⟩ := hname.toList_eq_cons
  have hstart : IsStart first := isStart_of_isAlphanum (by simp [Char.isAlphanum, hletter])
  have hclose : first ≠ ')' := by
    rintro rfl
    exact absurd hletter (by decide)
  have hmore : hasElement ')' true (name.toList ++ ':' :: s) =
      .ok (true, name.toList ++ ':' :: s) := by
    rw [hfirst, List.cons_append, hasElement, skipGap_of_isVisible hstart.1]
    exact (if_neg hclose).trans (if_pos rfl)
  have hkey : identifier (name.toList ++ ':' :: s) = .ok (name, ':' :: s) := by
    rw [identifier, identifier?_append hname (by decide)]
  rw [members, scannerBind_of_ok hmore, if_pos rfl, scannerBind_of_ok hkey]

/-- What follows the name is the value of the member, one level deeper. -/
theorem memberValue_soleMember (hmember : record.member? name = some member) (hc : IsVisible c)
    (s : List Char) (depth : Nat) :
    memberValue implicitSome record (Draft.start record) name (depth + 1) (':' :: c :: s) =
      ((Draft.start record).set name <$> member.read) depth (c :: s) := by
  have hcolon : colon (':' :: c :: s) = .ok ((), c :: s) :=
    colon_of_skipGap (skipGap_of_isVisible (by decide)) (skipGap_of_isVisible hc)
  exact memberValue_of_colon hmember List.not_mem_nil hcolon depth

/-- A record is read from a single member if this member is, and needs no other. -/
theorem record_of_read (hname : IsWord name) (hmember : record.member? name = some member)
    (hrequired : record.required ⊆ [name]) (hc : IsVisible c)
    (hread : member.read depth (c :: s) = .ok (change, ')' :: rest)) :
    Ron.record implicitSome record (depth + 2) (soleMember name (c :: s)) =
      .ok (change record.initial, rest) := by
  have hclose : skipGap .blanks (')' :: rest) = .ok (')' :: rest) := skipGap_of_isVisible (by decide)
  have hend : hasElement ')' false (')' :: rest) = .ok (false, ')' :: rest) := by
    rw [hasElement, hclose]
    exact if_pos rfl
  have hvalue : memberValue implicitSome record (Draft.start record) name (depth + 1) (':' :: c :: s) =
      .ok ((Draft.start record).set name change, ')' :: rest) :=
    (memberValue_soleMember hmember hc s depth).trans (map_of_ok hread _)
  have hmembers (steps : Nat) : members implicitSome record (steps + 2) true (Draft.start record)
      (depth + 1) (name.toList ++ ':' :: c :: s) =
        .ok ((Draft.start record).set name change, ')' :: rest) := by
    rw [members_soleMember hname, readerBind_of_ok hvalue,
      scannerBind_of_ok (comma_of_ne hclose (by decide)), members, scannerBind_of_ok hend]
    rfl
  -- One step takes the member, and another one finds the closing parenthesis.
  obtain ⟨steps, hsteps⟩ : ∃ steps, (name.toList ++ ':' :: c :: s).length + 1 = steps + 2 := by
    refine ⟨(name.toList ++ c :: s).length, ?_⟩
    simp only [List.length_append, List.length_cons]
    omega
  have hfinish : (members implicitSome record ((name.toList ++ ':' :: c :: s).length + 1) true
      (Draft.start record) >>= fun draft ↦ liftM (draft.finish record) : Reader α) (depth + 1)
        (name.toList ++ ':' :: c :: s) = .ok (change record.initial, ')' :: rest) := by
    rw [hsteps, readerBind_of_ok (hmembers steps), Draft.finish_eq_ok hrequired]
    rfl
  rw [record_soleMember, bind_of_ok hfinish, bind_of_ok (expect_cons ')' rest)]
  rfl

/-- It has the fault of this member. -/
theorem record_of_error (hname : IsWord name) (hmember : record.member? name = some member)
    (hc : IsVisible c) (hread : member.read depth (c :: s) = .error fault) :
    Ron.record implicitSome record (depth + 2) (soleMember name (c :: s)) = .error fault := by
  have hvalue : memberValue implicitSome record (Draft.start record) name (depth + 1) (':' :: c :: s) =
      .error fault :=
    (memberValue_soleMember hmember hc s depth).trans (map_of_error hread _)
  have hmembers (steps : Nat) : members implicitSome record (steps + 1) true (Draft.start record)
      (depth + 1) (name.toList ++ ':' :: c :: s) = .error fault := by
    rw [members_soleMember hname]
    exact readerBind_of_error hvalue _
  rw [record_soleMember]
  exact bind_of_error (readerBind_of_error (hmembers _) _) _

end Ron

end FrameSorter
