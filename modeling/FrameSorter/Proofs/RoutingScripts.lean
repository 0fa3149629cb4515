import FrameSorter.Frame
import FrameSorter.Proofs.CompoundData
import FrameSorter.Proofs.JsonTokens

/-!
# What a routing script says

The data that a frame asks for are a compound (`FrameMatch.shownItem`): the identifier of the shown item
is a text in it, and the name, if one is wanted, a text that is a JSON literal itself. The compound is read
back from what is written of it, whatever characters the identifier and the name have
(`isReadAs_itemPredicate`). Hence a script determines, for given options, the item it routes to, the
wanted name and what it does where there is no frame (`routingScript_determines`).
-/

set_option autoImplicit false
set_option relaxedAutoImplicit false

namespace FrameSorter

open Snbt

/-! ### Names as literals -/

/-- A literal is read as the text that it says. -/
theorem text_literal (content : String) :
    Json.text (Json.literal content).toList = .ok (content, []) := by
  obtain ⟨s, hs, hread⟩ := Json.readLiteral_append content []
  rw [List.append_nil] at hs
  rw [hs]
  exact hread

/-- Different texts have different literals. -/
theorem literal_inj {first second : String} :
    Json.literal first = Json.literal second ↔ first = second := by
  refine ⟨fun hsame ↦ ?_, congrArg Json.literal⟩
  have hread := text_literal first
  rw [hsame, text_literal, Except.ok.injEq, Prod.mk.injEq] at hread
  exact hread.1.symm

/-! ### The data of the shown item -/

namespace FrameMatch

/-- The members that a wanted name adds to the data of the item. -/
def nameTags (name : Option String) : List (String × Tag) :=
  match name with
  | none => []
  | some name => [("tag", .compound [("display", .compound [("Name", .text (Json.literal name))])])]

/-- The data that the shown item must have. -/
def shownItem (frame : FrameMatch) : Tag :=
  .compound [("Item", .compound (("id", .text frame.target) :: nameTags frame.name))]

/-- The data determine the item and the wanted name. -/
theorem shownItem_inj {frame other : FrameMatch} (hsame : frame.shownItem = other.shownItem) :
    frame.target = other.target ∧ frame.name = other.name := by
  unfold shownItem at hsame
  simp only [Tag.compound.injEq, List.cons.injEq, Prod.mk.injEq, Tag.text.injEq, true_and, and_true]
    at hsame
  refine ⟨hsame.1, ?_⟩
  have htags := hsame.2
  cases hname : frame.name <;> cases hother : other.name <;>
    simp [nameTags, hname, hother, literal_inj] at htags ⊢
  exact htags

/-- How a wanted name is written behind the identifier. -/
def nameText (name : Option String) : List Char :=
  match name with
  | none => []
  | some name =>
    ',' :: ("tag".toList ++ ':' :: '\x7b' :: ("display".toList ++ ':' :: '\x7b' :: ("Name".toList ++ ':' ::
      ((Quoted.quote (Json.literal name) '\'').toList ++ ['\x7d']) ++ ['\x7d'])))

/-- The data are written as the identifier and the wanted name in two compounds. -/
theorem toList_itemPredicate (frame : FrameMatch) :
    frame.itemPredicate.toList =
      '\x7b' :: ("Item".toList ++ ':' :: ('\x7b' :: ("id".toList ++ ':' ::
        ((Quoted.quote frame.target '"').toList ++ nameText frame.name) ++ ['\x7d']) ++ ['\x7d'])) := by
  unfold itemPredicate nameText
  cases frame.name <;> simp

/-- A wanted name is read as a member behind the identifier. -/
theorem listsMembers_nameText (name : Option String) (depth : Nat) :
    ListsMembers (value (depth + 3)) (nameTags name) (nameText name) := by
  cases name with
  | none => exact .nil
  | some name =>
    have hname : IsReadAs (depth + 1) (Quoted.quote (Json.literal name) '\'').toList
        (.text (Json.literal name)) :=
      isReadAs_quote (Or.inr rfl) _
    have htag := isReadAs_singleton (by decide : IsName "display")
      (isReadAs_singleton (by decide : IsName "Name") hname)
    have hlist := ListsMembers.cons (by decide : IsName "tag") htag .nil
    simpa [nameTags, nameText] using hlist

/-- The data of the shown item are read back. -/
theorem isReadAs_itemPredicate (frame : FrameMatch) (depth : Nat) :
    IsReadAs (depth + 5) frame.itemPredicate.toList frame.shownItem := by
  have hid : IsReadAs (depth + 3) (Quoted.quote frame.target '"').toList (.text frame.target) :=
    isReadAs_quote (Or.inl rfl) _
  have hitem := isReadAs_compound
    (.cons (by decide : IsName "id") hid (listsMembers_nameText frame.name depth))
  rw [toList_itemPredicate]
  exact isReadAs_singleton (by decide) hitem

/-- The data of the shown item are what their text says. -/
theorem ofText?_itemPredicate (frame : FrameMatch) :
    ofText? frame.itemPredicate = some frame.shownItem := by
  have hlength : 5 ≤ frame.itemPredicate.toList.length := by
    simp [toList_itemPredicate]
  obtain ⟨depth, hdepth⟩ := Nat.exists_eq_add_of_le' hlength
  refine IsReadAs.ofText?_eq ?_
  rw [hdepth]
  exact isReadAs_itemPredicate frame depth

end FrameMatch

/-! ### Routing scripts -/

/-- A routing script up to the data of the shown item. -/
def scriptFront (kind : String) (radius : UInt32) : String :=
  "execute if entity " ++ "@e[type=" ++ kind ++ ",distance=.." ++ toString radius.toNat ++ ",nbt="

/-- A routing script between the data of the shown item and the fallback. -/
def scriptMiddle (frame : FrameMatch) : String :=
  ",sort=nearest,limit=1]" ++ " run tp @s " ++ frame.selector ++ "\n" ++
    "execute unless entity " ++ frame.selector ++ " run "

/-- A routing script has the data of the shown item in a place that does not depend on them. -/
theorem routingScript_eq (frame : FrameMatch) (fallback : String) :
    routingScript frame fallback =
      scriptFront frame.kind frame.radius ++
        (frame.itemPredicate ++ (scriptMiddle frame ++ (fallback ++ "\n"))) := by
  unfold routingScript scriptFront scriptMiddle
  nth_rewrite 1 [FrameMatch.selector]
  simp only [String.append_assoc]

/-- Scripts for frames of one kind and within one radius determine the frames and the fallbacks. -/
theorem routingScript_inj {frame other : FrameMatch} {fallback fallback' : String}
    (hkind : frame.kind = other.kind) (hradius : frame.radius = other.radius) :
    routingScript frame fallback = routingScript other fallback' ↔
      frame = other ∧ fallback = fallback' := by
  constructor
  · intro hsame
    rw [routingScript_eq, routingScript_eq, hkind, hradius, String.append_right_inj,
      ← String.toList_inj, @String.toList_append frame.itemPredicate,
      @String.toList_append other.itemPredicate] at hsame
    -- The data show where they end, so the frames are the same, and behind them only the fallbacks differ.
    have hitems := (frame.isReadAs_itemPredicate 0).append_inj (other.isReadAs_itemPredicate 0) hsame
    obtain ⟨htarget, hname⟩ := FrameMatch.shownItem_inj hitems.1
    obtain rfl : frame = other := by
      cases frame
      cases other
      simp_all
    have hrest := hitems.2
    rw [String.toList_inj, String.append_right_inj, String.append_left_inj] at hrest
    exact ⟨rfl, hrest⟩
  · rintro ⟨rfl, rfl⟩
    rfl

/-- For given options, the text of a routing script determines the item it routes to, the wanted name and
the fallback. The data in it, read as the game reads them, are those of the item: its identifier is a
text, and a wanted name is a text that is itself a JSON literal of the name. -/
theorem routingScript_determines (options : PackOptions) :
    (∀ (target target' : String) (name name' : Option String) (fallback fallback' : String),
      routingScript (.ofOptions options target name) fallback =
          routingScript (.ofOptions options target' name') fallback' ↔
        target = target' ∧ name = name' ∧ fallback = fallback') ∧
    (∀ target,
      ofText? (FrameMatch.ofOptions options target none).itemPredicate =
        some (.compound [("Item", .compound [("id", .text target)])])) ∧
    ∀ target name, ∃ component,
      ofText? (FrameMatch.ofOptions options target (some name)).itemPredicate =
          some (.compound [("Item", .compound [("id", .text target),
            ("tag", .compound [("display", .compound [("Name", .text component)])])])]) ∧
        Json.text component.toList = .ok (name, []) := by
  refine ⟨fun target target' name name' fallback fallback' ↦ ?_, fun target ↦ ?_,
    fun target name ↦ ⟨Json.literal name, ?_, text_literal name⟩⟩
  · have hscripts : routingScript (.ofOptions options target name) fallback =
        routingScript (.ofOptions options target' name') fallback' ↔
          FrameMatch.ofOptions options target name = .ofOptions options target' name' ∧
            fallback = fallback' :=
      routingScript_inj rfl rfl
    rw [hscripts]
    simp [FrameMatch.ofOptions, and_assoc]
  · exact FrameMatch.ofText?_itemPredicate _
  · exact FrameMatch.ofText?_itemPredicate _

end FrameSorter
