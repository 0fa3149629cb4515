import FrameSorter.Configuration
import FrameSorter.Document.Fault

/-!
# Records of a configuration

What the members of a configuration are called and what they hold is the same in every format. A
`Record` lists the members of a type of value in the order of its declaration: reading a member
gives a change of the value, and a value starts from its defaults. A format says how it reads texts,
numbers, lists and records (`Reading`); the records of a configuration, of a group and of the pack
options are built on that (`Configuration.record`).

While the members are read, a `Draft` holds the value so far and the members that it has. A draft is
finished when no required member is missing (`Draft.finish`).
-/

set_option autoImplicit false
set_option relaxedAutoImplicit false

namespace FrameSorter

/-- A member of a record: its name, and how reading it changes the value. -/
structure Member (m : Type → Type) (α : Type) where
  name : String
  read : m (α → α)

/-- A type of value with named members, in the order of their declaration. -/
structure Record (m : Type → Type) (α : Type) where
  name : String
  initial : α
  members : List (Member m α)
  required : List String

/-- The member with this name. -/
def Record.member? {m : Type → Type} {α : Type} (record : Record m α) (name : String) :
    Option (Member m α) :=
  record.members.find? (·.name == name)

/-- A value that is being read, and the names of the members that it has already. -/
structure Draft (α : Type) where
  value : α
  present : List String

namespace Draft

variable {m : Type → Type} {α : Type}

/-- Nothing read. -/
def start (record : Record m α) : Draft α :=
  { value := record.initial, present := [] }

/-- Takes a member that was read. -/
def set (draft : Draft α) (name : String) (change : α → α) : Draft α :=
  { value := change draft.value, present := name :: draft.present }

/-- The required member that is missing, first in declaration order. -/
def missing? (draft : Draft α) (record : Record m α) : Option String :=
  record.required.find? (· ∉ draft.present)

/-- The value, if its members were given by name. -/
def finish (draft : Draft α) (record : Record m α) : Except Fault α :=
  match draft.missing? record with
  | some name => .error (.missingMember record.name name)
  | none => .ok draft.value

/-- The value, if its members were given by position. -/
def finishPositional (draft : Draft α) (record : Record m α) : Except Fault α :=
  match draft.missing? record with
  | some _ => .error (.tooShort record.name draft.present.length record.members.length)
  | none => .ok draft.value

end Draft

/-- How a format reads the values that a configuration is made of. -/
structure Reading (m : Type → Type) where
  text : m String
  optionalText : m (Option String)
  word : m UInt32
  list : {α : Type} → m α → m (List α)
  record : {α : Type} → Record m α → m α

section Records

variable {m : Type → Type} [Functor m]

/-- A member whose value is stored by `set`. -/
def Member.of {α β : Type} (name : String) (read : m β) (set : β → α → α) : Member m α :=
  { name, read := set <$> read }

/-- The members of the pack options. Every one has a default. -/
def PackOptions.record (reading : Reading m) : Record m PackOptions where
  name := "PackOptions"
  initial := {}
  members :=
    [.of "namespace" reading.text fun value options ↦ { options with packNamespace := value },
     .of "description" reading.text fun value options ↦ { options with description := value },
     .of "packFormat" reading.word fun value options ↦ { options with packFormat := value },
     .of "searchRadius" reading.word fun value options ↦ { options with searchRadius := value },
     .of "frameKind" reading.text fun value options ↦ { options with frameKind := value },
     .of "markerTop" reading.text fun value options ↦ { options with markerTop := value },
     .of "markerBottom" reading.text fun value options ↦ { options with markerBottom := value },
     .of "interval" reading.word fun value options ↦ { options with interval := value }]
  required := []

/-- The members of a group. Only the name has no default. -/
def Group.record (reading : Reading m) : Record m Group where
  name := "Group"
  initial := { name := "" }
  members :=
    [.of "groupName" reading.text fun value group ↦ { group with name := value },
     .of "items" (reading.list reading.text) fun value group ↦ { group with items := value },
     .of "itemFrame" reading.optionalText fun value group ↦ { group with itemFrame := value },
     .of "fallback" reading.optionalText fun value group ↦ { group with fallback := value }]
  required := ["groupName"]

/-- The members of a configuration. Every one has a default. -/
def Configuration.record (reading : Reading m) : Record m Configuration where
  name := "Configuration"
  initial := {}
  members :=
    [.of "groups" (reading.list (reading.record (Group.record reading)))
       fun value config ↦ { config with groups := value },
     .of "effects" (reading.list reading.text) fun value config ↦ { config with effects := value },
     .of "finalFallback" reading.optionalText
       fun value config ↦ { config with finalFallback := value },
     .of "groupNameInFrame" reading.optionalText
       fun value config ↦ { config with groupNameInFrame := value },
     .of "itemNameInFrame" reading.optionalText
       fun value config ↦ { config with itemNameInFrame := value },
     .of "pack" (reading.record (PackOptions.record reading))
       fun value config ↦ { config with pack := value }]
  required := []

end Records

end FrameSorter
