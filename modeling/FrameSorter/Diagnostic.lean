/-!
# What a compilation reports

An error says why a declared group or item has no function, a warning that a fallback leads nowhere.
Both carry the texts they speak of; their wording is in `CompileError.message` and
`CompileWarning.message`.
-/

set_option autoImplicit false
set_option relaxedAutoImplicit false

namespace FrameSorter

/-- Why a group that repeats nothing is still no usable group. -/
inductive InvalidGroupReason
  | emptyId
  | noItems
  | noItemFrame
  deriving DecidableEq, Repr

/-- The wording of a reason. -/
def InvalidGroupReason.message : InvalidGroupReason → String
  | .emptyId => "group name has no word characters"
  | .noItems => "no items"
  | .noItemFrame => "no item frame"

/-- Why a declared group or item has no function. -/
inductive CompileError
  | duplicateGroupId (groupName id : String)
  | duplicateFrame (groupName frame : String)
  | duplicateItem (groupName item : String)
  | duplicateItemName (groupName item name first : String)
  | invalidGroup (groupName : String) (reason : InvalidGroupReason)
  deriving DecidableEq, Repr

/-- The wording of an error. -/
def CompileError.message : CompileError → String
  | .duplicateGroupId groupName id =>
    "duplicate group id '" ++ id ++ "' (group '" ++ groupName ++ "')"
  | .duplicateFrame groupName frame =>
    "duplicate item frame '" ++ frame ++ "' (group '" ++ groupName ++ "')"
  | .duplicateItem groupName item =>
    "duplicate item '" ++ item ++ "' (group '" ++ groupName ++ "')"
  | .duplicateItemName groupName item name first =>
    "item '" ++ item ++ "' (group '" ++ groupName ++ "') derives name '" ++ name ++
      "' already used by '" ++ first ++ "'"
  | .invalidGroup groupName reason =>
    "invalid group '" ++ groupName ++ "': " ++ reason.message

/-- What is odd about a group that has a function. -/
inductive CompileWarning
  | unresolvedFallback (groupName fallback : String)
  deriving DecidableEq, Repr

/-- The wording of a warning. -/
def CompileWarning.message : CompileWarning → String
  | .unresolvedFallback groupName fallback =>
    "group '" ++ groupName ++ "' falls back to unknown group '" ++ fallback ++ "'"

end FrameSorter
