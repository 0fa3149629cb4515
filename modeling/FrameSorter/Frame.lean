import FrameSorter.Configuration
import FrameSorter.Json.Literal
import FrameSorter.Text.Quoted

/-!
# Item frames and routing

A storage place is marked by an item frame. `FrameMatch` says which frame is meant: the kind of
entity, how far away it may be, the item that it shows and, if wanted, the name of that item. The
game finds the frame by a selector (`FrameMatch.selector`) and a routing script moves the item entity
that runs it to the frame, or hands it on if there is none (`routingScript`).
-/

set_option autoImplicit false
set_option relaxedAutoImplicit false

namespace FrameSorter

/-- The item frame that an item is moved to. -/
structure FrameMatch where
  kind : String
  radius : UInt32
  target : String
  name : Option String
  deriving DecidableEq, Repr

/-- The frame that shows `target`, of the kind and within the radius that the options give. -/
def FrameMatch.ofOptions (options : PackOptions) (target : String) (name : Option String) :
    FrameMatch :=
  { kind := options.frameKind, radius := options.searchRadius, target, name }

/-- The data that the shown item must have: its identifier and, if a name is wanted, the text
component of its name, itself a JSON literal. -/
def FrameMatch.itemPredicate (frame : FrameMatch) : String :=
  "\x7bItem:\x7bid:" ++ Quoted.quote frame.target '"' ++
    (match frame.name with
      | none => ""
      | some name =>
        ",tag:\x7bdisplay:\x7bName:" ++ Quoted.quote (Json.literal name) '\'' ++ "\x7d\x7d") ++
    "\x7d\x7d"

/-- The nearest entity that is such a frame. -/
def FrameMatch.selector (frame : FrameMatch) : String :=
  "@e[type=" ++ frame.kind ++ ",distance=.." ++ toString frame.radius.toNat ++
    ",nbt=" ++ frame.itemPredicate ++ ",sort=nearest,limit=1]"

/-- Two commands: where the frame exists the item moves to it, elsewhere `fallback` runs. -/
def routingScript (frame : FrameMatch) (fallback : String) : String :=
  "execute if entity " ++ frame.selector ++ " run tp @s " ++ frame.selector ++ "\n" ++
    "execute unless entity " ++ frame.selector ++ " run " ++ fallback ++ "\n"

end FrameSorter
