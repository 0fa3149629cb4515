import FrameSorter.Configuration

/-!
# Numbered configurations

A family of configurations of any size (`numberedConfiguration`): group `k` holds as many items as
asked for, numbered, has a frame of its own and falls back to group `k - 1`.
-/

set_option autoImplicit false
set_option relaxedAutoImplicit false

namespace FrameSorter

/-- The name of the group with this number. -/
def numberedGroupName (k : Nat) : String := "Group " ++ toString k

/-- The group with number `k` and with `itemsPerGroup` items. -/
def numberedGroup (itemsPerGroup k : Nat) : Group :=
  { name := numberedGroupName k
    items := (List.range itemsPerGroup).map fun i ↦
      "minecraft:item_" ++ toString k ++ "_" ++ toString i
    itemFrame := some ("minecraft:frame_" ++ toString k)
    fallback := if k = 0 then none else some (numberedGroupName (k - 1)) }

/-- The groups with numbers below `groups`, in order, and every other setting at its default. -/
def numberedConfiguration (groups itemsPerGroup : Nat) : Configuration :=
  { groups := (List.range groups).map (numberedGroup itemsPerGroup) }

end FrameSorter
