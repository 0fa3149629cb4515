/-!
# Scoreboard names

A pack counts ticks on one objective and keeps the effects from repeating on another. Both
objectives carry the pack's namespace; the counted holders are fixed.
-/

set_option autoImplicit false
set_option relaxedAutoImplicit false

namespace FrameSorter

/-- The objective on which the ticks since the last run are counted. -/
def timerObjective (space : String) : String := space ++ "_timer"

/-- The objective that is set once the effects of a cycle have run. -/
def cooldownObjective (space : String) : String := space ++ "_cooldown"

/-- The holder of the tick count. -/
def timerHolder : String := "#timer"

/-- The holder of the cooldown. -/
def cooldownHolder : String := "#cooldown"

end FrameSorter
