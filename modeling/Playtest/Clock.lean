/-!
# Time that passes

Times are seconds. Frames may carry any times at all, but no run ever goes back in time.
-/

namespace Playtest

/-- The time that has passed by a difference. What is not more than zero counts as nothing. -/
def forward (delta : Float) : Float := if 0.0 < delta then delta else 0.0

end Playtest
