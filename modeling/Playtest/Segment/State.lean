/-!
# States of a segment

    Pending -> AwaitingEntry -> Executing -> AwaitingCompletion -> Completed

From each of the three states in the middle a segment may also end timed out or failed, and a
pending segment may be skipped.
-/

namespace Playtest

/-- How far a segment has come. -/
inductive SegmentState where
  | pending
  | awaitingEntry
  | executing
  | awaitingCompletion
  | completed
  | timedOut
  | failed
  /-- The run ended before the segment was reached. -/
  | skipped
  deriving Repr, DecidableEq

namespace SegmentState

/-- Whether a segment has ended. -/
def isTerminal : SegmentState → Bool
  | completed | timedOut | failed | skipped => true
  | pending | awaitingEntry | executing | awaitingCompletion => false

/-- The name of a state. -/
def name : SegmentState → String
  | pending => "Pending"
  | awaitingEntry => "AwaitingEntry"
  | executing => "Executing"
  | awaitingCompletion => "AwaitingCompletion"
  | completed => "Completed"
  | timedOut => "TimedOut"
  | failed => "Failed"
  | skipped => "Skipped"

end SegmentState

/-- The two times at which a segment waits for criteria. -/
inductive Phase where
  | entry
  | completion
  deriving Repr, DecidableEq

namespace Phase

/-- The name of a phase in keys. -/
def name : Phase → String
  | entry => "entry"
  | completion => "end"

/-- The state of a segment whose criteria hold. -/
def next : Phase → SegmentState
  | entry => .executing
  | completion => .completed

end Phase

end Playtest
